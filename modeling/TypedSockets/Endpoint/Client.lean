import TypedSockets.Endpoint.Observer
import TypedSockets.Socket.Impl

/-! `client_t` and the process it lives in: the kernel, the polls, all clients of one template
instantiation, and the two static lambdas of `connect`, which are initialised once for all of
them. -/

namespace TypedSockets.Endpoint

open TypedSockets.Socket TypedSockets.Epoll

abbrev ClientId := Nat

/-- A function of the user. -/
abbrev Callback := Nat

inductive Role where
  | onConnect
  | onReadReady
  | onDisconnect
  deriving DecidableEq

/-- A call of a function of the user, by a handler or by `m_unhandled`. -/
inductive Invocation where
  | callback (client : ClientId) (role : Role) (func : Callback)
  | unhandled (client : ClientId) (func : Callback) (events : List Event)
  deriving DecidableEq

inductive Exn where
  | badFunctionCall
  | badVariantAccess
  | user (code : Nat)
  deriving DecidableEq

/-- What the last invocation does, after those before it.  Functions of the user may throw; they
call nothing back. -/
abbrev UserCode := List Invocation → Except Exn Unit

/-- The arguments of `connect`.  An empty `std::function` is `none`. -/
structure ConnectArgs where
  remoteAddress : List UInt8
  remotePort : UInt64
  onConnect : Option Callback
  onReadReady : Option Callback
  onDisconnect : Option Callback
  deriving DecidableEq

/-- `sum_of_client_states_t`. -/
inductive ClientState (proto : Proto) where
  | idle (sock : Option SocketT)
  | binded (based : proto.isConnectionless = false) (sock : BindedSocket)
  | active (sock : ActiveSocket)
  deriving DecidableEq

namespace ClientState

variable {proto : Proto}

/-- `endpoint_t::idle`: the index of the alternative is zero. -/
def isIdle : ClientState proto → Bool
  | idle _ => true
  | _ => false

/-- `endpoint_t::get_fd`. -/
def getFd : ClientState proto → Fd
  | idle none => -1
  | idle (some sock) => sock.impl.handle
  | binded _ sock => sock.impl.handle
  | active sock => sock.impl.handle

def destroy (k : Kernel) : ClientState proto → Kernel
  | idle none => k
  | idle (some sock) => sock.impl.destroy k
  | binded _ sock => sock.impl.destroy k
  | active sock => sock.impl.destroy k

/-- The kernel after the assignment of `new`.  A socket of the same class is assigned to, and its
`m_fd` overwritten; any other one is destroyed. -/
def assign (k : Kernel) (old new : ClientState proto) : Kernel :=
  match old, new with
  | idle (some _), idle (some _) => k
  | binded _ _, binded _ _ => k
  | active _, active _ => k
  | old, _ => old.destroy k

end ClientState

/-- The lambdas that `register_cbs` registers. -/
inductive ClientHandler where
  | erase
  | readReady
  | writeReady
  deriving DecidableEq

structure Client (proto : Proto) where
  af : Int
  state : ClientState proto := .idle none
  handlers : Handlers ClientHandler := .empty
  unhandled : Option Callback := none
  remote : Option InAddressPort := none
  onConnect : Option Callback := none
  onReadReady : Option Callback := none
  onDisconnect : Option Callback := none

/-- `registered c` is what the poll of client `c` observes.  `statics` is the client whose `connect`
initialised the static lambdas.  `trace` holds the invocations, latest first. -/
structure World (proto : Proto) where
  kernel : Kernel
  registered : ClientId → Fd → Option SockOp
  statics : Option ClientId
  clients : ClientId → Client proto
  trace : List Invocation

namespace World

variable {proto : Proto}

/-- Clients just constructed, in a process that has not called `connect`. -/
def initial (af : ClientId → Int) (unhandled : ClientId → Option Callback) : World proto :=
  ⟨.initial, fun _ _ => none, none, fun c => { af := af c, unhandled := unhandled c }, []⟩

def update (w : World proto) (c : ClientId) (f : Client proto → Client proto) : World proto :=
  { w with clients := Function.update w.clients c (f (w.clients c)) }

def getFd (w : World proto) (c : ClientId) : Fd := (w.clients c).state.getFd

/-- `PollTraits::add_socket`, which may refuse. -/
def addSocket (w : World proto) (c : ClientId) (fd : Fd) (op : SockOp) (added : Bool) :
    World proto :=
  if added then
    { w with registered :=
        Function.update w.registered c (Function.update (w.registered c) fd (some op)) }
  else w

/-- `PollTraits::del_socket`. -/
def delSocket (w : World proto) (c : ClientId) (fd : Fd) : World proto :=
  { w with registered :=
      Function.update w.registered c (Function.update (w.registered c) fd none) }

/-- `this->state = std::move(new)`.  A descriptor that the assignment closes leaves every poll. -/
def setState (w : World proto) (c : ClientId) (new : ClientState proto) : World proto :=
  let k := (w.clients c).state.assign w.kernel new
  { w.update c fun cl => { cl with state := new } with
    kernel := k
    registered := fun i fd => if k.Open fd then w.registered i fd else none }

@[simp] theorem update_kernel (w : World proto) (c : ClientId)
    (f : Client proto → Client proto) : (w.update c f).kernel = w.kernel := rfl

@[simp] theorem update_client (w : World proto) (c i : ClientId)
    (f : Client proto → Client proto) :
    (w.update c f).clients i = if i = c then f (w.clients c) else w.clients i := by
  by_cases h : i = c <;> simp [World.update, h]

@[simp] theorem setState_kernel (w : World proto) (c : ClientId) (new : ClientState proto) :
    (w.setState c new).kernel = (w.clients c).state.assign w.kernel new := rfl

@[simp] theorem setState_client (w : World proto) (c i : ClientId) (new : ClientState proto) :
    (w.setState c new).clients i =
      if i = c then { w.clients c with state := new } else w.clients i :=
  w.update_client c i fun cl => { cl with state := new }

/-- The types and lambdas of `register_cbs`. -/
def cbs : List (EventType × ClientHandler) :=
  [(.peerClosed, .erase), (.error, .erase), (.hangup, .erase), (.exception, .erase),
    (.readReady, .readReady), (.writeReady, .writeReady)]

def registerCbs (w : World proto) (c : ClientId) : World proto :=
  w.update c fun cl =>
    { cl with handlers := cbs.foldl (fun t cb => (t.add cb.1 cb.2).2) cl.handlers }

/-- The types of `unregister_cbs`: the handler of `WRITE_READY` stays. -/
def uncbs : List EventType := [.peerClosed, .error, .hangup, .exception, .readReady]

def unregisterCbs (w : World proto) (c : ClientId) : World proto :=
  w.update c fun cl =>
    { cl with handlers := uncbs.foldl (fun t tp => (t.remove tp).2) cl.handlers }

/-- `client_t::start()`. -/
def start (w : World proto) (c : ClientId) (ans : Except Errno Fd) (added : Bool) :
    Bool × World proto :=
  if (w.clients c).state.isIdle then
    match SocketT.create proto (w.clients c).af ans w.kernel with
    | (some sock, k) =>
      let w := { w with kernel := k }.registerCbs c
      let w := w.addSocket c sock.impl.handle .readWrite added
      (true, w.setState c (.idle (some sock)))
    | (none, k) => (false, { w with kernel := k })
  else (false, w)

/-- The bound socket that `start(local)` puts in the state, made by `socket_t::create` and
`bind`.  A socket that cannot be bound is closed again. -/
def createBound (proto : Proto) (af : Int) (local_ : InAddressPort) (ans : Except Errno Fd)
    (bound : Answer) (k : Kernel) : Option (ClientState proto) × Kernel :=
  match SocketT.create proto af ans k with
  | (some sock, k) =>
    if h : proto.isConnectionless = false then
      let (r, left, k) := sock.bind local_ bound k
      (r.map (.binded h), left.impl.destroy k)
    else
      let (r, left, k) := sock.bindConnectionless local_ bound k
      (r.map .active, left.impl.destroy k)
  | (none, k) => (none, k)

section

variable (pton : InetPton)

/-- `client_t::start(local_address, local_port)`. -/
def startLocal (w : World proto) (c : ClientId) (localAddress : List UInt8) (localPort : UInt64)
    (ans : Except Errno Fd) (bound : Answer) (added : Bool) : Bool × World proto :=
  if (w.clients c).state.isIdle then
    match fromStringAndPort pton localAddress localPort with
    | some address =>
      match createBound proto (w.clients c).af address ans bound w.kernel with
      | (some sock, k) =>
        let w := { w with kernel := k }.registerCbs c
        let w := w.addSocket c sock.getFd .readWrite added
        (true, w.setState c sock)
      | (none, k) => (false, { w with kernel := k })
    | none => (false, w)
  else (false, w)

/-- `client_t::stop`. -/
def stop (w : World proto) (c : ClientId) : World proto :=
  ((w.delSocket c (w.getFd c)).setState c (.idle none)).unregisterCbs c

/-- The static lambda `set_fields`: it sets the fields of the client that it captured, to the
callbacks in the frame that it captured. -/
def setFields (w : World proto) (this : ClientId) (addr : InAddressPort) (frame : ConnectArgs) :
    World proto :=
  w.update this fun cl =>
    { cl with
      remote := some addr
      onConnect := frame.onConnect
      onReadReady := frame.onReadReady
      onDisconnect := frame.onDisconnect }

@[simp] theorem setFields_kernel (w : World proto) (this : ClientId) (addr : InAddressPort)
    (frame : ConnectArgs) : (w.setFields this addr frame).kernel = w.kernel := rfl

@[simp] theorem setFields_client (w : World proto) (this i : ClientId) (addr : InAddressPort)
    (frame : ConnectArgs) :
    (w.setFields this addr frame).clients i =
      if i = this then
        { w.clients this with
          remote := some addr
          onConnect := frame.onConnect
          onReadReady := frame.onReadReady
          onDisconnect := frame.onDisconnect }
      else w.clients i :=
  w.update_client this i _

/-- `sock.connect` on the socket in the state of the called client, and what it leaves there. -/
def connectSock (state : ClientState proto) (addr : InAddressPort) (ans : Answer) (k : Kernel) :
    Option ActiveSocket × ClientState proto × Kernel :=
  match state with
  | .idle (some sock) =>
    let (r, left, k) := sock.connect addr ans k
    (r, .idle (some left), k)
  | .binded based sock =>
    let (r, left, k) := sock.connect addr ans k
    (r, .binded based left, k)
  | state => (none, state, k)

/-- The static lambda `connect`, on the socket of client `c`. -/
def connectLambda (w : World proto) (this c : ClientId) (frame : ConnectArgs) (ans : Answer) :
    Bool × World proto :=
  match fromStringAndPort pton frame.remoteAddress frame.remotePort with
  | some parsed =>
    let (connected, left, k) := connectSock (w.clients c).state parsed ans w.kernel
    let w := { w with kernel := k }.update c fun cl => { cl with state := left }
    match connected with
    | some sock => (true, (w.setFields this parsed frame).setState this (.active sock))
    | none => (false, w)
  | none => (false, w)

/-- `client_t::connect`.  The static lambdas capture `this` and the parameters of the call that
initialises them.  In a later call `dead` is what they find in the memory of those parameters. -/
def connect (w : World proto) (c : ClientId) (args : ConnectArgs) (ans : Answer)
    (dead : ConnectArgs) : Bool × World proto :=
  let this := w.statics.getD c
  let frame := if w.statics.isNone then args else dead
  let w := { w with statics := some this }
  match (w.clients c).state with
  | .active _ =>
    match fromStringAndPort pton args.remoteAddress args.remotePort with
    | some parsed => (true, w.setFields this parsed frame)
    | none => (false, w)
  | .idle none => (false, w)
  | .idle (some _) =>
    if proto.isConnectionless then (false, w) else w.connectLambda pton this c frame ans
  | .binded _ _ => w.connectLambda pton this c frame ans

end

/-! ### Event batches -/

section

variable (user : UserCode)

def call (w : World proto) (inv : Invocation) : Except Exn Unit × World proto :=
  (user (inv :: w.trace), { w with trace := inv :: w.trace })

/-- A callback and the clearing of its field, which does not happen when the callback throws. -/
def callOnce (w : World proto) (c : ClientId) (inv : Invocation)
    (clear : Client proto → Client proto) : Except Exn Unit × World proto :=
  match w.call user inv with
  | (.ok (), w) => (.ok (), w.update c clear)
  | (.error e, w) => (.error e, w)

theorem callOnce_cases (w : World proto) (c : ClientId) (inv : Invocation)
    (clear : Client proto → Client proto) :
    (w.callOnce user c inv clear).2 = (w.call user inv).2.update c clear ∨
      (w.callOnce user c inv clear).2 = (w.call user inv).2 := by
  unfold callOnce
  rcases w.call user inv with ⟨_ | _, w'⟩
  · exact Or.inr rfl
  · exact Or.inl rfl

/-- A handler of client `c`. -/
def invoke (c : ClientId) (func : ClientHandler) (fd : Fd) (w : World proto) :
    Except Exn Unit × World proto :=
  if fd = w.getFd c then
    match func with
    | .erase =>
      let w := w.delSocket c fd
      match (w.clients c).onDisconnect with
      | some func =>
        w.callOnce user c (.callback c .onDisconnect func) fun cl => { cl with onDisconnect := none }
      | none => (.ok (), w)
    | .readReady =>
      match (w.clients c).onReadReady with
      | some func => w.call user (.callback c .onReadReady func)
      | none => (.error .badFunctionCall, w)
    | .writeReady =>
      match (w.clients c).onConnect with
      | some func =>
        w.callOnce user c (.callback c .onConnect func) fun cl => { cl with onConnect := none }
      | none => (.ok (), w)
  else (.ok (), w)

/-- `client_t::proceed`, on the events that its poll returns. -/
def proceed (w : World proto) (c : ClientId) (events : List Event) :
    Except (List Exn) Bool × World proto :=
  Endpoint.proceed (invoke user c) (w.clients c).handlers
    ((w.clients c).unhandled.map fun func events w => w.call user (.unhandled c func events))
    events w

end

end World

end TypedSockets.Endpoint
