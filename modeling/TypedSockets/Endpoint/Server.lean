import TypedSockets.Endpoint.Client

/-! `server_t` and the process it lives in: the kernel with the connections that wait at the
listening descriptor, the poll, and the accepted sockets that the user keeps. -/

namespace TypedSockets.Endpoint

open TypedSockets.Socket TypedSockets.Epoll

/-- `sum_of_server_states_t`. -/
inductive ServerState (proto : Proto) where
  | idle (sock : Option SocketT)
  | binded (based : proto.isConnectionless = false) (sock : BindedSocket)
  | listening (based : proto.isConnectionless = false) (sock : ListeningSocket)
  | active (connectionless : proto.isConnectionless = true) (sock : ActiveSocket)

namespace ServerState

variable {proto : Proto}

def isIdle : ServerState proto → Bool
  | idle _ => true
  | _ => false

/-- The socket in the state. -/
def impl? : ServerState proto → Option SocketImpl
  | idle sock => sock.map SocketT.impl
  | binded _ sock => some sock.impl
  | listening _ sock => some sock.impl
  | active _ sock => some sock.impl

def getFd (s : ServerState proto) : Fd := (s.impl?.map SocketImpl.handle).getD (-1)

def destroy (k : Kernel) (s : ServerState proto) : Kernel := (s.impl?.map (·.destroy k)).getD k

/-- The kernel after the assignment of `new`.  A socket of the same class is assigned to, and its
`m_fd` overwritten; any other one is destroyed. -/
def assign (k : Kernel) (old new : ServerState proto) : Kernel :=
  match old, new with
  | idle (some _), idle (some _) => k
  | binded _ _, binded _ _ => k
  | listening _ _, listening _ _ => k
  | active _ _, active _ _ => k
  | old, _ => old.destroy k

end ServerState

/-- The lambdas that `register_cbs` registers. -/
inductive ServerHandler where
  | erase
  | readReady
  deriving DecidableEq

/-- `m_on_conn` and `m_erase_active_socket` may hold a lambda of the server around a function of the
user: the lambda is there when the function is empty. -/
structure Server (proto : Proto) where
  af : Int
  state : ServerState proto := .idle none
  handlers : Handlers ServerHandler := .empty
  unhandled : Option Callback := none
  onConn : Option (Option Callback) := none
  eraseActiveSocket : Option (Option Callback) := none

/-- What a server does that the user or the poll sees. -/
inductive Action where
  | added (fd : Fd) (op : SockOp)
  | onConn (func : Callback) (fd : Fd) (remote : InAddressPort)
  | onMessage (func : Callback)
  | eraseActiveSocket (func : Callback) (fd : Fd)
  | onClose (func : Callback)
  | unhandled (func : Callback) (events : List Event)
  deriving DecidableEq

/-- What the last action, after those before it, makes the user do: throw or not, and the accepted
sockets that the user destroys. -/
abbrev ServerUser := List Action → Except Exn Unit × List Fd

/-- The arguments of `start`.  An empty `std::function` is `none`. -/
structure ServerArgs where
  address : List UInt8
  port : UInt64
  maxConns : UInt32
  onConn : Option Callback
  eraseActiveSocket : Option Callback

/-- `queue` holds the peers whose connections wait to be accepted.  `edge` says that one of them
came after the last report of the listening descriptor.  `held` holds the descriptors of the
accepted sockets.  `trace` holds the actions, latest first. -/
structure Host (proto : Proto) where
  kernel : Kernel
  registered : Fd → Option SockOp
  queue : List FilledAddr
  edge : Bool
  held : List Fd
  server : Server proto
  trace : List Action

namespace Host

variable {proto : Proto}

/-- A server just constructed. -/
def initial (af : Int) (unhandled : Option Callback) : Host proto :=
  ⟨.initial, fun _ => none, [], false, [], { af, unhandled }, []⟩

def getFd (h : Host proto) : Fd := h.server.state.getFd

/-- `PollTraits::add_socket`, which may refuse. -/
def addSocket (h : Host proto) (fd : Fd) (op : SockOp) (added : Bool) : Host proto :=
  if added then
    { h with
      registered := Function.update h.registered fd (some op)
      trace := .added fd op :: h.trace }
  else h

def delSocket (h : Host proto) (fd : Fd) : Host proto :=
  { h with registered := Function.update h.registered fd none }

/-- `derived.state = std::move(new)`.  A descriptor that the assignment closes leaves the poll. -/
def setState (h : Host proto) (new : ServerState proto) : Host proto :=
  let k := h.server.state.assign h.kernel new
  { h with
    kernel := k
    registered := fun fd => if k.Open fd then h.registered fd else none
    server := { h.server with state := new } }

/-- The types and lambdas of `register_cbs`. -/
def cbs : List (EventType × ServerHandler) :=
  [(.peerClosed, .erase), (.error, .erase), (.hangup, .erase), (.exception, .erase),
    (.readReady, .readReady)]

def registerCbs (h : Host proto) : Host proto :=
  { h with server := { h.server with
      handlers := cbs.foldl (fun t cb => (t.add cb.1 cb.2).2) h.server.handlers } }

/-- The types of `unregister_cbs`. -/
def uncbs : List EventType := [.peerClosed, .error, .hangup, .exception, .readReady]

/-- The listening socket of `start`, made by `socket_t::create`, `bind` and `listen`.  A socket that
one of them leaves behind is destroyed. -/
def createListener (proto : Proto) (af : Int) (local_ : InAddressPort) (maxConns : UInt32)
    (ans : Except Errno Fd) (bound listened : Answer) (k : Kernel) :
    Option ListeningSocket × Kernel :=
  match SocketT.create proto af ans k with
  | (some sock, k) =>
    match sock.bind local_ bound k with
    | (some binded, left, k) =>
      let (listener, leftBinded, k) := binded.listen maxConns listened k
      (listener, left.impl.destroy (leftBinded.impl.destroy k))
    | (none, left, k) => (none, left.impl.destroy k)
  | (none, k) => (none, k)

/-- `start` of the connection based protocols.  Nothing waits at a new listening socket. -/
def start (pton : InetPton) (h : Host proto) (based : proto.isConnectionless = false)
    (args : ServerArgs) (ans : Except Errno Fd) (bound listened : Answer) (added : Bool) :
    Bool × Host proto :=
  if h.server.state.isIdle then
    match fromStringAndPort pton args.address args.port with
    | some address =>
      match createListener proto h.server.af address args.maxConns ans bound listened h.kernel with
      | (some listener, k) =>
        let h := { h with kernel := k, queue := [], edge := false }.registerCbs
        let h := h.addSocket listener.impl.handle .read added
        let h := h.setState (.listening based listener)
        (true, { h with server := { h.server with
            onConn := some args.onConn
            eraseActiveSocket := args.eraseActiveSocket.map some } })
      | (none, k) => (false, { h with kernel := k })
    | none => (false, h)
  else (false, h)

/-- The bound socket of `start`, made by `socket_t::create` and `bind`.  A socket that cannot be
bound is closed again. -/
def createActive (proto : Proto) (af : Int) (local_ : InAddressPort) (ans : Except Errno Fd)
    (bound : Answer) (k : Kernel) : Option ActiveSocket × Kernel :=
  match SocketT.create proto af ans k with
  | (some sock, k) =>
    let (active, left, k) := sock.bindConnectionless local_ bound k
    (active, left.impl.destroy k)
  | (none, k) => (none, k)

/-- `start` of the connectionless protocols.  Both functions of the user are wrapped. -/
def startConnectionless (pton : InetPton) (h : Host proto)
    (connectionless : proto.isConnectionless = true) (address : List UInt8) (port : UInt64)
    (onConn onClose : Option Callback) (ans : Except Errno Fd) (bound : Answer) (added : Bool) :
    Bool × Host proto :=
  if h.server.state.isIdle then
    match fromStringAndPort pton address port with
    | some localAddr =>
      match createActive proto h.server.af localAddr ans bound h.kernel with
      | (some active, k) =>
        let h := { h with kernel := k }.registerCbs
        let h := h.addSocket active.impl.handle .read added
        let h := h.setState (.active connectionless active)
        (true, { h with server := { h.server with
            onConn := some onConn
            eraseActiveSocket := some onClose } })
      | (none, k) => (false, { h with kernel := k })
    | none => (false, h)
  else (false, h)

/-! ### Event batches -/

/-- The user destroys an accepted socket. -/
def drop (h : Host proto) (fd : Fd) : Host proto :=
  if fd ∈ h.held then
    { h with
      kernel := h.kernel.close fd
      registered := Function.update h.registered fd none
      held := h.held.erase fd }
  else h

/-- `accept` on the listening socket: the kernel hands out the connection that has waited longest,
under the descriptor `new`. -/
def accept (h : Host proto) (sock : ListeningSocket) (new : Fd) :
    Option ActiveSocket × Host proto :=
  let ans := match h.queue with
    | peer :: _ => .ok (new, peer)
    | [] => .error eAgain
  let (accepted, k) := sock.accept ans h.kernel
  (accepted, { h with kernel := k, queue := if accepted.isSome then h.queue.tail else h.queue })

section

variable (user : ServerUser)

def call (h : Host proto) (action : Action) : Except Exn Unit × Host proto :=
  let (r, dropped) := user (action :: h.trace)
  (r, dropped.foldl drop { h with trace := action :: h.trace })

/-- `m_on_conn` on an accepted socket, which is destroyed when the function of the user is empty. -/
def handOver (h : Host proto) (fd : Fd) (remote : InAddressPort) : Except Exn Unit × Host proto :=
  let h := { h with held := fd :: h.held }
  match h.server.onConn with
  | some (some func) => h.call user (.onConn func fd remote)
  | _ => (.error .badFunctionCall, h.drop fd)

/-- A handler of the server.  `new` is the descriptor that `accept4` returns, and `added` the answer
of the poll that it is added to. -/
def invoke (new : Fd) (added : Bool) (func : ServerHandler) (fd : Fd) (h : Host proto) :
    Except Exn Unit × Host proto :=
  match func with
  | .erase =>
    let h := h.delSocket fd
    match h.server.eraseActiveSocket with
    | some (some func) =>
      h.call user (if proto.isConnectionless then .onClose func else .eraseActiveSocket func fd)
    | _ => (.error .badFunctionCall, h)
  | .readReady =>
    if fd = h.getFd then
      if proto.isConnectionless then
        match h.server.onConn with
        | some (some func) => h.call user (.onMessage func)
        | _ => (.error .badFunctionCall, h)
      else
        match h.server.state with
        | .listening _ sock =>
          match h.accept sock new with
          | (some conn, h) =>
            let h := h.addSocket conn.impl.handle .read added
            match conn.remote with
            | some remote => h.handOver user conn.impl.handle remote
            | none => (.ok (), h)
          | (none, h) => (.ok (), h)
        | _ => (.error .badVariantAccess, h)
    else (.ok (), h)

/-- `server_t::proceed`, on the events that its poll returns.  A poll that reports the listening socket
reports it once in a batch, so that one answer of `accept4` is enough. -/
def proceed (h : Host proto) (new : Fd) (added : Bool) (events : List Event) :
    Except (List Exn) Bool × Host proto :=
  Endpoint.proceed (invoke user new added) h.server.handlers
    (h.server.unhandled.map fun func events h => h.call user (.unhandled func events)) events h

end

end Host

end TypedSockets.Endpoint
