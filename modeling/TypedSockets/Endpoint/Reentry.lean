import TypedSockets.Endpoint.EraseOnce
import TypedSockets.Endpoint.Locking
import TypedSockets.Endpoint.Reconnect
import TypedSockets.Endpoint.Restart
import TypedSockets.Endpoint.ServerRun

/-! One thread, whose callbacks call the endpoint back.  A handler calls them with the mutex of the
endpoint locked, in a loop that shares the mutex of the observer. -/

namespace TypedSockets.Endpoint

open TypedSockets.Socket TypedSockets.Epoll TypedSockets.Lib

variable {proto : Proto}

/-! ### The mutexes of the thread -/

/-- The mutexes as the thread holds them, which is the only one. -/
structure Held where
  endpoint : Mutex Unit
  observer : SharedMutex Unit

namespace Held

def free : Held := ⟨none, .free⟩

def lockEndpoint (held : Held) : Option Held :=
  (held.endpoint.lock ()).map fun m => { held with endpoint := m }

def lockObserver (held : Held) : Option Held :=
  (held.observer.lock ()).map fun m => { held with observer := m }

def shareObserver (held : Held) : Option Held :=
  (held.observer.lockShared ()).map fun m => { held with observer := m }

/-- Calls of `add` and `remove`, each of which locks the mutex of the observer. -/
def observe (held : Held) : List ObserverCall → Tries Unit
  | [] => pure ()
  | _ :: calls => do
    scope held.lockObserver () fun _ => pure ()
    held.observe calls

theorem lockEndpoint_held {held : Held} (h : held.endpoint.isSome) : held.lockEndpoint = none := by
  obtain ⟨⟨⟩, hheld⟩ := Option.isSome_iff_exists.mp h
  simp [lockEndpoint, Mutex.lock, hheld]

theorem lockEndpoint_free {held : Held} (h : held.endpoint = none) :
    held.lockEndpoint = some { held with endpoint := some () } := by
  simp [lockEndpoint, Mutex.lock, h]

/-- A thread that does not hold the mutex of the observer may call it. -/
theorem observe_free {held : Held} (h : held.observer = .free) (calls : List ObserverCall) :
    held.observe calls = pure () := by
  have hlock : held.lockObserver = some { held with observer := ⟨some (), ∅⟩ } := by
    simp [lockObserver, h, SharedMutex.lock, SharedMutex.free]
  induction calls with
  | nil => rfl
  | cons call calls ih =>
    rw [observe, hlock, scope_some, pure_bind]
    exact ih

end Held

/-! ### What the functions that were called do -/

/-- The sum of `f` over the entries that a log, latest first, gained since it had `m` of them, each
with those before it. -/
def gained {I : Type} (f : List I → Nat) (m : Nat) : List I → Nat
  | [] => 0
  | i :: log => (if m ≤ log.length then f (i :: log) else 0) + gained f m log

section

variable {I : Type} (f : List I → Nat)

theorem gained_old {m : Nat} {log : List I} (h : log.length ≤ m) : gained f m log = 0 := by
  induction log with
  | nil => rfl
  | cons i log ih =>
    have hlength : log.length + 1 ≤ m := h
    rw [gained, if_neg (by omega), ih (by omega)]

theorem gained_cons {m : Nat} {i : I} {log : List I} (h : m ≤ log.length) :
    gained f m (i :: log) = gained f m log + f (i :: log) := by
  rw [gained, if_pos h, Nat.add_comm]

/-- How many of the operations that lock the last entry of the log makes the user call, when it is a
callback. -/
def lockingOps {I O R : Type} (callback : I → Bool) (locks : O → Bool) (user : List I → List O × R) :
    List I → Nat
  | [] => 0
  | i :: log => if callback i then (user (i :: log)).1.countP locks else 0

/-- A count that keeps up with the log. -/
structure Counts (m : Nat) (log : List I) (n : Nat) : Prop where
  older : m ≤ log.length
  count : n = gained f m log

variable {f} {m n : Nat} {log : List I}

theorem Counts.start (log : List I) : Counts f log.length log 0 :=
  ⟨le_rfl, (gained_old f le_rfl).symm⟩

theorem Counts.cons (h : Counts f m log n) (i : I) : Counts f m (i :: log) (n + f (i :: log)) :=
  ⟨h.older.trans (Nat.le_succ _), by rw [gained_cons f h.older, ← h.count]⟩

end

/-! ### A client -/

/-- A call of the client from one of its callbacks. -/
inductive PublicOp where
  | start (start : StartOp)
  | stop
  | connect (args : ConnectArgs) (ans : Answer) (dead : ConnectArgs)
  | send (data : List UInt8) (ans : Except Errno Nat)
  | recv (ans : Except Errno (List UInt8 × FilledAddr))
  | finishedSend
  | finishedRecv

/-- The calls that lock the mutex of the endpoint. -/
def PublicOp.locks : PublicOp → Bool
  | start _ => true
  | stop => true
  | _ => false

/-- What the last invocation does: its calls of the client, and whether it throws. -/
abbrev CallingUser := List Invocation → List PublicOp × Except Exn Unit

/-- A call of the client, or a batch of its poll. -/
inductive ClientCall where
  | call (op : PublicOp)
  | proceed (events : List Event)

namespace World

variable (pton : InetPton) (user : CallingUser) (c : ClientId)

def startOf (w : World proto) : StartOp → Bool × World proto
  | .plain ans added => w.start c ans added
  | .atLocal address port ans bound added => w.startLocal pton c address port ans bound added

/-- One call, with the mutexes that are locked.  `start` gets to `register_cbs` where it returns
true. -/
def callPublic (held : Held) (w : World proto) : PublicOp → Tries (World proto)
  | .start start =>
    scope held.lockEndpoint w fun held => do
      let (b, w) := w.startOf pton c start
      held.observe (if b then EndpointClass.client.registerCbs else [])
      pure w
  | .stop =>
    scope held.lockEndpoint w fun held => do
      held.observe EndpointClass.client.unregisterCbs
      pure (w.stop c)
  | .connect args ans dead => pure (w.connect pton c args ans dead).2
  | .send data ans => pure (w.send c data ans).2.2
  | .recv ans => pure (w.recv c ans).2
  | .finishedSend => pure w
  | .finishedRecv => pure w

/-- A function of the user is called. -/
def calledBack (held : Held) (inv : Invocation) (w : World proto) :
    Tries (Except Exn Unit × World proto) := do
  let (ops, r) := user (inv :: w.trace)
  let w ← ops.foldlM (callPublic pton c held) { w with trace := inv :: w.trace }
  pure (r, w)

/-- A handler: it locks the mutex of the endpoint. -/
def handle (held : Held) (func : ClientHandler) (fd : Fd) (w : World proto) :
    Tries (Except Exn Unit × World proto) :=
  scope held.lockEndpoint (.ok (), w) fun held => w.invokeBy (calledBack pton user c held) c func fd

def handleCounted (held : Held) (func : ClientHandler) (fd : Fd) (s : World proto × Nat) :
    Except Exn Unit × World proto × Nat :=
  let ((r, w), n) := (s.1.handle pton user c held func fd).run s.2
  (r, w, n)

/-- `m_unhandled`, which is called without a mutex and calls nothing back. -/
def callUnhandled (func : Callback) (events : List Event) (s : World proto × Nat) :
    Except Exn Unit × World proto × Nat :=
  let trace := .unhandled c func events :: s.1.trace
  ((user trace).2, { s.1 with trace }, s.2)

/-- `proceed`: its loop shares the mutex of the observer. -/
def proceedShared (held : Held) (w : World proto) (events : List Event) : Tries (World proto) :=
  scope held.shareObserver w fun held n =>
    (Endpoint.proceed (handleCounted pton user c held) (w.clients c).handlers
      ((w.clients c).unhandled.map (callUnhandled user c)) events (w, n)).2

/-- What the thread does in a call, with the number of its attempts. -/
def oneThread (w : World proto) : ClientCall → World proto × Nat
  | .call op => (w.callPublic pton c .free op).run 0
  | .proceed events => (w.proceedShared pton user c .free events).run 0

/-- A thread that tries to lock a mutex that it holds itself does not go on. -/
def threadNext (w : World proto) (call : ClientCall) : Option (World proto) :=
  let (w, tries) := w.oneThread pton user c call
  if tries = 0 then some w else none

/-- No operation tries to lock a mutex that the thread holds already. -/
def LocksFree (w : World proto) (call : ClientCall) : Prop := (w.oneThread pton user c call).2 = 0

end World

/-- The calls of `start` and `stop` that a callback makes. -/
abbrev clientLocks (user : CallingUser) : List Invocation → Nat :=
  lockingOps Invocation.isCallback PublicOp.locks user

/-- The callbacks that are called make no call of `start` or `stop`. -/
def World.CallsNoLock (pton : InetPton) (user : CallingUser) (c : ClientId) (w : World proto)
    (call : ClientCall) : Prop :=
  gained (clientLocks user) w.trace.length (w.oneThread pton user c call).1.trace = 0

section

variable {pton : InetPton} {user : CallingUser} {c : ClientId} {w : World proto} {held : Held}

variable (pton) (c) in
theorem callPublic_unlocked (held : Held) (w : World proto) {op : PublicOp} (h : op.locks = false) :
    ∃ w' : World proto, w.callPublic pton c held op = pure w' ∧ w'.trace = w.trace := by
  cases op with
  | start start => cases h
  | stop => cases h
  | connect args ans dead =>
    exact ⟨_, rfl, trace_act pton c w (.connect args ans dead) (by simp)⟩
  | send data ans =>
    refine ⟨_, rfl, ?_⟩
    unfold World.send
    split <;> rfl
  | recv ans =>
    refine ⟨_, rfl, ?_⟩
    unfold World.recv
    split <;> rfl
  | finishedSend => exact ⟨w, rfl, rfl⟩
  | finishedRecv => exact ⟨w, rfl, rfl⟩

variable (pton) (c) in
/-- With the mutex of the endpoint locked, `start` and `stop` try it again, and the other calls lock
nothing. -/
theorem callPublic_held (h : held.endpoint.isSome) (w : World proto) (op : PublicOp) (n : Nat) :
    ∃ w' : World proto, (w.callPublic pton c held op).run n =
      (w', n + if op.locks then 1 else 0) ∧ w'.trace = w.trace := by
  cases hlocks : op.locks with
  | false =>
    obtain ⟨w', hcall, htrace⟩ := callPublic_unlocked pton c held w hlocks
    exact ⟨w', by rw [hcall]; rfl, htrace⟩
  | true =>
    have hlock := Held.lockEndpoint_held h
    refine ⟨w, ?_, rfl⟩
    cases op with
    | start start =>
      rw [World.callPublic, hlock]
      rfl
    | stop =>
      rw [World.callPublic, hlock]
      rfl
    | _ => cases hlocks

variable (pton) (c) in
theorem callAll_held (h : held.endpoint.isSome) (ops : List PublicOp) (w : World proto) (n : Nat) :
    ∃ w' : World proto, (ops.foldlM (World.callPublic pton c held) w).run n =
      (w', n + ops.countP PublicOp.locks) ∧ w'.trace = w.trace := by
  induction ops generalizing w n with
  | nil => exact ⟨w, rfl, rfl⟩
  | cons op ops ih =>
    obtain ⟨w1, hop, htrace1⟩ := callPublic_held pton c h w op n
    obtain ⟨w2, hops, htrace2⟩ := ih w1 (n + if op.locks then 1 else 0)
    refine ⟨w2, ?_, htrace2.trans htrace1⟩
    rw [List.foldlM_cons, StateT.run_bind, hop]
    refine hops.trans ?_
    rw [List.countP_cons, Nat.add_assoc, Nat.add_comm (if op.locks = true then 1 else 0)]

variable (pton) (user) (c) in
/-- A function that is called tries the mutex once for each `start` and `stop` that it calls. -/
theorem calledBack_held (h : held.endpoint.isSome) (inv : Invocation) (w : World proto) (n : Nat) :
    ∃ w' : World proto, (w.calledBack pton user c held inv).run n =
      (((user (inv :: w.trace)).2, w'),
        n + (user (inv :: w.trace)).1.countP PublicOp.locks) ∧
      w'.trace = inv :: w.trace := by
  obtain ⟨w', hops, htrace⟩ := callAll_held pton c h (user (inv :: w.trace)).1
    { w with trace := inv :: w.trace } n
  refine ⟨w', ?_, htrace⟩
  unfold World.calledBack
  rw [StateT.run_bind, hops]
  rfl

variable (pton) (user) (c) in
/-- A handler keeps the count of the calls of `start` and `stop`. -/
theorem counts_handle (h : held.endpoint = none) {m : Nat} {s : World proto × Nat}
    (counts : Counts (clientLocks user) m s.1.trace s.2) (func : ClientHandler) (fd : Fd) :
    let s' := (World.handleCounted pton user c held func fd s).2
    Counts (clientLocks user) m s'.1.trace s'.2 := by
  obtain ⟨w, n⟩ := s
  unfold World.handleCounted World.handle
  simp only [Held.lockEndpoint_free h, scope_some]
  let held' : Held := { held with endpoint := some () }
  have hheld : held'.endpoint.isSome := rfl
  rcases World.invokeBy_cases (World.calledBack pton user c held') c func fd w with
    ⟨r, w', hinvoke, htrace⟩ | ⟨role, f, w', finish, hinvoke, hbefore, hfinish⟩
  · rw [hinvoke]
    change Counts _ m w'.trace n
    rwa [htrace]
  · obtain ⟨w1, hcall, hcalled⟩ := calledBack_held pton user c hheld
      (.callback c role f) w' n
    rw [hinvoke, StateT.run_map, hcall]
    let out : Except Exn Unit × World proto := ((user (.callback c role f :: w'.trace)).2, w1)
    have htrace : (finish out).trace = .callback c role f :: w.trace := by
      rw [hfinish, hcalled, hbefore]
    change Counts _ m (finish out).trace (n + _)
    rw [htrace, hbefore]
    exact counts.cons (.callback c role f)

variable (pton) (c) in
/-- Without a mutex no call tries one that the thread holds. -/
theorem callPublic_free (w : World proto) (op : PublicOp) :
    ∃ w' : World proto, w.callPublic pton c .free op = pure w' ∧ w'.trace = w.trace := by
  have lock : Held.free.lockEndpoint = some ⟨some (), .free⟩ := Held.lockEndpoint_free rfl
  have observe (calls : List ObserverCall) : (⟨some (), .free⟩ : Held).observe calls = pure () :=
    Held.observe_free rfl calls
  cases hlocks : op.locks with
  | false => exact callPublic_unlocked pton c .free w hlocks
  | true =>
    cases op with
    | start start =>
      refine ⟨(w.startOf pton c start).2, ?_, ?_⟩
      · rw [World.callPublic, lock, scope_some]
        simp only [observe]
        rfl
      · cases start with
        | plain ans added =>
          exact trace_act pton c w (.start ans added) (by simp)
        | atLocal address port ans bound added =>
          exact trace_act pton c w (.startLocal address port ans bound added)
            (by simp)
    | stop =>
      refine ⟨w.stop c, ?_, trace_act pton c w (.stop) (by simp)⟩
      rw [World.callPublic, lock, scope_some, observe]
      rfl
    | _ => cases hlocks

variable (pton) (user) (c) in
/-- The attempts of a call are the calls of `start` and `stop` of the callbacks that it calls. -/
theorem oneThread_tries (w : World proto) (call : ClientCall) :
    (w.oneThread pton user c call).2 =
      gained (clientLocks user) w.trace.length (w.oneThread pton user c call).1.trace := by
  cases call with
  | proceed events =>
    let Inv := fun s : World proto × Nat => Counts (clientLocks user) w.trace.length s.1.trace s.2
    have hall : Inv (w.oneThread pton user c (.proceed events)) := by
      refine proceed_induction Inv ?_ ?_ (Counts.start w.trace)
      · intro event _ s hs
        exact handleEvent_induction Inv
          (fun _ func _ _ hs => counts_handle pton user c rfl hs func event.fd) hs
      · intro func hfunc missed s hs
        obtain ⟨f, -, rfl⟩ := Option.mem_map.mp hfunc
        exact hs.cons (.unhandled c f missed)
    exact hall.count
  | call op =>
    obtain ⟨w', hcall, htrace⟩ := callPublic_free pton c w op
    have hrun : w.oneThread pton user c (.call op) = (w', 0) := congrArg (·.run 0) hcall
    rw [hrun, htrace]
    exact (Counts.start w.trace).count

/-- Where no callback calls the client, a batch does what it does to a client that is not called
back. -/
theorem oneThread_silent (user : UserCode) (w : World proto) (events : List Event) :
    (w.oneThread pton (fun trace => ([], user trace)) c (.proceed events)).1 =
      (w.proceed user c events).2 := by
  let silent : CallingUser := fun trace => ([], user trace)
  let shared : Held := ⟨none, ⟨none, {()}⟩⟩
  have agree (func : ClientHandler) (fd : Fd) (s : World proto × Nat) :
      World.invoke user c func fd s.1 = ((World.handleCounted pton silent c shared func fd s).1,
        (World.handleCounted pton silent c shared func fd s).2.1) := by
    have hinvoke := World.invokeBy_pure (m := Tries) user c func fd s.1
    have hcall : World.calledBack pton silent c ⟨some (), shared.observer⟩ =
        fun inv (w : World proto) => (pure (w.call user inv) : Tries _) := rfl
    unfold World.handleCounted World.handle
    have hlock : shared.lockEndpoint = some ⟨some (), shared.observer⟩ := Held.lockEndpoint_free rfl
    simp only [hlock, scope_some, hcall, hinvoke]
    rfl
  let batch := handleEvents (World.handleCounted pton silent c shared) (w.clients c).handlers events
    (w, 0)
  have hevents : handleEvents (World.invoke user c) (w.clients c).handlers events w =
      (batch.1, batch.2.1) :=
    handleEvents_map (World.handleCounted pton silent c shared) Prod.fst agree events (w, 0)
  have hbatch : w.oneThread pton silent c (.proceed events) =
      (Endpoint.proceed (World.handleCounted pton silent c shared) (w.clients c).handlers
        ((w.clients c).unhandled.map (World.callUnhandled silent c)) events (w, 0)).2 := rfl
  rw [hbatch, World.proceed, proceed_snd, proceed_snd, hevents]
  cases (w.clients c).unhandled with
  | none => rfl
  | some func =>
    simp only [Option.map_some, handleUnhandled_some]
    rfl

end

/-! ### A server -/

/-- A call of the server from one of its callbacks, or of an accepted socket. -/
inductive HostPublicOp where
  | start (args : ServerArgs) (ans : Except Errno Fd) (bound listened : Answer) (added : Bool)
  | startConnectionless (address : List UInt8) (port : UInt64) (onConn onClose : Option Callback)
      (ans : Except Errno Fd) (bound : Answer) (added : Bool)
  | stop
  | send (sock : ActiveSocket) (remote : InAddressPort) (data : List UInt8) (ans : Except Errno Nat)
  | recv (sock : ActiveSocket) (ans : Except Errno (List UInt8 × FilledAddr))
  | finishedSend
  | finishedRecv
  | drop (fd : Fd)

def HostPublicOp.locks : HostPublicOp → Bool
  | start _ _ _ _ _ => true
  | startConnectionless _ _ _ _ _ _ _ => true
  | stop => true
  | _ => false

/-- The actions that are calls of a callback. -/
def Action.isCallback : Action → Bool
  | .added _ _ => false
  | .unhandled _ _ => false
  | _ => true

/-- What the last action makes the user do: the calls of the server, and whether it throws. -/
abbrev CallingServerUser := List Action → List HostPublicOp × Except Exn Unit

/-- A call of the server, a batch of its poll, or a connection that comes in. -/
inductive HostCall where
  | call (op : HostPublicOp)
  | proceed (new : Fd) (added : Bool) (events : List Event)
  | arrive (peer : FilledAddr)

namespace Host

section

variable {m : Type → Type} [Monad m] (call : Action → Host proto → m (Except Exn Unit × Host proto))

/-- `m_on_conn` on an accepted socket. -/
def handOverBy (h : Host proto) (fd : Fd) (remote : InAddressPort) :
    m (Except Exn Unit × Host proto) :=
  let h := { h with held := fd :: h.held }
  match h.server.onConn with
  | some (some func) => call (.onConn func fd remote) h
  | _ => pure (.error .badFunctionCall, h.drop fd)

/-- `m_erase_active_socket(fd)`. -/
def callEraseBy (h : Host proto) (fd : Fd) : m (Except Exn Unit × Host proto) :=
  match h.server.eraseActiveSocket with
  | some (some func) =>
    call (if proto.isConnectionless then .onClose func else .eraseActiveSocket func fd) h
  | _ => pure (.error .badFunctionCall, h)

/-- A handler of the server. -/
def invokeBy (new : Fd) (added : Bool) (func : ServerHandler) (fd : Fd) (h : Host proto) :
    m (Except Exn Unit × Host proto) :=
  match func with
  | .erase => (h.delSocket fd).callEraseBy call fd
  | .readReady =>
    if fd = h.getFd then
      if proto.isConnectionless then
        match h.server.onConn with
        | some (some func) => call (.onMessage func) h
        | _ => pure (.error .badFunctionCall, h)
      else
        match h.server.state with
        | .listening _ sock =>
          match h.accept sock new with
          | (some conn, h) =>
            let h := h.addSocket conn.impl.handle .read added
            match conn.remote with
            | some remote => h.handOverBy call conn.impl.handle remote
            | none => pure (.ok (), h)
          | (none, h) => pure (.ok (), h)
        | _ => pure (.error .badVariantAccess, h)
    else pure (.ok (), h)

/-- Functions that call nothing back. -/
theorem invokeBy_pure (user : ServerUser) (new : Fd) (added : Bool) (func : ServerHandler) (fd : Fd)
    (h : Host proto) :
    invokeBy (fun action h => (pure (h.call user action) : m _)) new added func fd h =
      pure (h.invoke user new added func fd) := by
  have handOver (h : Host proto) (fd : Fd) (remote : InAddressPort) :
      handOverBy (fun action h => (pure (h.call user action) : m _)) h fd remote =
        pure (h.handOver user fd remote) := by
    unfold handOverBy Host.handOver
    rcases honConn : h.server.onConn with _ | _ | func <;> simp only [honConn]
  cases func with
  | erase =>
    unfold invokeBy invoke callEraseBy
    rcases herase : (h.delSocket fd).server.eraseActiveSocket with _ | _ | func <;>
      simp only [herase]
  | readReady =>
    unfold invokeBy invoke
    simp only [handOver]
    split_ifs
    · rcases honConn : h.server.onConn with _ | _ | func <;> simp only
    · cases hstate : h.server.state with
      | listening based sock =>
        simp only
        rcases haccept : h.accept sock new with ⟨_ | conn, h1⟩
        · simp only
        · simp only
          cases conn.remote <;> rfl
      | _ => rfl
    · rfl

end

/-- The rest of `stop`, after `m_erase_active_socket`. -/
def afterErase (h : Host proto) : Host proto :=
  let h := h.setState (.idle none)
  let h := (h.delSocket h.getFd).unregisterCbs
  { h with server := { h.server with onConn := none, eraseActiveSocket := none } }

variable (pton : InetPton) (user : CallingServerUser)

section

variable (call : Held → Action → Host proto → Tries (Except Exn Unit × Host proto))

/-- `stop`, and whether the process goes on. -/
def stopLocked (held : Held) (h : Host proto) : Tries (Bool × Host proto) :=
  scope held.lockEndpoint (true, h) fun held => do
    match ← h.callEraseBy (call held) h.getFd with
    | (.ok (), h) =>
      held.observe EndpointClass.server.unregisterCbs
      pure (true, h.afterErase)
    | (.error _, h) => pure (false, h)

/-- One call, with the mutexes that are locked.  `start` gets to `register_cbs` where it returns
true. -/
def callPublic (held : Held) (h : Host proto) : HostPublicOp → Tries (Bool × Host proto)
  | .start args ans bound listened added =>
    scope held.lockEndpoint (true, h) fun held =>
      if based : proto.isConnectionless = false then do
        let (b, h) := h.start pton based args ans bound listened added
        held.observe (if b then EndpointClass.server.registerCbs else [])
        pure (true, h)
      else pure (true, h)
  | .startConnectionless address port onConn onClose ans bound added =>
    scope held.lockEndpoint (true, h) fun held =>
      if connectionless : proto.isConnectionless = true then do
        let (b, h) := h.startConnectionless pton connectionless address port onConn onClose ans bound
          added
        held.observe (if b then EndpointClass.server.registerCbs else [])
        pure (true, h)
      else pure (true, h)
  | .stop => h.stopLocked call held
  | .send sock remote data ans =>
    pure (true, { h with kernel := (sock.send proto remote data ans h.kernel).2.2 })
  | .recv sock ans => pure (true, { h with kernel := (sock.receive proto ans h.kernel).2 })
  | .finishedSend => pure (true, h)
  | .finishedRecv => pure (true, h)
  | .drop fd => pure (true, h.drop fd)

end

/-- A function of the user is called.  `deeper` stands for a function that a call of this one would
call. -/
def calledBack (deeper : Held → Action → Host proto → Tries (Except Exn Unit × Host proto))
    (held : Held) (action : Action) (h : Host proto) : Tries (Except Exn Unit × Host proto) := do
  let (ops, r) := user (action :: h.trace)
  let h ← ops.foldlM (fun h op => Prod.snd <$> h.callPublic pton deeper held op)
    { h with trace := action :: h.trace }
  pure (r, h)

variable (deeper : Held → Action → Host proto → Tries (Except Exn Unit × Host proto))

/-- A handler: it locks the mutex of the endpoint. -/
def handle (held : Held) (new : Fd) (added : Bool) (func : ServerHandler) (fd : Fd) (h : Host proto) :
    Tries (Except Exn Unit × Host proto) :=
  scope held.lockEndpoint (.ok (), h) fun held =>
    h.invokeBy (calledBack pton user deeper held) new added func fd

def handleCounted (held : Held) (new : Fd) (added : Bool) (func : ServerHandler) (fd : Fd)
    (s : Host proto × Nat) : Except Exn Unit × Host proto × Nat :=
  let ((r, h), n) := (s.1.handle pton user deeper held new added func fd).run s.2
  (r, h, n)

/-- `m_unhandled`, which is called without a mutex and calls nothing back. -/
def callUnhandled (func : Callback) (events : List Event) (s : Host proto × Nat) :
    Except Exn Unit × Host proto × Nat :=
  let trace := .unhandled func events :: s.1.trace
  ((user trace).2, { s.1 with trace }, s.2)

/-- `proceed`: its loop shares the mutex of the observer. -/
def proceedShared (held : Held) (h : Host proto) (new : Fd) (added : Bool) (events : List Event) :
    Tries (Host proto) :=
  scope held.shareObserver h fun held n =>
    (Endpoint.proceed (handleCounted pton user deeper held new added) h.server.handlers
      (h.server.unhandled.map (callUnhandled user)) events (h, n)).2

/-- What the thread does in a call, whether the process goes on, and the number of its attempts. -/
def oneThread (h : Host proto) : HostCall → (Bool × Host proto) × Nat
  | .call op => (h.callPublic pton (calledBack pton user deeper) .free op).run 0
  | .proceed new added events =>
    let (h, tries) := (h.proceedShared pton user deeper .free new added events).run 0
    ((true, h), tries)
  | .arrive peer => ((true, { h with queue := h.queue ++ [peer], edge := true }), 0)

/-- A thread that tries to lock a mutex that it holds itself does not go on. -/
def threadNext (h : Host proto) (call : HostCall) : Option (Host proto) :=
  let ((goesOn, h), tries) := h.oneThread pton user deeper call
  if tries = 0 ∧ goesOn = true then some h else none

/-- No operation tries to lock a mutex that the thread holds already. -/
def LocksFree (h : Host proto) (call : HostCall) : Prop :=
  (h.oneThread pton user deeper call).2 = 0

/-- The calls of `start` and `stop` that a callback makes. -/
abbrev hostLocks (user : CallingServerUser) : List Action → Nat :=
  lockingOps Action.isCallback HostPublicOp.locks user

/-- The callbacks that are called make no call of `start` or `stop`. -/
def CallsNoLock (h : Host proto) (call : HostCall) : Prop :=
  gained (hostLocks user) h.trace.length (h.oneThread pton user deeper call).1.2.trace = 0

end Host

namespace Host

section

variable {pton : InetPton} {user : CallingServerUser} {held : Held} {h : Host proto}
  {deeper : Held → Action → Host proto → Tries (Except Exn Unit × Host proto)}

/-- Nothing but the poll took a part in it. -/
def Unasked (h h' : Host proto) : Prop :=
  h'.trace = h.trace ∨ ∃ fd op, h'.trace = .added fd op :: h.trace

variable (pton) (deeper) in
theorem callPublic_unlocked (held : Held) (h : Host proto) {op : HostPublicOp}
    (hlocks : op.locks = false) :
    ∃ h' : Host proto, h.callPublic pton deeper held op = pure (true, h') ∧ h'.trace = h.trace := by
  cases op with
  | drop fd => exact ⟨h.drop fd, rfl, Host.drop_trace h fd⟩
  | send sock remote data ans => exact ⟨_, rfl, rfl⟩
  | recv sock ans => exact ⟨_, rfl, rfl⟩
  | finishedSend => exact ⟨h, rfl, rfl⟩
  | finishedRecv => exact ⟨h, rfl, rfl⟩
  | _ => cases hlocks

variable (pton) (deeper) in
/-- With the mutex of the endpoint locked, `start` and `stop` try it again, and the other calls lock
nothing. -/
theorem callPublic_held (hheld : held.endpoint.isSome) (h : Host proto) (op : HostPublicOp)
    (n : Nat) :
    ∃ h' : Host proto, (h.callPublic pton deeper held op).run n =
      ((true, h'), n + if op.locks then 1 else 0) ∧ h'.trace = h.trace := by
  cases hlocks : op.locks with
  | false =>
    obtain ⟨h', hcall, htrace⟩ :=
      callPublic_unlocked pton deeper held h hlocks
    exact ⟨h', by rw [hcall]; rfl, htrace⟩
  | true =>
    have hlock := Held.lockEndpoint_held hheld
    refine ⟨h, ?_, rfl⟩
    cases op with
    | start args ans bound listened added =>
      rw [callPublic, hlock]
      rfl
    | startConnectionless address port onConn onClose ans bound added =>
      rw [callPublic, hlock]
      rfl
    | stop =>
      rw [callPublic, stopLocked, hlock]
      rfl
    | _ => cases hlocks

variable (pton) (deeper) in
theorem callAll_held (hheld : held.endpoint.isSome) (ops : List HostPublicOp) (h : Host proto)
    (n : Nat) :
    ∃ h' : Host proto,
      (ops.foldlM (fun (h : Host proto) op => Prod.snd <$> h.callPublic pton deeper held op)
        h).run n = (h', n + ops.countP HostPublicOp.locks) ∧ h'.trace = h.trace := by
  induction ops generalizing h n with
  | nil => exact ⟨h, rfl, rfl⟩
  | cons op ops ih =>
    obtain ⟨h1, hop, htrace1⟩ :=
      callPublic_held pton deeper hheld h op n
    obtain ⟨h2, hops, htrace2⟩ := ih h1 (n + if op.locks then 1 else 0)
    refine ⟨h2, ?_, htrace2.trans htrace1⟩
    rw [List.foldlM_cons, StateT.run_bind, StateT.run_map, hop]
    refine hops.trans ?_
    rw [List.countP_cons, Nat.add_assoc, Nat.add_comm (if op.locks = true then 1 else 0)]

variable (pton) (user) (deeper) in
/-- A function that is called tries the mutex once for each `start` and `stop` that it calls. -/
theorem calledBack_held (hheld : held.endpoint.isSome) (action : Action) (h : Host proto)
    (n : Nat) :
    ∃ h' : Host proto, (h.calledBack pton user deeper held action).run n =
      (((user (action :: h.trace)).2, h'),
        n + (user (action :: h.trace)).1.countP HostPublicOp.locks) ∧
      h'.trace = action :: h.trace := by
  obtain ⟨h', hops, htrace⟩ := callAll_held pton deeper hheld
    (user (action :: h.trace)).1 { h with trace := action :: h.trace } n
  refine ⟨h', ?_, htrace⟩
  unfold calledBack
  rw [StateT.run_bind, hops]
  rfl

/-- The count goes on over what nobody was asked for. -/
theorem Unasked.counts {m n : Nat} {h' : Host proto} (unasked : Unasked h h')
    (counts : Counts (hostLocks user) m h.trace n) : Counts (hostLocks user) m h'.trace n := by
  rcases unasked with htrace | ⟨fd, op, htrace⟩
  · rwa [htrace]
  · rw [htrace]
    exact counts.cons (.added fd op)

theorem callEraseBy_cases {m : Type → Type} [Monad m]
    (call : Action → Host proto → m (Except Exn Unit × Host proto)) (h : Host proto) (fd : Fd) :
    h.callEraseBy call fd = pure (.error .badFunctionCall, h) ∨
      ∃ action, h.callEraseBy call fd = call action h ∧ action.isCallback = true := by
  unfold callEraseBy
  split
  · exact Or.inr ⟨_, rfl, by split <;> rfl⟩
  · exact Or.inl rfl

/-- A handler calls nothing, or it calls a callback last. -/
theorem invokeBy_cases {m : Type → Type} [Monad m]
    (call : Action → Host proto → m (Except Exn Unit × Host proto)) (new : Fd) (added : Bool)
    (func : ServerHandler) (fd : Fd) (h : Host proto) :
    (∃ r h', h.invokeBy call new added func fd = pure (r, h') ∧ Unasked h h') ∨
      ∃ action h', h.invokeBy call new added func fd = call action h' ∧ Unasked h h' ∧
        action.isCallback = true := by
  unfold invokeBy
  cases func with
  | erase =>
    rcases callEraseBy_cases call (h.delSocket fd) fd with hcall | ⟨action, hcall, hcallback⟩
    · exact Or.inl ⟨_, _, hcall, Or.inl rfl⟩
    · exact Or.inr ⟨action, _, hcall, Or.inl rfl, hcallback⟩
  | readReady =>
    simp only
    split
    · split
      · split
        · exact Or.inr ⟨_, _, rfl, Or.inl rfl, rfl⟩
        · exact Or.inl ⟨_, _, rfl, Or.inl rfl⟩
      · split
        · rename_i sock _
          rcases accept_cases h sock new with
            ⟨conn, got, k, queue, haccept, -⟩ | ⟨k, queue, haccept, -⟩
          · rw [haccept]
            have hadded : Unasked h (({ h with kernel := k, queue := queue } : Host proto).addSocket
                conn.impl.handle .read added) := by
              cases added with
              | false => exact Or.inl rfl
              | true => exact Or.inr ⟨_, _, rfl⟩
            simp only
            split
            · unfold handOverBy
              simp only
              split
              · exact Or.inr ⟨_, _, rfl, hadded, rfl⟩
              · refine Or.inl ⟨_, _, rfl, ?_⟩
                unfold Unasked at hadded ⊢
                rwa [drop_trace]
            · exact Or.inl ⟨_, _, rfl, hadded⟩
          · rw [haccept]
            exact Or.inl ⟨_, _, rfl, Or.inl rfl⟩
        · exact Or.inl ⟨_, _, rfl, Or.inl rfl⟩
    · exact Or.inl ⟨_, _, rfl, Or.inl rfl⟩

variable (pton) (user) (deeper) in
/-- A handler keeps the count of the calls of `start` and `stop`. -/
theorem counts_handle (hheld : held.endpoint = none) (new : Fd) (added : Bool) {m : Nat}
    {s : Host proto × Nat} (counts : Counts (hostLocks user) m s.1.trace s.2) (func : ServerHandler)
    (fd : Fd) :
    let s' := (handleCounted pton user deeper held new added func fd s).2
    Counts (hostLocks user) m s'.1.trace s'.2 := by
  obtain ⟨h, n⟩ := s
  unfold handleCounted handle
  simp only [Held.lockEndpoint_free hheld, scope_some]
  let held' : Held := { held with endpoint := some () }
  have hheld' : held'.endpoint.isSome := rfl
  rcases invokeBy_cases (calledBack pton user deeper held') new added func fd h with
    ⟨r, h', hinvoke, unasked⟩ | ⟨action, h', hinvoke, unasked, hcallback⟩
  · rw [hinvoke]
    exact unasked.counts counts
  · obtain ⟨h1, hcall, hcalled⟩ := calledBack_held pton user deeper hheld' action h' n
    rw [hinvoke, hcall]
    change Counts _ m h1.trace (n + _)
    rw [hcalled]
    have hmore := (unasked.counts counts).cons action
    simp only [hostLocks, lockingOps, hcallback, if_true] at hmore
    exact hmore

/-- A `start` adds its socket to the poll, and calls nothing. -/
theorem start_unasked (based : proto.isConnectionless = false) (args : ServerArgs)
    (ans : Except Errno Fd) (bound listened : Answer) (added : Bool) :
    Unasked h (h.start pton based args ans bound listened added).2 := by
  unfold Host.start
  split
  · split
    · split
      · cases added with
        | false => exact Or.inl rfl
        | true => exact Or.inr ⟨_, _, rfl⟩
      · exact Or.inl rfl
    · exact Or.inl rfl
  · exact Or.inl rfl

theorem startConnectionless_unasked (connectionless : proto.isConnectionless = true)
    (address : List UInt8) (port : UInt64) (onConn onClose : Option Callback)
    (ans : Except Errno Fd) (bound : Answer) (added : Bool) :
    Unasked h (h.startConnectionless pton connectionless address port onConn onClose ans bound
      added).2 := by
  unfold Host.startConnectionless
  split
  · split
    · split
      · cases added with
        | false => exact Or.inl rfl
        | true => exact Or.inr ⟨_, _, rfl⟩
      · exact Or.inl rfl
    · exact Or.inl rfl
  · exact Or.inl rfl

/-- `stop` tries the mutex once for each `start` and `stop` that the function it calls calls. -/
theorem counts_stop (h : Host proto) :
    let out := (h.stopLocked (calledBack pton user deeper) .free).run 0
    Counts (hostLocks user) h.trace.length out.1.2.trace out.2 := by
  let held : Held := ⟨some (), .free⟩
  have hheld : held.endpoint.isSome := rfl
  have lock : Held.free.lockEndpoint = some held := Held.lockEndpoint_free rfl
  have observe (calls : List ObserverCall) : held.observe calls = pure () :=
    Held.observe_free rfl calls
  have finish (x : Tries (Except Exn Unit × Host proto)) (r : Except Exn Unit) (h1 : Host proto)
      (n : Nat) (hx : x.run 0 = ((r, h1), n)) : ∃ b h2, (do
        match ← x with
        | (.ok (), h) =>
          held.observe EndpointClass.server.unregisterCbs
          pure (true, h.afterErase)
        | (.error _, h) => pure (false, h) : Tries (Bool × Host proto)).run 0 = ((b, h2), n) ∧
          h2.trace = h1.trace := by
    rw [StateT.run_bind, hx]
    simp only [observe]
    rcases r with e | ⟨⟨⟩⟩
    · exact ⟨_, _, rfl, rfl⟩
    · exact ⟨_, _, rfl, rfl⟩
  have hstop : (h.stopLocked (calledBack pton user deeper) .free) = (do
      match ← h.callEraseBy (calledBack pton user deeper held) h.getFd with
      | (.ok (), h) =>
        held.observe EndpointClass.server.unregisterCbs
        pure (true, h.afterErase)
      | (.error _, h) => pure (false, h)) := by rw [stopLocked, lock, scope_some]
  rw [hstop]
  rcases callEraseBy_cases (calledBack pton user deeper held) h h.getFd with
    hcall | ⟨action, hcall, hcallback⟩
  · obtain ⟨b, h2, hrun, htrace⟩ := finish _ _ h 0 (congrArg (·.run 0) hcall)
    rw [hrun]
    change Counts _ h.trace.length h2.trace 0
    rw [htrace]
    exact Counts.start h.trace
  · obtain ⟨h1, hrun1, hcalled⟩ := calledBack_held pton user deeper hheld action h 0
    obtain ⟨b, h2, hrun, htrace⟩ := finish _ _ h1 _ ((congrArg (·.run 0) hcall).trans hrun1)
    rw [hrun]
    change Counts _ h.trace.length h2.trace _
    rw [htrace, hcalled]
    have hmore := (Counts.start (f := hostLocks user) h.trace).cons action
    simp only [hostLocks, lockingOps, hcallback, if_true] at hmore
    exact hmore

section

variable (pton) (user) (deeper)

/-- Both functions of that name call nothing, and lock the mutex of the observer after their own. -/
theorem counts_start (h : Host proto) (args : ServerArgs) (ans : Except Errno Fd)
    (bound listened : Answer) (added : Bool) :
    let out := h.oneThread pton user deeper (.call (.start args ans bound listened added))
    Counts (hostLocks user) h.trace.length out.1.2.trace out.2 := by
  have lock : Held.free.lockEndpoint = some ⟨some (), .free⟩ := Held.lockEndpoint_free rfl
  have observe (calls : List ObserverCall) : (⟨some (), .free⟩ : Held).observe calls = pure () :=
    Held.observe_free rfl calls
  by_cases based : proto.isConnectionless = false
  · have hrun : h.oneThread pton user deeper (.call (.start args ans bound listened added)) =
        ((true, (h.start pton based args ans bound listened added).2), 0) := by
      simp only [oneThread, callPublic, lock, scope_some, dif_pos based, observe]
      rfl
    rw [hrun]
    exact (start_unasked based args ans bound listened added).counts (Counts.start h.trace)
  · have hrun : h.oneThread pton user deeper (.call (.start args ans bound listened added)) =
        ((true, h), 0) := by
      simp only [oneThread, callPublic, lock, scope_some, dif_neg based]
      rfl
    rw [hrun]
    exact Counts.start h.trace

theorem counts_startConnectionless (h : Host proto) (address : List UInt8) (port : UInt64)
    (onConn onClose : Option Callback) (ans : Except Errno Fd) (bound : Answer) (added : Bool) :
    let out := h.oneThread pton user deeper
      (.call (.startConnectionless address port onConn onClose ans bound added))
    Counts (hostLocks user) h.trace.length out.1.2.trace out.2 := by
  have lock : Held.free.lockEndpoint = some ⟨some (), .free⟩ := Held.lockEndpoint_free rfl
  have observe (calls : List ObserverCall) : (⟨some (), .free⟩ : Held).observe calls = pure () :=
    Held.observe_free rfl calls
  by_cases connectionless : proto.isConnectionless = true
  · have hrun : h.oneThread pton user deeper
          (.call (.startConnectionless address port onConn onClose ans bound added)) =
        ((true, (h.startConnectionless pton connectionless address port onConn onClose ans bound
          added).2), 0) := by
      simp only [oneThread, callPublic, lock, scope_some, dif_pos connectionless, observe]
      rfl
    rw [hrun]
    exact (startConnectionless_unasked connectionless address port onConn onClose ans bound
      added).counts (Counts.start h.trace)
  · have hrun : h.oneThread pton user deeper
          (.call (.startConnectionless address port onConn onClose ans bound added)) =
        ((true, h), 0) := by
      simp only [oneThread, callPublic, lock, scope_some, dif_neg connectionless]
      rfl
    rw [hrun]
    exact Counts.start h.trace

theorem counts_proceed (h : Host proto) (new : Fd) (added : Bool) (events : List Event) :
    let out := h.oneThread pton user deeper (.proceed new added events)
    Counts (hostLocks user) h.trace.length out.1.2.trace out.2 := by
  let Inv := fun s : Host proto × Nat => Counts (hostLocks user) h.trace.length s.1.trace s.2
  have hall : Inv ((h.proceedShared pton user deeper .free new added events).run 0) := by
    refine proceed_induction Inv ?_ ?_ (Counts.start h.trace)
    · intro event _ s hs
      exact handleEvent_induction Inv
        (fun _ func _ _ hs => counts_handle pton user deeper rfl new added hs func event.fd) hs
    · intro func hfunc missed s hs
      obtain ⟨f, -, rfl⟩ := Option.mem_map.mp hfunc
      exact hs.cons (.unhandled f missed)
  exact hall

/-- The attempts of a call are the calls of `start` and `stop` of the callbacks that it calls. -/
theorem oneThread_tries (h : Host proto) (call : HostCall) :
    (h.oneThread pton user deeper call).2 =
      gained (hostLocks user) h.trace.length (h.oneThread pton user deeper call).1.2.trace := by
  cases call with
  | proceed new added events => exact (counts_proceed pton user deeper h new added events).count
  | arrive peer => exact (Counts.start h.trace).count
  | call op =>
    cases hlocks : op.locks with
    | false =>
      obtain ⟨h', hcall, htrace⟩ :=
        callPublic_unlocked pton (calledBack pton user deeper) .free h hlocks
      have hrun : h.oneThread pton user deeper (.call op) = ((true, h'), 0) :=
        congrArg (·.run 0) hcall
      rw [hrun, htrace]
      exact (Counts.start h.trace).count
    | true =>
      cases op with
      | stop => exact (counts_stop h).count
      | start args ans bound listened added =>
        exact (counts_start pton user deeper h args ans bound listened added).count
      | startConnectionless address port onConn onClose ans bound added =>
        exact (counts_startConnectionless pton user deeper h address port onConn onClose ans bound
          added).count
      | _ => cases hlocks

end

/-- A function of the user that destroys accepted sockets. -/
def dropping (user : ServerUser) : CallingServerUser :=
  fun trace => ((user trace).2.map .drop, (user trace).1)

variable (pton) (deeper) in
theorem calledBack_dropping (user : ServerUser) (held : Held) (action : Action) (h : Host proto) :
    h.calledBack pton (dropping user) deeper held action = pure (h.call user action) := by
  have drops (fds : List Fd) (h : Host proto) :
      (fds.map HostPublicOp.drop).foldlM
          (fun (h : Host proto) op => Prod.snd <$> h.callPublic pton deeper held op) h =
        (pure (fds.foldl Host.drop h) : Tries _) := by
    induction fds generalizing h with
    | nil => rfl
    | cons fd fds ih => exact ih (h.drop fd)
  unfold calledBack
  simp only [dropping, drops]
  rfl

/-- Where callbacks do no more than that, a batch does what it does to a server that is not called
back. -/
theorem oneThread_dropping (user : ServerUser)
    (keeps : ∀ func missed trace, (user (.unhandled func missed :: trace)).2 = []) (h : Host proto)
    (new : Fd) (added : Bool) (events : List Event) :
    (h.oneThread pton (dropping user) deeper (.proceed new added events)).1.2 =
      (h.proceed user new added events).2 := by
  let shared : Held := ⟨none, ⟨none, {()}⟩⟩
  have agree (func : ServerHandler) (fd : Fd) (s : Host proto × Nat) :
      Host.invoke user new added func fd s.1 =
        ((handleCounted pton (dropping user) deeper shared new added func fd s).1,
          (handleCounted pton (dropping user) deeper shared new added func fd s).2.1) := by
    have hinvoke := invokeBy_pure (m := Tries) user new added func fd s.1
    have hcall : calledBack pton (dropping user) deeper ⟨some (), shared.observer⟩ =
        fun action (h : Host proto) => (pure (h.call user action) : Tries _) :=
      funext₂ (calledBack_dropping pton deeper user _)
    unfold handleCounted handle
    have hlock : shared.lockEndpoint = some ⟨some (), shared.observer⟩ := Held.lockEndpoint_free rfl
    simp only [hlock, scope_some, hcall, hinvoke]
    rfl
  let batch := handleEvents (handleCounted pton (dropping user) deeper shared new added)
    h.server.handlers events (h, 0)
  have hevents : handleEvents (Host.invoke user new added) h.server.handlers events h =
      (batch.1, batch.2.1) :=
    handleEvents_map (handleCounted pton (dropping user) deeper shared new added) Prod.fst agree
      events (h, 0)
  have hbatch : (h.proceedShared pton (dropping user) deeper .free new added events).run 0 =
      (Endpoint.proceed (handleCounted pton (dropping user) deeper shared new added)
        h.server.handlers (h.server.unhandled.map (callUnhandled (dropping user))) events (h, 0)).2 :=
    rfl
  change ((h.proceedShared pton (dropping user) deeper .free new added events).run 0).1 = _
  rw [hbatch, Host.proceed, proceed_snd, proceed_snd, hevents]
  cases h.server.unhandled with
  | none => rfl
  | some func =>
    simp only [Option.map_some, handleUnhandled_some, Host.call, keeps]
    rfl

end

end Host

/-- In every run of one thread on a client, and on a server, no operation tries to lock a mutex that
the thread holds already, exactly when no callback that is called calls `start` or `stop`. -/
theorem reentry_run (pton : InetPton) (user : CallingUser) (c : ClientId) (af : ClientId → Int)
    (unhandled : ClientId → Option Callback) (calls : List ClientCall) (suser : CallingServerUser)
    (deeper : Held → Action → Host proto → Tries (Except Exn Unit × Host proto)) (saf : Int)
    (sunhandled : Option Callback) (scalls : List HostCall) :
    let client : World proto := .initial af unhandled
    let server : Host proto := .initial saf sunhandled
    (Along (World.threadNext pton user c) (World.LocksFree pton user c) client calls ↔
      Along (World.threadNext pton user c) (World.CallsNoLock pton user c) client calls) ∧
    (Along (Host.threadNext pton suser deeper) (Host.LocksFree pton suser deeper) server scalls ↔
      Along (Host.threadNext pton suser deeper) (Host.CallsNoLock pton suser deeper) server scalls) := by
  intro client server
  have agree (w : World proto) (call : ClientCall) :
      w.LocksFree pton user c call ↔ w.CallsNoLock pton user c call := by
    rw [World.LocksFree, oneThread_tries]
    rfl
  have sagree (h : Host proto) (call : HostCall) :
      h.LocksFree pton suser deeper call ↔ h.CallsNoLock pton suser deeper call := by
    rw [Host.LocksFree, Host.oneThread_tries]
    rfl
  exact ⟨along_congr agree client calls, along_congr sagree server scalls⟩

/-- `on_disconnect` calls `stop`. -/
def stopOnDisconnect : CallingUser
  | .callback _ .onDisconnect _ :: _ => ([.stop], .ok ())
  | _ => ([], .ok ())

/-- A connected client gets `HANGUP`. -/
def hangupStops : List ClientCall :=
  [.call (.start (.plain (.ok 3) true)),
    .call (.connect (loopbackArgs 80 1) (.ok ()) (loopbackArgs 80 1)), .proceed [⟨3, .hangup⟩]]

theorem hangupStops_deadlocks :
    ¬Along (World.threadNext loopbackPton stopOnDisconnect 0)
      (World.LocksFree loopbackPton stopOnDisconnect 0)
      (.initial (fun _ => 2) fun _ => none : World tcp) hangupStops := by
  intro h
  have htries := ((h.2 _ rfl).2 _ rfl).1
  exact absurd htries (by unfold World.LocksFree; decide)

end TypedSockets.Endpoint
