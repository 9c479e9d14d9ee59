import TypedSockets.Endpoint.Accept
import TypedSockets.Endpoint.FailedStart
import TypedSockets.Endpoint.Handlers

/-! `stop` and the destructor of `server_t`, and the runs of a server from its construction on.
What a server holds is what its current `start` made of it. -/

namespace TypedSockets.Endpoint

open TypedSockets.Socket TypedSockets.Epoll TypedSockets.Lib

variable {proto : Proto} (pton : InetPton) (user : ServerUser)

namespace Host

def unregisterCbs (h : Host proto) : Host proto :=
  { h with server := { h.server with
      handlers := uncbs.foldl (fun t tp => (t.remove tp).2) h.server.handlers } }

/-- `m_erase_active_socket(fd)`: what it throws, or the action and the host after it. -/
def callErase (h : Host proto) (fd : Fd) : Except Exn Unit × Host proto :=
  match h.server.eraseActiveSocket with
  | some (some func) =>
    h.call user (if proto.isConnectionless then .onClose func else .eraseActiveSocket func fd)
  | _ => (.error .badFunctionCall, h)

/-- `stop`, with the descriptor that `del_socket` gets.  It is `noexcept`: an exception of the
function that it calls first ends the process. -/
def stop (h : Host proto) : Option (Fd × Host proto) :=
  match h.callErase user h.getFd with
  | (.ok (), h) =>
    let h := h.setState (.idle none)
    let fd := h.getFd
    let h := (h.delSocket fd).unregisterCbs
    some (fd, { h with server := { h.server with onConn := none, eraseActiveSocket := none } })
  | (.error _, _) => none

/-- The body of the destructor, which is `noexcept` too. -/
def destroy (h : Host proto) : Option (Host proto) :=
  if h.server.eraseActiveSocket.isSome then
    match h.callErase user (-1) with
    | (.ok (), h) => some h.unregisterCbs
    | (.error _, _) => none
  else some h.unregisterCbs

end Host

/-- A call on a server, a connection that comes in, or an accepted socket that the user destroys. -/
inductive ServerCall where
  | start (args : ServerArgs) (ans : Except Errno Fd) (bound listened : Answer) (added : Bool)
  | startConnectionless (address : List UInt8) (port : UInt64) (onConn onClose : Option Callback)
      (ans : Except Errno Fd) (bound : Answer) (added : Bool)
  | stop
  | proceed (new : Fd) (added : Bool) (events : List Event)
  | arrive (peer : FilledAddr)
  | drop (fd : Fd)
  | destroy

/-- What a `start` that returned true stored: the functions of the user, the descriptor of the
socket, and whether the poll took it. -/
structure Current where
  fd : Fd
  added : Bool
  onConn : Option Callback
  erase : Option Callback
  deriving DecidableEq

/-- A server, and its current `start`: the last one that returned true, up to `stop`. -/
structure Service (proto : Proto) where
  host : Host proto
  current : Option Current

namespace Service

def initial (af : Int) (unhandled : Option Callback) : Service proto := ⟨.initial af unhandled, none⟩

/-- A `start` that returned `b`. -/
def started (s : Service proto) (h : Host proto) (b added : Bool) (onConn erase : Option Callback) :
    Service proto :=
  ⟨h, if b then some ⟨h.getFd, added, onConn, erase⟩ else s.current⟩

/-- One call.  There is one `start` for each kind of protocol, and nothing comes after the
destructor. -/
def next (s : Service proto) : ServerCall → Option (Service proto)
  | .start args ans bound listened added =>
    if based : proto.isConnectionless = false then
      let (b, h) := s.host.start pton based args ans bound listened added
      some (s.started h b added args.onConn args.eraseActiveSocket)
    else none
  | .startConnectionless address port onConn onClose ans bound added =>
    if connectionless : proto.isConnectionless = true then
      let (b, h) := s.host.startConnectionless pton connectionless address port onConn onClose ans
        bound added
      some (s.started h b added onConn onClose)
    else none
  | .stop => (s.host.stop user).map fun out => ⟨out.2, none⟩
  | .proceed new added events =>
    some { s with host := (s.host.proceed user new added events).2 }
  | .arrive peer => some { s with host := { s.host with queue := s.host.queue ++ [peer], edge := true } }
  | .drop fd => some { s with host := s.host.drop fd }
  | .destroy => none

end Service

/-! ### What a run keeps -/

/-- A server just constructed. -/
def Server.fresh (s : Server proto) : Server proto := { af := s.af, unhandled := s.unhandled }

/-- `m_erase_active_socket` after a `start`: of the connectionless protocols it is a lambda. -/
def wrapErase (proto : Proto) (erase : Option Callback) : Option (Option Callback) :=
  if proto.isConnectionless then some erase else erase.map some

/-- The server is what its current `start` made of it. -/
def Service.Made (s : Service proto) : Prop :=
  match s.current with
  | none => s.host.server = s.host.server.fresh
  | some current => ∃ state : ServerState proto,
      state.isIdle = false ∧ state.impl? = some ⟨some current.fd, s.host.server.af⟩ ∧
      s.host.server = { s.host.server.fresh with
        state
        handlers := Host.table
        onConn := some current.onConn
        eraseActiveSocket := wrapErase proto current.erase }

section

variable {pton} {user}

/-- Taking out what `register_cbs` put in leaves nothing. -/
theorem uncbs_table : Host.uncbs.foldl (fun t tp => (t.remove tp).2) Host.table = .empty := by
  have removed : ∀ cb ∈ Host.cbs, cb.1 ∈ Host.uncbs := by decide
  funext tp
  rw [Handlers.removeAll_apply]
  split_ifs with hremoved
  · rfl
  · refine Option.eq_none_iff_forall_ne_some.mpr fun func hfunc => ?_
    rcases Handlers.addAll_mem Host.cbs hfunc with hold | hnew
    · cases hold
    · exact hremoved (removed (tp, func) hnew)

variable (user) in
theorem callErase_server (h : Host proto) (fd : Fd) : (h.callErase user fd).2.server = h.server := by
  unfold Host.callErase
  split
  · exact Host.call_server user h _
  · rfl

theorem proceed_server (h : Host proto) (new : Fd) (added : Bool) (events : List Event) :
    (h.proceed user new added events).2.server = h.server := by
  refine proceed_induction (fun h' : Host proto => h'.server = h.server) ?_ ?_ rfl
  · intro event _ h1 hh1
    exact handleEvent_induction (fun h' : Host proto => h'.server = h.server)
      (fun _ func _ h2 hh2 => (Host.invoke_server user new added func event.fd h2).trans hh2) hh1
  · intro func hfunc missed h1 hh1
    obtain ⟨f, -, rfl⟩ := Option.mem_map.mp hfunc
    exact (Host.call_server user h1 _).trans hh1

/-- What `stop` leaves of the server, and the descriptor that `del_socket` gets. -/
theorem stop_server {h h' : Host proto} {fd : Fd} (hstop : h.stop user = some (fd, h')) :
    fd = -1 ∧ (h.callErase user h.getFd).1 = .ok () ∧
      h'.server = { h.server.fresh with
        handlers := Host.uncbs.foldl (fun t tp => (t.remove tp).2) h.server.handlers } := by
  unfold Host.stop at hstop
  have hsame := callErase_server user h h.getFd
  rcases hcall : h.callErase user h.getFd with ⟨e | ⟨⟨⟩⟩, h1⟩
  · simp [hcall] at hstop
  · simp only [hcall, Option.some.injEq, Prod.mk.injEq] at hstop
    rw [hcall] at hsame
    obtain ⟨rfl, rfl⟩ := hstop
    have hserver : h1.server = h.server := hsame
    refine ⟨rfl, rfl, ?_⟩
    simp [Host.setState, Host.delSocket, Host.unregisterCbs, Server.fresh, hserver]

variable {s : Service proto}

theorem createActive_active {af : Int} {local_ : InAddressPort} {ans : Except Errno Fd}
    {bound : Answer} {k k' : Kernel} {active : ActiveSocket}
    (h : Host.createActive proto af local_ ans bound k = (some active, k')) :
    ∃ fd, active.impl = ⟨some fd, af⟩ := by
  unfold Host.createActive at h
  rcases hcreate : SocketT.create proto af ans k with ⟨_ | sock, k1⟩
  · simp [hcreate] at h
  · rw [hcreate] at h
    obtain ⟨fd, hfd⟩ := SocketT.create_impl hcreate
    have himpl : active.impl = sock.impl :=
      SocketT.bindConnectionless_impl (Option.mem_def.mpr (congrArg Prod.fst h))
    exact ⟨fd, himpl.trans hfd⟩

theorem startConnectionless_server {h : Host proto} {connectionless : proto.isConnectionless = true}
    {address : List UInt8} {port : UInt64} {onConn onClose : Option Callback}
    {ans : Except Errno Fd} {bound : Answer} {added : Bool}
    (started : (h.startConnectionless pton connectionless address port onConn onClose ans bound
      added).1 = true) :
    h.server.state.isIdle = true ∧ ∃ active fd, active.impl = ⟨some fd, h.server.af⟩ ∧
      (h.startConnectionless pton connectionless address port onConn onClose ans bound
        added).2.server = { h.registerCbs.server with
          state := .active connectionless active
          onConn := some onConn
          eraseActiveSocket := some onClose } := by
  unfold Host.startConnectionless at started ⊢
  by_cases hidle : h.server.state.isIdle = true
  · simp only [hidle, ↓reduceIte] at started ⊢
    cases hparse : fromStringAndPort pton address port with
    | none => simp [hparse] at started
    | some addr =>
      simp only [hparse] at started ⊢
      rcases hcreate : Host.createActive proto h.server.af addr ans bound h.kernel with
        ⟨_ | active, k⟩
      · simp [hcreate] at started
      · obtain ⟨fd, himpl⟩ := createActive_active hcreate
        refine ⟨trivial, active, fd, himpl, ?_⟩
        simp only [Host.setState, Host.addSocket_server]
        rfl
  · simp [hidle] at started

theorem start_wasIdle {h : Host proto} {based : proto.isConnectionless = false}
    {args : ServerArgs} {ans : Except Errno Fd} {bound listened : Answer} {added : Bool}
    (started : (h.start pton based args ans bound listened added).1 = true) :
    h.server.state.isIdle = true := by
  by_contra hidle
  simp [Host.start, hidle] at started

/-- A `start` that returns true finds the server as it was constructed. -/
theorem Service.Made.idle (made : s.Made) (h : s.host.server.state.isIdle = true) :
    s.host.server = s.host.server.fresh ∧ s.current = none := by
  unfold Service.Made at made
  cases hcurrent : s.current with
  | none =>
    rw [hcurrent] at made
    exact ⟨made, rfl⟩
  | some current =>
    rw [hcurrent] at made
    obtain ⟨state, hidle, -, hserver⟩ := made
    rw [hserver, hidle] at h
    cases h

theorem Service.Made.congr (made : s.Made) {h : Host proto} (same : h.server = s.host.server) :
    ({ s with host := h } : Service proto).Made := by
  unfold Service.Made at made ⊢
  simp only [same]
  exact made

/-- A `start` that stored what it should, on a server as it was constructed. -/
theorem made_started {h : Host proto} {state : ServerState proto} {fd : Fd} {added : Bool}
    {onConn erase : Option Callback} (fresh : s.host.server = s.host.server.fresh)
    (hidle : state.isIdle = false) (himpl : state.impl? = some ⟨some fd, s.host.server.af⟩)
    (hserver : h.server = { s.host.registerCbs.server with
      state
      onConn := some onConn
      eraseActiveSocket := wrapErase proto erase }) :
    (s.started h true added onConn erase).Made := by
  have hfd : h.getFd = fd := by
    rw [Host.getFd, hserver]
    simp [ServerState.getFd, himpl, SocketImpl.handle]
  refine ⟨state, hidle, ?_, ?_⟩
  · simp only [Service.started, hserver, hfd]
    exact himpl
  · simp only [Service.started, hserver]
    rw [Host.registerCbs, fresh]
    rfl

theorem made_start (made : s.Made) (based : proto.isConnectionless = false) (args : ServerArgs)
    (ans : Except Errno Fd) (bound listened : Answer) (added : Bool) :
    let out := s.host.start pton based args ans bound listened added
    (s.started out.2 out.1 added args.onConn args.eraseActiveSocket).Made := by
  intro out
  cases hstarted : out.1 with
  | true =>
    obtain ⟨fresh, -⟩ := made.idle (start_wasIdle hstarted)
    obtain ⟨listener, fd, himpl, hserver⟩ := Host.start_server hstarted
    have hidle : (ServerState.listening based listener).isIdle = false := rfl
    refine made_started fresh hidle (congrArg some himpl) ?_
    rw [hserver, wrapErase, based]
    rfl
  | false =>
    have hsame := (Host.start_failed hstarted).1
    exact made.congr (by rw [hsame])

theorem made_startConnectionless (made : s.Made) (connectionless : proto.isConnectionless = true)
    (address : List UInt8) (port : UInt64) (onConn onClose : Option Callback)
    (ans : Except Errno Fd) (bound : Answer) (added : Bool) :
    let out := s.host.startConnectionless pton connectionless address port onConn onClose ans bound
      added
    (s.started out.2 out.1 added onConn onClose).Made := by
  intro out
  cases hstarted : out.1 with
  | true =>
    obtain ⟨hbefore, active, fd, himpl, hserver⟩ := startConnectionless_server hstarted
    obtain ⟨fresh, -⟩ := made.idle hbefore
    have hidle : (ServerState.active connectionless active).isIdle = false := rfl
    refine made_started fresh hidle (congrArg some himpl) ?_
    rw [hserver, wrapErase, connectionless]
    rfl
  | false =>
    have hsame := (Host.startConnectionless_failed hstarted).1
    exact made.congr (by rw [hsame])

/-- `stop` returns only where a `start` is current, and takes out what that one put in. -/
theorem made_stop (made : s.Made) {fd : Fd} {h : Host proto}
    (hstop : s.host.stop user = some (fd, h)) : (⟨h, none⟩ : Service proto).Made := by
  obtain ⟨-, hcalled, hserver⟩ := stop_server hstop
  unfold Service.Made at made ⊢
  simp only [hserver]
  cases hcurrent : s.current with
  | none =>
    rw [hcurrent] at made
    rw [Host.callErase, made] at hcalled
    cases hcalled
  | some current =>
    rw [hcurrent] at made
    obtain ⟨state, -, -, hmade⟩ := made
    rw [hmade]
    simp [Server.fresh, uncbs_table]

theorem made_next (made : s.Made) {op : ServerCall} {s' : Service proto}
    (hstep : s.next pton user op = some s') : s'.Made := by
  cases op with
  | start args ans bound listened added =>
    by_cases based : proto.isConnectionless = false
    · simp only [Service.next, dif_pos based, Option.some.injEq] at hstep
      subst hstep
      exact made_start made based args ans bound listened added
    · simp [Service.next, based] at hstep
  | startConnectionless address port onConn onClose ans bound added =>
    by_cases connectionless : proto.isConnectionless = true
    · simp only [Service.next, dif_pos connectionless, Option.some.injEq] at hstep
      subst hstep
      exact made_startConnectionless made connectionless address port onConn onClose ans bound added
    · simp [Service.next, connectionless] at hstep
  | stop =>
    obtain ⟨⟨fd, h⟩, hstop, rfl⟩ := Option.map_eq_some_iff.mp hstep
    exact made_stop made hstop
  | proceed new added events =>
    cases hstep
    exact made.congr (proceed_server s.host new added events)
  | arrive peer =>
    cases hstep
    exact made
  | drop fd =>
    cases hstep
    exact made.congr (Host.Untouched.drop s.host fd : Host.Untouched 0 _ _).server
  | destroy => cases hstep

theorem made_initial (af : Int) (unhandled : Option Callback) :
    (Service.initial af unhandled : Service proto).Made := rfl

end

end TypedSockets.Endpoint
