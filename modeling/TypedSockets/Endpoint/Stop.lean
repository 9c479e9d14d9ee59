import TypedSockets.Endpoint.ServerRun

/-! `server_t::stop` from every state of a run.  It calls `m_erase_active_socket` without asking
whether it is set, and asks for the descriptor after it has replaced the socket. -/

namespace TypedSockets.Endpoint

open TypedSockets.Socket TypedSockets.Epoll TypedSockets.Lib

variable {proto : Proto} (pton : InetPton) (user : ServerUser)

/-- The descriptor that the `start` registered in the poll. -/
def Current.registered? (current : Current) : Option Fd :=
  if current.added then some current.fd else none

/-- The same process with a server just constructed. -/
def Host.fresh (h : Host proto) : Host proto := { h with server := h.server.fresh }

/-- The server is idle, its descriptor is closed, and the next `start` does what it does on a server
just constructed. -/
structure Stopped (s : Service proto) (h : Host proto) : Prop where
  idle : h.server.state.isIdle = true ∧ h.getFd = -1
  closed : ∀ current ∈ s.current, ¬h.kernel.Open current.fd
  restart : ∀ based args ans bound listened added,
    h.start pton based args ans bound listened added =
      h.fresh.start pton based args ans bound listened added
  restartConnectionless : ∀ connectionless address port onConn onClose ans bound added,
    h.startConnectionless pton connectionless address port onConn onClose ans bound added =
      h.fresh.startConnectionless pton connectionless address port onConn onClose ans bound added

namespace Service

/-- `stop` returns, with the server stopped. -/
def Stops (s : Service proto) : ServerCall → Prop
  | .stop => ∃ fd h, s.host.stop user = some (fd, h) ∧ Stopped pton s h
  | _ => True

/-- And `del_socket` gets the descriptor that the current `start` registered, or -1 when there is
none. -/
def StopWorks (s : Service proto) : ServerCall → Prop
  | .stop => ∃ fd h, s.host.stop user = some (fd, h) ∧ Stopped pton s h ∧
      fd = (s.current.bind Current.registered?).getD (-1)
  | _ => True

/-- A `start` is current, and its function for the end of a connection is not empty and returns. -/
def EraseReturns (s : Service proto) : ServerCall → Prop
  | .stop => ∃ current ∈ s.current, ∃ func ∈ current.erase,
      (user ((if proto.isConnectionless then Action.onClose func
        else .eraseActiveSocket func current.fd) :: s.host.trace)).1 = .ok ()
  | _ => True

/-- And the poll refused the descriptor of that `start`. -/
def EraseReturnsUnpolled (s : Service proto) : ServerCall → Prop
  | .stop => s.EraseReturns user .stop ∧ ∀ current ∈ s.current, current.added = false
  | _ => True

end Service

section

variable {pton} {user} {s : Service proto}

theorem wrapErase_eq_some {erase : Option Callback} {func : Callback} :
    wrapErase proto erase = some (some func) ↔ erase = some func := by
  unfold wrapErase
  split_ifs <;> simp

/-- What the current `start` left: its descriptor, which the kernel gave, and its functions. -/
structure Holds (s : Service proto) (current : Current) : Prop where
  fd : s.host.getFd = current.fd
  positive : 0 ≤ current.fd
  impl : ∃ family, s.host.server.state.impl? = some ⟨some current.fd, family⟩
  busy : s.host.server.state.isIdle = false
  erase : s.host.server.eraseActiveSocket = wrapErase proto current.erase

/-- The invariant of a run: the server is what its current `start` made of it, on a descriptor. -/
structure Sound (s : Service proto) : Prop where
  made : s.Made
  positive : ∀ current ∈ s.current, 0 ≤ current.fd

theorem Sound.holds (h : Sound s) {current : Current} (hcurrent : current ∈ s.current) :
    Holds s current := by
  have made := h.made
  unfold Service.Made at made
  rw [Option.mem_def.mp hcurrent] at made
  obtain ⟨state, hbusy, himpl, hserver⟩ := made
  have hstate : s.host.server.state = state := by rw [hserver]
  refine ⟨?_, h.positive current hcurrent, ⟨_, hstate ▸ himpl⟩, hstate ▸ hbusy, by rw [hserver]⟩
  rw [Host.getFd, hstate]
  simp [ServerState.getFd, himpl, SocketImpl.handle]

theorem callErase_ok_iff (h : Sound s) :
    (s.host.callErase user s.host.getFd).1 = .ok () ↔ s.EraseReturns user .stop := by
  unfold Service.EraseReturns Host.callErase
  cases hcurrent : s.current with
  | none =>
    have made := h.made
    unfold Service.Made at made
    rw [hcurrent] at made
    rw [made]
    simp [Server.fresh]
  | some current =>
    obtain ⟨hfd, -, -, -, herase⟩ := h.holds hcurrent
    rw [herase, hfd]
    cases hfunc : current.erase with
    | none => cases hproto : proto.isConnectionless <;> simp [wrapErase, hfunc, hproto]
    | some func =>
      rw [wrapErase_eq_some.mpr rfl]
      simp [hfunc, Host.call]

/-- `stop` closes the descriptor that the server holds. -/
theorem stop_closes {h h' : Host proto} {fd fd' : Fd} {family : Int}
    (hstop : h.stop user = some (fd, h')) (busy : h.server.state.isIdle = false)
    (himpl : h.server.state.impl? = some ⟨some fd', family⟩) : ¬h'.kernel.Open fd' := by
  unfold Host.stop at hstop
  have hsame := callErase_server user h h.getFd
  rcases hcall : h.callErase user h.getFd with ⟨e | ⟨⟨⟩⟩, h1⟩
  · simp [hcall] at hstop
  · rw [hcall] at hsame
    simp only [hcall, Option.some.injEq, Prod.mk.injEq] at hstop
    obtain ⟨-, rfl⟩ := hstop
    have hserver : h1.server = h.server := hsame
    have hassign : h1.server.state.assign h1.kernel (.idle none) = h1.kernel.close fd' := by
      rw [hserver]
      have hdestroy : h.server.state.destroy h1.kernel = h1.kernel.close fd' := by
        simp [ServerState.destroy, himpl, SocketImpl.destroy, SocketImpl.empty, SocketImpl.close]
      rw [← hdestroy]
      cases hstate : h.server.state with
      | idle sock =>
        rw [hstate] at busy
        cases busy
      | _ => rfl
    simp [Host.setState, Host.delSocket, Host.unregisterCbs, hassign]

/-- Where `stop` returns, everything but the poll is as it should be. -/
theorem stop_stopped (h : Sound s) {fd : Fd} {h' : Host proto}
    (hstop : s.host.stop user = some (fd, h')) : Stopped pton s h' := by
  have hnext : s.next pton user .stop = some ⟨h', none⟩ := by simp [Service.next, hstop]
  have hfresh : h'.server = h'.server.fresh := made_next h.made hnext
  have hsame : h'.fresh = h' := by rw [Host.fresh, ← hfresh]
  refine ⟨?_, fun current hcurrent => ?_, ?_, ?_⟩
  · rw [Host.getFd, hfresh]
    exact ⟨rfl, rfl⟩
  · obtain ⟨-, -, ⟨family, himpl⟩, hbusy, -⟩ := h.holds hcurrent
    exact stop_closes hstop hbusy himpl
  · intros
    rw [hsame]
  · intros
    rw [hsame]

theorem stops_iff (h : Sound s) (op : ServerCall) :
    s.Stops pton user op ↔ s.EraseReturns user op := by
  cases op with
  | stop =>
    rw [← callErase_ok_iff h]
    constructor
    · rintro ⟨fd, h', hstop, -⟩
      exact (stop_server hstop).2.1
    · intro hok
      have hreturns : (s.host.stop user).isSome := by
        unfold Host.stop
        rcases hcall : s.host.callErase user s.host.getFd with ⟨e | ⟨⟨⟩⟩, h1⟩
        · rw [hcall] at hok
          cases hok
        · rfl
      obtain ⟨⟨fd, h'⟩, hstop⟩ := Option.isSome_iff_exists.mp hreturns
      exact ⟨fd, h', hstop, stop_stopped h hstop⟩
  | _ => exact Iff.rfl

/-- `del_socket` gets -1, which no `start` registers. -/
theorem stopWorks_iff (h : Sound s) (op : ServerCall) :
    s.StopWorks pton user op ↔ s.EraseReturnsUnpolled user op := by
  cases op with
  | stop =>
    have hunpolled : -1 = (s.current.bind Current.registered?).getD (-1) ↔
        ∀ current ∈ s.current, current.added = false := by
      cases hcurrent : s.current with
      | none => simp
      | some current =>
        have hpositive := h.positive current hcurrent
        cases hadded : current.added with
        | false => simp [Current.registered?, hadded]
        | true =>
          simp only [Option.bind_some, Current.registered?, hadded, if_true, Option.getD_some]
          refine iff_of_false (fun hfd => ?_) (by simp [hadded])
          rw [← hfd] at hpositive
          exact absurd hpositive (by decide)
    have hstops : s.EraseReturns user .stop ↔ s.Stops pton user .stop := (stops_iff h .stop).symm
    rw [Service.EraseReturnsUnpolled, ← hunpolled, hstops]
    constructor
    · rintro ⟨fd, h', hstop, hstopped, hfd⟩
      obtain ⟨rfl, -, -⟩ := stop_server hstop
      exact ⟨⟨-1, h', hstop, hstopped⟩, hfd⟩
    · rintro ⟨⟨fd, h', hstop, hstopped⟩, hfd⟩
      obtain ⟨rfl, -, -⟩ := stop_server hstop
      exact ⟨-1, h', hstop, hstopped, hfd⟩
  | _ => exact Iff.rfl

/-! ### Runs -/

theorem createListener_positive {af : Int} {local_ : InAddressPort} {maxConns : UInt32}
    {ans : Except Errno Fd} {bound listened : Answer} {k k' : Kernel} {listener : ListeningSocket}
    (h : Host.createListener proto af local_ maxConns ans bound listened k = (some listener, k')) :
    0 ≤ listener.impl.handle := by
  unfold Host.createListener at h
  rcases hcreate : SocketT.create proto af ans k with ⟨_ | sock, k1⟩
  · simp [hcreate] at h
  · obtain ⟨fd, -, hpos, -, rfl⟩ := SocketT.create_eq proto af (congrArg Prod.fst hcreate)
    rw [hcreate] at h
    simp only at h
    rcases hbind : (⟨⟨some fd, af⟩⟩ : SocketT).bind local_ bound k1 with ⟨_ | binded, left, k2⟩
    · simp [hbind] at h
    · rw [hbind] at h
      have hbinded := SocketT.bind_impl (Option.mem_def.mpr (congrArg Prod.fst hbind))
      have hlistener := BindedSocket.listen_impl (Option.mem_def.mpr (congrArg Prod.fst h))
      rw [hlistener, hbinded]
      exact hpos

theorem createActive_positive {af : Int} {local_ : InAddressPort} {ans : Except Errno Fd}
    {bound : Answer} {k k' : Kernel} {active : ActiveSocket}
    (h : Host.createActive proto af local_ ans bound k = (some active, k')) :
    0 ≤ active.impl.handle := by
  unfold Host.createActive at h
  rcases hcreate : SocketT.create proto af ans k with ⟨_ | sock, k1⟩
  · simp [hcreate] at h
  · obtain ⟨fd, -, hpos, -, rfl⟩ := SocketT.create_eq proto af (congrArg Prod.fst hcreate)
    rw [hcreate] at h
    rw [SocketT.bindConnectionless_impl (Option.mem_def.mpr (congrArg Prod.fst h))]
    exact hpos

theorem start_positive {h : Host proto} {based : proto.isConnectionless = false}
    {args : ServerArgs} {ans : Except Errno Fd} {bound listened : Answer} {added : Bool}
    (started : (h.start pton based args ans bound listened added).1 = true) :
    0 ≤ (h.start pton based args ans bound listened added).2.getFd := by
  unfold Host.start at started ⊢
  split_ifs at started ⊢ with hidle
  · cases hparse : fromStringAndPort pton args.address args.port with
    | none => simp [hparse] at started
    | some addr =>
      simp only [hparse] at started ⊢
      rcases hcreate : Host.createListener proto h.server.af addr args.maxConns ans bound listened
        h.kernel with ⟨_ | listener, k⟩
      · simp [hcreate] at started
      · exact createListener_positive hcreate

theorem startConnectionless_positive {h : Host proto}
    {connectionless : proto.isConnectionless = true} {address : List UInt8} {port : UInt64}
    {onConn onClose : Option Callback} {ans : Except Errno Fd} {bound : Answer} {added : Bool}
    (started : (h.startConnectionless pton connectionless address port onConn onClose ans bound
      added).1 = true) :
    0 ≤ (h.startConnectionless pton connectionless address port onConn onClose ans bound
      added).2.getFd := by
  unfold Host.startConnectionless at started ⊢
  split_ifs at started ⊢ with hidle
  · cases hparse : fromStringAndPort pton address port with
    | none => simp [hparse] at started
    | some addr =>
      simp only [hparse] at started ⊢
      rcases hcreate : Host.createActive proto h.server.af addr ans bound h.kernel with
        ⟨_ | active, k⟩
      · simp [hcreate] at started
      · exact createActive_positive hcreate

theorem sound_next (h : Sound s) {op : ServerCall} {s' : Service proto}
    (hstep : s.next pton user op = some s') : Sound s' := by
  refine ⟨made_next h.made hstep, ?_⟩
  have started {h' : Host proto} {b added : Bool} {onConn erase : Option Callback}
      (hfd : b = true → 0 ≤ h'.getFd) :
      ∀ current ∈ (s.started h' b added onConn erase).current, 0 ≤ current.fd := by
    cases b with
    | true =>
      rintro current ⟨⟩
      exact hfd rfl
    | false => exact h.positive
  cases op with
  | start args ans bound listened added =>
    by_cases based : proto.isConnectionless = false
    · simp only [Service.next, dif_pos based, Option.some.injEq] at hstep
      rw [← hstep]
      exact started start_positive
    · simp [Service.next, based] at hstep
  | startConnectionless address port onConn onClose ans bound added =>
    by_cases connectionless : proto.isConnectionless = true
    · simp only [Service.next, dif_pos connectionless, Option.some.injEq] at hstep
      rw [← hstep]
      exact started startConnectionless_positive
    · simp [Service.next, connectionless] at hstep
  | stop =>
    obtain ⟨out, -, rfl⟩ := Option.map_eq_some_iff.mp hstep
    intro current hcurrent
    cases hcurrent
  | destroy => cases hstep
  | _ =>
    cases hstep
    exact h.positive

end

/-- In every run of a server each `stop` works exactly when a `start` is current whose function for
the end of a connection is set and returns, and whose descriptor the poll refused.  But for the
descriptor that `del_socket` gets, it works wherever that function is set and returns. -/
theorem stop_run (af : Int) (unhandled : Option Callback) (ops : List ServerCall) :
    let initial : Service proto := Service.initial af unhandled
    (Along (Service.next pton user) (Service.StopWorks pton user) initial ops ↔
      Along (Service.next pton user) (Service.EraseReturnsUnpolled user) initial ops) ∧
    (Along (Service.next pton user) (Service.Stops pton user) initial ops ↔
      Along (Service.next pton user) (Service.EraseReturns user) initial ops) := by
  intro initial
  have start : Sound initial :=
    ⟨made_initial af unhandled, fun current hcurrent => by cases hcurrent⟩
  exact ⟨along_iff (fun _ op h => stopWorks_iff h op) (fun _ _ _ h _ hstep => sound_next h hstep)
      start ops,
    along_iff (fun _ op h => stops_iff h op) (fun _ _ _ h _ hstep => sound_next h hstep) start ops⟩

/-- A server that is started and stopped. -/
def startedThenStopped : List ServerCall :=
  [.start ⟨[49, 50, 55, 46, 48, 46, 48, 46, 49], 80, 1, some 0, some 1⟩ (.ok 3) (.ok ()) (.ok ())
    true, .stop]

/-- `del_socket` gets -1 and not 3. -/
theorem startedThenStopped_fails :
    ¬Along (Service.next loopbackPton Host.silent) (Service.StopWorks loopbackPton Host.silent)
      (Service.initial 2 none : Service tcp) startedThenStopped := by
  intro h
  obtain ⟨fd, h', hstop, -, hfd⟩ := (h.2 _ rfl).1
  obtain ⟨rfl, -, -⟩ := stop_server hstop
  exact absurd hfd (by decide)

end TypedSockets.Endpoint
