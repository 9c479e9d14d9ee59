import TypedSockets.Endpoint.Accept
import TypedSockets.Endpoint.Handlers
import TypedSockets.Socket.Leak
import TypedSockets.Socket.Past

/-! How often the end of an accepted connection is reported.  One handler is registered under four
types, and an event that carries several of them runs it once for each. -/

namespace TypedSockets.Endpoint

open TypedSockets.Socket TypedSockets.Epoll TypedSockets.Lib

variable {proto : Proto} (user : ServerUser)

namespace Host

/-- The calls of `m_erase_active_socket` with a descriptor. -/
def erasures (h : Host proto) (fd : Fd) : Nat :=
  h.trace.countP fun
    | .eraseActiveSocket _ fd' => fd' = fd
    | _ => false

/-- The descriptor of the connection that an event makes the server accept. -/
def acceptedBy (h : Host proto) (new : Fd) (event : Event) : Option Fd :=
  match h.server.state with
  | .listening _ sock =>
    if event.has .readReady ∧ event.fd = h.getFd then
      (h.accept sock new).1.map fun conn => conn.impl.handle
    else none
  | _ => none

end Host

/-- A server, and how often each descriptor was reported since it was accepted last. -/
structure Tally (proto : Proto) where
  host : Host proto
  reports : Fd → Option Nat

/-- A connection comes in, the user destroys an accepted socket, or `proceed` is called and its poll
returns `events`. -/
inductive ServerOp where
  | arrive (peer : FilledAddr)
  | drop (fd : Fd)
  | proceed (new : Fd) (added : Bool) (events : List Event)

namespace Tally

/-- One event of a batch. -/
def event (new : Fd) (added : Bool) (s : Tally proto) (event : Event) : Tally proto :=
  let h := s.host
  let h' := (handleEvent (Host.invoke user new added) h.server.handlers event h).2
  let reports := match h.acceptedBy new event with
    | some fd => Function.update s.reports fd (some 0)
    | none => s.reports
  ⟨h', fun fd => (reports fd).map fun n => n + (h'.erasures fd - h.erasures fd)⟩

def eventStep (new : Fd) (added : Bool) (s : Tally proto) (event : Event) : Option (Tally proto) :=
  some (s.event user new added event)

def next (s : Tally proto) : ServerOp → Option (Tally proto)
  | .arrive peer => some { s with host := { s.host with queue := s.host.queue ++ [peer], edge := true } }
  | .drop fd => some { s with host := s.host.drop fd }
  | .proceed new added events =>
    some ⟨(s.host.proceed user new added events).2,
      (events.foldl (Tally.event user new added) s).reports⟩

/-- No accepted connection was reported twice. -/
def Once (s : Tally proto) : Prop := ∀ fd n, s.reports fd = some n → n ≤ 1

/-- No event of a batch leads to a second report. -/
def ReportsOnce (s : Tally proto) : ServerOp → Prop
  | .proceed new added events => Always (eventStep user new added) Once s events
  | _ => True

/-- An event that ends an accepted connection is the first one, and it has one type that does so, or
the function that it is reported to throws. -/
def First (s : Tally proto) (event : Event) : Prop :=
  ∀ func n, s.host.server.eraseActiveSocket = some (some func) → s.reports event.fd = some n →
    event.terminates = true → n = 0 ∧
      ((EventType.terminations.filter event.has).length = 1 ∨
        (user (.eraseActiveSocket func event.fd :: s.host.trace)).1.isOk = false)

/-- Every event of a batch is the first one to end its connection. -/
def FirstReports (s : Tally proto) : ServerOp → Prop
  | .proceed new added events => Along (eventStep user new added) (First user) s events
  | _ => True

end Tally

/-! ### The calls of one event -/

section

variable {user} {new : Fd} {added : Bool} {h : Host proto}

namespace Host

theorem drop_trace (h : Host proto) (fd : Fd) : (h.drop fd).trace = h.trace := by
  unfold Host.drop
  split <;> rfl

theorem dropAll_trace (h : Host proto) (fds : List Fd) : (fds.foldl Host.drop h).trace = h.trace := by
  induction fds generalizing h with
  | nil => rfl
  | cons fd fds ih => exact (ih (h.drop fd)).trans (drop_trace h fd)

variable (user) in
theorem call_trace (h : Host proto) (action : Action) :
    (h.call user action).2.trace = action :: h.trace :=
  dropAll_trace _ _

theorem erasures_congr {h h' : Host proto} (same : h'.trace = h.trace) (fd : Fd) :
    h'.erasures fd = h.erasures fd := by
  rw [erasures, same]
  rfl

variable (user) in
theorem erasures_call (h : Host proto) (action : Action) (fd : Fd) :
    (h.call user action).2.erasures fd = h.erasures fd +
      if (match action with
        | .eraseActiveSocket _ fd' => decide (fd' = fd)
        | _ => false) then 1 else 0 := by
  rw [erasures, call_trace, List.countP_cons]
  rfl

/-- What an accept returns: a socket on a descriptor that was not open, or nothing. -/
theorem accept_cases (h : Host proto) (sock : ListeningSocket) (new : Fd) :
    (∃ conn fd k queue, h.accept sock new = (some conn, { h with kernel := k, queue := queue }) ∧
      conn.impl.fd = some fd ∧ ¬h.kernel.Open fd ∧ ∀ fd', h.kernel.Open fd' → k.Open fd') ∨
    ∃ k queue, h.accept sock new = (none, { h with kernel := k, queue := queue }) ∧
      k.fds = h.kernel.fds := by
  obtain ⟨ans, hans⟩ : ∃ ans, h.accept sock new = ((sock.accept ans h.kernel).1, { h with
      kernel := (sock.accept ans h.kernel).2
      queue := if (sock.accept ans h.kernel).1.isSome then h.queue.tail else h.queue }) := ⟨_, rfl⟩
  rw [hans]
  unfold ListeningSocket.accept
  rcases SocketImpl.accept_fds sock.impl ans h.kernel with
    ⟨fd, got, peer, remote, k, -, -, fresh, haccept, hfds⟩ | ⟨k, haccept, hfds⟩
  · rw [haccept]
    refine Or.inl ⟨_, got, k, _, rfl, rfl, fresh, fun fd' hopen => ?_⟩
    unfold Kernel.Open at hopen ⊢
    rw [hfds]
    by_cases heq : fd' = got
    · rw [heq, Function.update_self]
      rfl
    · rwa [Function.update_of_ne heq]
  · rw [haccept]
    exact Or.inr ⟨k, _, rfl, hfds⟩

/-- Handing a socket over reports nothing. -/
theorem erasures_handOver (h : Host proto) (fd : Fd) (remote : InAddressPort) (fd' : Fd) :
    (h.handOver user fd remote).2.erasures fd' = h.erasures fd' := by
  unfold Host.handOver
  simp only
  split
  · exact erasures_call user _ _ fd'
  · exact erasures_congr (drop_trace _ fd) fd'

theorem erasures_addSocket (h : Host proto) (fd : Fd) (op : SockOp) (added : Bool) (fd' : Fd) :
    (h.addSocket fd op added).erasures fd' = h.erasures fd' := by
  cases added <;> simp [Host.addSocket, Host.erasures]

/-- A handler reports only the descriptor of its event. -/
theorem erasures_invoke (func : ServerHandler) (fd : Fd) (h : Host proto) {fd' : Fd}
    (hne : fd' ≠ fd) : (h.invoke user new added func fd).2.erasures fd' = h.erasures fd' := by
  unfold Host.invoke
  cases func with
  | erase =>
    simp only
    split
    · rw [erasures_call]
      cases proto.isConnectionless <;> simp [Ne.symm hne, Host.erasures, Host.delSocket]
    · rfl
  | readReady =>
    simp only
    split_ifs
    · split
      · rw [erasures_call]
        simp
      · rfl
    · split
      · rename_i sock _
        rcases accept_cases h sock new with ⟨conn, got, k, queue, haccept, -⟩ | ⟨k, queue, haccept, -⟩
        · rw [haccept]
          simp only
          split
          · rw [erasures_handOver, erasures_addSocket]
            rfl
          · rw [erasures_addSocket]
            rfl
        · rw [haccept]
          rfl
      · rfl
    · rfl

variable (user new added) in
theorem invoke_erase (based : proto.isConnectionless = false) {func : Callback}
    (set : h.server.eraseActiveSocket = some (some func)) (fd : Fd) :
    h.invoke user new added .erase fd =
      (h.delSocket fd).call user (.eraseActiveSocket func fd) := by
  have hset : (h.delSocket fd).server.eraseActiveSocket = some (some func) := set
  simp only [Host.invoke, hset, based]
  rfl

theorem invoke_erase_unset (unset : ∀ func, h.server.eraseActiveSocket ≠ some (some func))
    (fd : Fd) : h.invoke user new added .erase fd = (.error .badFunctionCall, h.delSocket fd) := by
  unfold Host.invoke
  simp only
  split
  · rename_i func hset
    exact absurd hset (unset func)
  · rfl

variable (user new added) in
/-- The handlers that an event runs for one descriptor. -/
abbrev onFd (fd : Fd) (func : ServerHandler) (h : Host proto) : Except Exn Unit × Host proto :=
  h.invoke user new added func fd

/-- One run of the handler reports the descriptor once. -/
theorem erase_reports (based : proto.isConnectionless = false) {func : Callback}
    (set : h.server.eraseActiveSocket = some (some func)) {fd : Fd} {r : Except Exn Unit}
    {h' : Host proto} (hact : onFd user new added fd .erase h = (r, h')) :
    h'.erasures fd = h.erasures fd + 1 ∧ h'.server = h.server ∧
      r = (user (.eraseActiveSocket func fd :: h.trace)).1 := by
  have hone := invoke_erase user new added based set fd
  have hcalled : (h.delSocket fd).call user (.eraseActiveSocket func fd) = (r, h') :=
    hone.symm.trans hact
  have hcount := erasures_call user (h.delSocket fd) (.eraseActiveSocket func fd) fd
  have hserver := call_server user (h.delSocket fd) (.eraseActiveSocket func fd)
  rw [hcalled] at hcount hserver
  refine ⟨by simpa [Host.erasures, Host.delSocket] using hcount, hserver, ?_⟩
  exact (congrArg Prod.fst hcalled).symm

/-- Without a function of the user nothing is reported. -/
theorem erasures_attempt_unset (unset : ∀ func, h.server.eraseActiveSocket ≠ some (some func))
    (fd : Fd) (n : Nat) :
    (attempt (onFd user new added fd) (List.replicate n .erase) h).2.erasures fd = h.erasures fd := by
  cases n with
  | zero => rfl
  | succ n =>
    have hact : onFd user new added fd .erase h = (.error .badFunctionCall, h.delSocket fd) :=
      invoke_erase_unset unset fd
    rw [List.replicate_succ, attempt_error hact]
    rfl

variable (user new added) in
theorem erasures_attempt_lt (based : proto.isConnectionless = false) {func : Callback}
    (set : h.server.eraseActiveSocket = some (some func)) (fd : Fd) (n : Nat) :
    h.erasures fd <
      (attempt (onFd user new added fd) (List.replicate (n + 1) .erase) h).2.erasures fd := by
  induction n generalizing h with
  | zero =>
    rcases act_cases (onFd user new added fd) .erase h with ⟨h', hact⟩ | ⟨e, h', hact⟩
    · rw [List.replicate_one, attempt_ok hact, attempt_nil, (erase_reports based set hact).1]
      exact Nat.lt_succ_self _
    · rw [List.replicate_one, attempt_error hact, (erase_reports based set hact).1]
      exact Nat.lt_succ_self _
  | succ n ih =>
    rw [List.replicate_succ]
    rcases act_cases (onFd user new added fd) .erase h with ⟨h', hact⟩ | ⟨e, h', hact⟩
    · obtain ⟨hcount, hserver, -⟩ := erase_reports based set hact
      have hrest := ih (hserver ▸ set)
      rw [attempt_ok hact]
      omega
    · rw [attempt_error hact, (erase_reports based set hact).1]
      exact Nat.lt_succ_self _

variable (user new added) in
/-- The handler reports once when it runs once, or when the function of the user throws. -/
theorem erasures_attempt (based : proto.isConnectionless = false) {func : Callback}
    (set : h.server.eraseActiveSocket = some (some func)) (fd : Fd) (n : Nat) :
    (attempt (onFd user new added fd) (List.replicate (n + 1) .erase) h).2.erasures fd =
        h.erasures fd + 1 ↔
      n + 1 = 1 ∨ (user (.eraseActiveSocket func fd :: h.trace)).1.isOk = false := by
  rw [List.replicate_succ]
  rcases act_cases (onFd user new added fd) .erase h with ⟨h', hact⟩ | ⟨e, h', hact⟩
  · obtain ⟨hcount, hserver, hfirst⟩ := erase_reports based set hact
    rw [attempt_ok hact, ← hfirst]
    cases n with
    | zero => exact iff_of_true hcount (Or.inl rfl)
    | succ n =>
      have hrest := erasures_attempt_lt user new added based (h := h') (hserver ▸ set) fd n
      refine iff_of_false (by omega) ?_
      rintro (hn | hthrows)
      · omega
      · cases hthrows
  · obtain ⟨hcount, -, hfirst⟩ := erase_reports based set hact
    rw [attempt_error hact, ← hfirst]
    exact iff_of_true hcount (Or.inr rfl)

/-! ### The listening descriptor -/

/-- The descriptor is open, and the user cannot destroy its socket. -/
structure Kept (fd : Fd) (h : Host proto) : Prop where
  opened : h.kernel.Open fd
  kept : fd ∉ h.held

variable {fd : Fd}

theorem Kept.drop (kept : Kept fd h) (fd' : Fd) : Kept fd (h.drop fd') := by
  unfold Host.drop
  split_ifs with hmem
  · have hne : fd ≠ fd' := by
      rintro rfl
      exact kept.kept hmem
    exact ⟨(Kernel.open_close h.kernel fd' fd).mpr ⟨hne, kept.opened⟩,
      fun herase => kept.kept (List.mem_of_mem_erase herase)⟩
  · exact kept

theorem Kept.dropAll (kept : Kept fd h) (fds : List Fd) : Kept fd (fds.foldl Host.drop h) := by
  induction fds generalizing h with
  | nil => exact kept
  | cons fd' fds ih => exact ih (kept.drop fd')

variable (user) in
theorem Kept.call (kept : Kept fd h) (action : Action) : Kept fd (h.call user action).2 :=
  Kept.dropAll (h := { h with trace := action :: h.trace }) ⟨kept.opened, kept.kept⟩ _

variable (user) in
theorem Kept.handOver (kept : Kept fd h) {fd' : Fd} (hne : fd ≠ fd') (remote : InAddressPort) :
    Kept fd (h.handOver user fd' remote).2 := by
  have held : Kept fd { h with held := fd' :: h.held } :=
    ⟨kept.opened, List.not_mem_cons_of_ne_of_not_mem hne kept.kept⟩
  unfold Host.handOver
  simp only
  split
  · exact held.call user _
  · exact held.drop fd'

theorem Kept.addSocket (kept : Kept fd h) (fd' : Fd) (op : SockOp) (added : Bool) :
    Kept fd (h.addSocket fd' op added) := by
  cases added <;> exact ⟨kept.opened, kept.kept⟩

variable (user new added) in
theorem Kept.invoke (kept : Kept fd h) (func : ServerHandler) (fd' : Fd) :
    Kept fd (h.invoke user new added func fd').2 := by
  unfold Host.invoke
  cases func with
  | erase =>
    have del : Kept fd (h.delSocket fd') := ⟨kept.opened, kept.kept⟩
    simp only
    split
    · exact del.call user _
    · exact del
  | readReady =>
    simp only
    split_ifs
    · split
      · exact kept.call user _
      · exact kept
    · split
      · rename_i sock _
        rcases accept_cases h sock new with
          ⟨conn, got, k, queue, haccept, hfd, fresh, hopen⟩ | ⟨k, queue, haccept, hfds⟩
        · have hne : fd ≠ got := by
            rintro rfl
            exact fresh kept.opened
          have accepted : Kept fd { h with kernel := k, queue := queue } :=
            ⟨hopen fd kept.opened, kept.kept⟩
          have hadded := accepted.addSocket conn.impl.handle .read added
          rw [haccept]
          simp only
          split
          · refine hadded.handOver user ?_ _
            rwa [SocketImpl.handle, hfd]
          · exact hadded
        · rw [haccept]
          refine ⟨?_, kept.kept⟩
          rw [Kernel.Open, hfds]
          exact kept.opened
      · exact kept
    · exact kept

end Host

/-- A server that `start` left listening. -/
structure Serving (h : Host proto) : Prop where
  state : ∃ based sock, h.server.state = .listening based sock
  handlers : h.server.handlers = Host.table
  listener : Host.Kept h.getFd h

/-! ### One event -/

variable {e : Event}

namespace Host

variable (user new added) in
theorem event_server (e : Event) (h : Host proto) :
    (handleEvent (Host.invoke user new added) h.server.handlers e h).2.server = h.server :=
  handleEvent_induction (fun h' : Host proto => h'.server = h.server)
    (fun _ func _ h' hh' => (invoke_server user new added func e.fd h').trans hh') rfl

variable (user new added) in
theorem event_erasures_ne {fd : Fd} (hne : fd ≠ e.fd) (h : Host proto) :
    (handleEvent (Host.invoke user new added) h.server.handlers e h).2.erasures fd =
      h.erasures fd :=
  handleEvent_induction (fun h' : Host proto => h'.erasures fd = h.erasures fd)
    (fun _ func _ h' hh' => (erasures_invoke func e.fd h' hne).trans hh') rfl

end Host

variable (user new added) in
theorem Serving.event (serving : Serving h) (e : Event) :
    Serving (handleEvent (Host.invoke user new added) h.server.handlers e h).2 := by
  have hserver := Host.event_server user new added e h
  have kept : Host.Kept h.getFd
      (handleEvent (Host.invoke user new added) h.server.handlers e h).2 :=
    handleEvent_induction (Host.Kept h.getFd)
      (fun _ func _ h' hh' => hh'.invoke user new added func e.fd) serving.listener
  refine ⟨?_, ?_, ?_⟩
  · rw [hserver]
    exact serving.state
  · rw [hserver]
    exact serving.handlers
  · rwa [Host.getFd, hserver]

theorem Serving.accepted (serving : Serving h) {fd : Fd} (haccept : h.acceptedBy new e = some fd) :
    e.fd = h.getFd ∧ fd ≠ h.getFd := by
  obtain ⟨based, sock, hstate⟩ := serving.state
  unfold Host.acceptedBy at haccept
  simp only [hstate] at haccept
  split_ifs at haccept with hready
  refine ⟨hready.2, ?_⟩
  rcases Host.accept_cases h sock new with
    ⟨conn, got, k, queue, hconn, hfd, fresh, -⟩ | ⟨k, queue, hnone, -⟩
  · rw [hconn] at haccept
    have hgot : conn.impl.handle = fd := Option.some.inj haccept
    rw [SocketImpl.handle, hfd, Option.getD_some] at hgot
    rintro rfl
    rw [hgot] at fresh
    exact fresh serving.listener.opened
  · rw [hnone] at haccept
    cases haccept

/-- An event of another descriptor runs the handler once for each type that ends a connection. -/
theorem Serving.event_erases (serving : Serving h) (other : e.fd ≠ h.getFd) :
    (handleEvent (Host.invoke user new added) h.server.handlers e h).2 =
      (attempt (Host.onFd user new added e.fd)
        (List.replicate (EventType.terminations.filter e.has).length .erase) h).2 := by
  have hskip : Host.onFd user new added e.fd .readReady h = (.ok (), h) := by
    simp [Host.onFd, Host.invoke, other]
  rw [serving.handlers, handleEvent_attempt Host.table_over, Host.handlersOf_table, List.map_const']
  cases e.has .readReady with
  | false => rfl
  | true => exact congrArg Prod.snd (attempt_ok hskip _)

/-- A tally of a server that listens, in which no connection was reported twice. -/
structure Tallied (s : Tally proto) : Prop where
  serving : Serving s.host
  listener : s.reports s.host.getFd = none
  once : s.Once

variable {s : Tally proto}

variable (user new added) in
/-- The reports of the descriptor of an event that is not the listening one. -/
theorem event_reports (serving : Serving s.host) (other : e.fd ≠ s.host.getFd) :
    (s.event user new added e).reports e.fd = (s.reports e.fd).map fun n =>
      n + ((attempt (Host.onFd user new added e.fd)
        (List.replicate (EventType.terminations.filter e.has).length .erase) s.host).2.erasures e.fd -
          s.host.erasures e.fd) := by
  have hnone : s.host.acceptedBy new e = none := by
    by_contra hsome
    obtain ⟨fd, hfd⟩ := Option.ne_none_iff_exists'.mp hsome
    exact other (serving.accepted hfd).1
  simp only [Tally.event, hnone, serving.event_erases other]

/-- The reports of the other descriptors. -/
theorem event_reports_ne {fd : Fd} (hne : fd ≠ e.fd) :
    (s.event user new added e).reports fd =
      if s.host.acceptedBy new e = some fd then some 0 else s.reports fd := by
  have hsame := Host.event_erasures_ne user new added hne s.host
  simp only [Tally.event, hsame, Nat.sub_self, Nat.add_zero, Option.map_id']
  cases haccept : s.host.acceptedBy new e with
  | none => simp
  | some got =>
    by_cases hfd : fd = got
    · simp [hfd]
    · simp [hfd, Ne.symm hfd]

theorem Tallied.event_listener (tallied : Tallied s) (user : ServerUser) (new : Fd) (added : Bool)
    (e : Event) : (s.event user new added e).reports s.host.getFd = none := by
  simp only [Tally.event]
  cases haccept : s.host.acceptedBy new e with
  | none => simp [tallied.listener]
  | some got => simp [tallied.listener, Ne.symm (tallied.serving.accepted haccept).2]

theorem Tallied.event_other (tallied : Tallied s) {fd : Fd} (hne : fd ≠ e.fd) {n : Nat}
    (hn : (s.event user new added e).reports fd = some n) : n ≤ 1 := by
  rw [event_reports_ne hne] at hn
  split_ifs at hn
  · cases hn
    exact Nat.zero_le 1
  · exact tallied.once fd n hn

/-- No connection is reported twice after an event exactly when the event is the first one. -/
theorem once_event_iff (based : proto.isConnectionless = false) (tallied : Tallied s) (e : Event) :
    (s.event user new added e).Once ↔ s.First user e := by
  by_cases hown : e.fd = s.host.getFd
  · -- the listening descriptor is not an accepted one
    refine iff_of_true (fun fd n hn => ?_) fun func n _ hn => ?_
    · by_cases hfd : fd = e.fd
      · rw [hfd, hown, tallied.event_listener] at hn
        cases hn
      · exact tallied.event_other hfd hn
    · rw [hown, tallied.listener] at hn
      cases hn
  · have hreports := event_reports user new added tallied.serving hown
    constructor
    · intro hafter func n set hn hends
      have hone := hafter e.fd
      rw [hreports, hn] at hone
      have hle := hone _ rfl
      obtain ⟨k, hk⟩ : ∃ k, (EventType.terminations.filter e.has).length = k + 1 :=
        Nat.exists_eq_succ_of_ne_zero ((event_terminates_iff e).mp hends)
      rw [hk] at hle ⊢
      have hlt := Host.erasures_attempt_lt user new added based set e.fd k
      have hiff := Host.erasures_attempt user new added based set e.fd k
      simp only at hle
      exact ⟨by omega, hiff.mp (by omega)⟩
    · intro hfirst fd m hm
      by_cases hfd : fd = e.fd
      · rw [hfd, hreports] at hm
        obtain ⟨n, hn, rfl⟩ := Option.map_eq_some_iff.mp hm
        have hone := tallied.once e.fd n hn
        by_cases set : ∃ func, s.host.server.eraseActiveSocket = some (some func)
        · obtain ⟨func, set⟩ := set
          cases hk : (EventType.terminations.filter e.has).length with
          | zero => simpa using hone
          | succ k =>
            have hends : e.terminates = true := by
              rw [event_terminates_iff, hk]
              exact Nat.succ_ne_zero k
            obtain ⟨hzero, hsingle⟩ := hfirst func n set hn hends
            rw [hk] at hsingle
            rw [(Host.erasures_attempt user new added based set e.fd k).mpr hsingle]
            omega
        · rw [Host.erasures_attempt_unset (not_exists.mp set)]
          omega
      · exact tallied.event_other hfd hm

theorem Tallied.event (tallied : Tallied s) (based : proto.isConnectionless = false) {e : Event}
    (hfirst : s.First user e) : Tallied (s.event user new added e) := by
  have hserver : (s.event user new added e).host.server = s.host.server :=
    Host.event_server user new added e s.host
  refine ⟨tallied.serving.event user new added e, ?_, (once_event_iff based tallied e).mpr hfirst⟩
  rw [Host.getFd, hserver]
  exact tallied.event_listener user new added e

/-! ### Runs -/

variable (user new added) in
theorem foldl_host (events : List Event) (s : Tally proto) :
    (events.foldl (Tally.event user new added) s).host =
      (handleEvents (Host.invoke user new added) s.host.server.handlers events s.host).2 := by
  induction events generalizing s with
  | nil => rfl
  | cons e events ih =>
    have hserver : (s.event user new added e).host.server = s.host.server :=
      Host.event_server user new added e s.host
    rw [List.foldl_cons, ih, hserver]
    rfl

theorem reportsOnce_iff (based : proto.isConnectionless = false) (tallied : Tallied s)
    (op : ServerOp) : s.ReportsOnce user op ↔ s.FirstReports user op := by
  cases op with
  | proceed new added events =>
    refine always_iff (fun s (tallied : Tallied s) => tallied.once) (fun s e tallied => ?_)
      (fun s e s' tallied hfirst hstep => ?_) tallied events
    · simp only [Tally.eventStep, Option.some.injEq, forall_eq']
      exact once_event_iff based tallied e
    · cases hstep
      exact tallied.event based hfirst
  | _ => exact Iff.rfl

/-- A server that changed in nothing but what the poll and the user may change. -/
theorem Serving.congr (serving : Serving h) {h' : Host proto} (server : h'.server = h.server)
    (kept : Host.Kept h.getFd h') : Serving h' := by
  refine ⟨?_, ?_, ?_⟩
  · rw [server]
    exact serving.state
  · rw [server]
    exact serving.handlers
  · rwa [Host.getFd, server]

theorem tallied_proceed (based : proto.isConnectionless = false) (tallied : Tallied s)
    {events : List Event} (hfirst : s.FirstReports user (.proceed new added events)) :
    Tallied ⟨(s.host.proceed user new added events).2,
      (events.foldl (Tally.event user new added) s).reports⟩ := by
  have hfold : Tallied (events.foldl (Tally.event user new added) s) := by
    refine Always.last (Always.of_along (fun s e s' (tallied : Tallied s) hfirst hstep => ?_)
      tallied hfirst) (exec_some (Tally.event user new added) s events)
    cases hstep
    exact tallied.event based hfirst
  have hhost := foldl_host user new added events s
  unfold Host.proceed
  rw [proceed_snd, ← hhost]
  cases s.host.server.unhandled with
  | none => exact hfold
  | some func =>
    rw [Option.map_some, handleUnhandled_some]
    have hserver := Host.call_server user (events.foldl (Tally.event user new added) s).host
    refine ⟨hfold.serving.congr (hserver _) (hfold.serving.listener.call user _), ?_, hfold.once⟩
    rw [Host.getFd, hserver]
    exact hfold.listener

theorem tallied_next (based : proto.isConnectionless = false) (tallied : Tallied s) {op : ServerOp}
    (hfirst : s.FirstReports user op) {s' : Tally proto} (hstep : s.next user op = some s') :
    Tallied s' := by
  cases op with
  | arrive peer =>
    cases hstep
    exact ⟨⟨tallied.serving.state, tallied.serving.handlers,
      ⟨tallied.serving.listener.opened, tallied.serving.listener.kept⟩⟩, tallied.listener, tallied.once⟩
  | drop fd =>
    cases hstep
    have hserver : (s.host.drop fd).server = s.host.server :=
      (Host.Untouched.drop s.host fd : Host.Untouched 0 _ _).server
    refine ⟨tallied.serving.congr hserver (tallied.serving.listener.drop fd), ?_, tallied.once⟩
    rw [Host.getFd, hserver]
    exact tallied.listener
  | proceed new added events =>
    cases hstep
    exact tallied_proceed based tallied hfirst

end

/-- What a successful call leaves in its socket. -/
theorem left_none {k k' : Kernel} {old left : Option Fd} {fd : Fd}
    (passes : Passes k k' old (some fd) left) : left = none := by
  rcases passes.goes with ⟨-, hleft⟩ | ⟨hnone, -⟩
  · exact hleft
  · cases hnone

/-- The listening socket of `start` holds an open descriptor. -/
theorem createListener_open {af : Int} {local_ : InAddressPort} {maxConns : UInt32}
    {ans : Except Errno Fd} {bound listened : Answer} {k k' : Kernel} {listener : ListeningSocket}
    (h : Host.createListener proto af local_ maxConns ans bound listened k = (some listener, k')) :
    ∃ fd, listener.impl.fd = some fd ∧ k'.Open fd := by
  unfold Host.createListener at h
  split at h
  · rename_i sock k1 hcreate
    obtain ⟨fd, hfd⟩ := SocketT.create_impl hcreate
    have hopens := SocketT.create_opens proto af ans k
    rw [hcreate] at hopens
    have hopen1 : k1.Open fd := (hopens.opened fd).mpr (Or.inr (by rw [Option.bind_some, hfd]))
    split at h
    · rename_i binded left k2 hbind
      have hbinded : binded.impl.fd = some fd := by
        rw [SocketT.bind_impl (k := k1) (s := sock) (by rw [hbind]; rfl), hfd]
      have hbindPasses := sock.bind_passes local_ bound k1
      rw [hbind, Option.bind_some, hbinded] at hbindPasses
      have hopen2 : k2.Open fd := (hbindPasses.opened fd).mpr hopen1
      rcases hlisten : binded.listen maxConns listened k2 with ⟨r, leftBinded, k3⟩
      rw [hlisten] at h
      obtain ⟨rfl, rfl⟩ := Prod.mk.inj h
      have hlistener : listener.impl.fd = some fd := by
        rw [BindedSocket.listen_impl (k := k2) (s := binded) (by rw [hlisten]; rfl), hbinded]
      have hlistenPasses := binded.listen_passes maxConns listened k2
      rw [hlisten, Option.bind_some, hlistener] at hlistenPasses
      have hopen3 : k3.Open fd := (hlistenPasses.opened fd).mpr hopen2
      refine ⟨fd, hlistener, ?_⟩
      rw [SocketImpl.open_destroy, SocketImpl.open_destroy, left_none hbindPasses,
        left_none hlistenPasses]
      exact ⟨⟨hopen3, by simp⟩, by simp⟩
    · cases h
  · cases h

/-- A server just constructed serves once `start` returned true. -/
theorem serving_started {pton : InetPton} {af : Int} {unhandled : Option Callback}
    {based : proto.isConnectionless = false} {args : ServerArgs} {ans : Except Errno Fd}
    {bound listened : Answer} {added : Bool}
    (started : ((Host.initial af unhandled : Host proto).start pton based args ans bound listened
      added).1 = true) :
    Serving ((Host.initial af unhandled : Host proto).start pton based args ans bound listened
      added).2 := by
  unfold Host.start at started ⊢
  have hidle : (Host.initial af unhandled : Host proto).server.state.isIdle = true := rfl
  simp only [hidle, ↓reduceIte] at started ⊢
  cases haddress : fromStringAndPort pton args.address args.port with
  | none => simp [haddress] at started
  | some address =>
    simp only [haddress] at started ⊢
    rcases hcreate : Host.createListener proto (Host.initial af unhandled : Host proto).server.af
      address args.maxConns ans bound listened (Host.initial af unhandled : Host proto).kernel with
      ⟨_ | listener, k⟩
    · simp [hcreate] at started
    · obtain ⟨fd, hfd, hopen⟩ := createListener_open hcreate
      refine ⟨⟨based, listener, rfl⟩, ?_, ?_⟩
      · cases added <;> rfl
      · have hfd' : (ServerState.listening based listener).getFd = fd := by
          simp [ServerState.getFd, ServerState.impl?, SocketImpl.handle, hfd]
        have hkept : k.Open (ServerState.listening based listener).getFd := by rwa [hfd']
        cases added <;> exact ⟨hkept, List.not_mem_nil⟩

/-- In a run of a listening server no accepted connection is reported twice exactly when every event
that ends one is the first for it, and has one type that does so or ends with an exception. -/
theorem eraseOnce_run {pton : InetPton} {af : Int} {unhandled : Option Callback}
    {based : proto.isConnectionless = false} {args : ServerArgs} {ans : Except Errno Fd}
    {bound listened : Answer} {added : Bool} (user : ServerUser)
    (started : ((Host.initial af unhandled : Host proto).start pton based args ans bound listened
      added).1 = true) (ops : List ServerOp) :
    let initial : Tally proto := ⟨((Host.initial af unhandled).start pton based args ans bound
      listened added).2, fun _ => none⟩
    Along (Tally.next user) (Tally.ReportsOnce user) initial ops ↔
      Along (Tally.next user) (Tally.FirstReports user) initial ops := by
  intro initial
  have tallied : Tallied initial := ⟨serving_started started, rfl, fun fd n hn => by cases hn⟩
  exact along_iff (fun s op tallied => reportsOnce_iff based tallied op)
    (fun s op s' tallied hfirst hstep => tallied_next based tallied hfirst hstep) tallied ops

/-- The user destroys the socket that is reported. -/
def closing : ServerUser
  | .eraseActiveSocket _ fd :: _ => (.ok (), [fd])
  | _ => (.ok (), [])

/-- A connection is accepted, and its peer resets it. -/
def resetRun : List ServerOp :=
  [.arrive (Host.peerOn 1), .proceed 4 true [⟨3, .readReady⟩],
    .proceed 5 true [⟨4, .error ||| .hangup ||| .peerClosed⟩]]

theorem eraseOnce_run_reset :
    let initial : Tally tcp := ⟨Host.started, fun _ => none⟩
    Along (Tally.next closing) (Tally.ReportsOnce closing) initial resetRun ↔
      Along (Tally.next closing) (Tally.FirstReports closing) initial resetRun :=
  eraseOnce_run closing (by decide) resetRun

theorem resetRun_not_once :
    ¬Along (Tally.next closing) (Tally.ReportsOnce closing) ⟨Host.started, fun _ => none⟩
      resetRun := by
  intro h
  have hevents := ((h.2 _ rfl).2 _ rfl).1
  have hle := hevents.last rfl 4 3 (by decide)
  exact absurd hle (by decide)

end TypedSockets.Endpoint
