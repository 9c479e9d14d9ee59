import TypedSockets.Endpoint.Observable
import TypedSockets.Endpoint.Server
import TypedSockets.Endpoint.Throwing

/-! The handlers of a client and of a server, one after the other as an event makes them run. -/

namespace TypedSockets.Endpoint

open TypedSockets.Socket TypedSockets.Epoll TypedSockets.Lib

variable {proto : Proto} (user : UserCode) (c : ClientId)

/-- A handler of the client on a descriptor. -/
abbrev onFd (fd : Fd) (func : ClientHandler) (w : World proto) : Except Exn Unit × World proto :=
  w.invoke user c func fd

section

variable {user} {c} {w : World proto}

theorem invoke_other {fd : Fd} (h : fd ≠ w.getFd c) (func : ClientHandler) :
    w.invoke user c func fd = (.ok (), w) := by
  unfold World.invoke
  rw [if_neg h]

theorem attempt_other {fd : Fd} (h : fd ≠ w.getFd c) (funcs : List ClientHandler) :
    attempt (onFd user c fd) funcs w = (none, w) := by
  induction funcs with
  | nil => rfl
  | cons func funcs ih =>
    have hact : onFd user c fd func w = (.ok (), w) := invoke_other h func
    rw [attempt_ok hact, ih]

theorem registered_over (h : Registered c w) : OverSingles (w.clients c).handlers := by
  intro tp func hfunc
  have hmem := h tp func hfunc
  simp only [World.cbs, List.mem_cons, Prod.mk.injEq, List.not_mem_nil, or_false] at hmem
  simp only [EventType.singles, List.mem_cons, List.not_mem_nil, or_false]
  tauto

theorem handleEvent_run (h : Registered c w) (event : Event) (v : World proto) :
    (handleEvent (World.invoke user c) (w.clients c).handlers event v).2 =
      (attempt (onFd user c event.fd) (handlersOf (w.clients c).handlers event) v).2 :=
  congrArg Prod.snd (handleEvent_attempt (registered_over h) event v)

variable (user c) in
/-- After the events of a batch only `m_unhandled` may be called. -/
theorem proceed_cases (w : World proto) (events : List Event) :
    let handled := (handleEvents (World.invoke user c) (w.clients c).handlers events w).2
    (w.proceed user c events).2 = handled ∨
      ∃ func missed, (w.proceed user c events).2 = (handled.call user (.unhandled c func missed)).2 := by
  intro handled
  rw [World.proceed, proceed_snd]
  cases (w.clients c).unhandled with
  | none => exact Or.inl rfl
  | some func => exact Or.inr ⟨func, _, by rw [Option.map_some, handleUnhandled_some]⟩

/-- Every type of `register_cbs` has its handler. -/
def AllRegistered (c : ClientId) (w : World proto) : Prop :=
  ∀ cb ∈ World.cbs, (w.clients c).handlers cb.1 = some cb.2

theorem handlersOf_cbs (h : AllRegistered c w) (event : Event) :
    handlersOf (w.clients c).handlers event =
      (if event.has .readReady then [ClientHandler.readReady] else []) ++
        ((if event.has .writeReady then [ClientHandler.writeReady] else []) ++
          (EventType.terminations.filter event.has).map fun _ => ClientHandler.erase) := by
  have hread := h (.readReady, .readReady) (by decide)
  have hwrite := h (.writeReady, .writeReady) (by decide)
  have herase : ∀ tp ∈ EventType.terminations, (w.clients c).handlers tp = some .erase := by
    intro tp htp
    refine h (tp, .erase) ?_
    simp only [EventType.terminations, List.mem_cons, List.not_mem_nil, or_false] at htp
    rcases htp with rfl | rfl | rfl | rfl <;> decide
  rw [handlersOf_split herase, hread, hwrite]
  rfl

end

namespace Host

/-- What the `register_cbs` of a server leaves in an empty table. -/
def table : Handlers ServerHandler := cbs.foldl (fun t cb => (t.add cb.1 cb.2).2) .empty

theorem table_over : OverSingles table := by
  intro tp func hfunc
  rcases Handlers.addAll_mem cbs hfunc with hempty | hmem
  · cases hempty
  · simp only [cbs, List.mem_cons, Prod.mk.injEq, List.not_mem_nil, or_false] at hmem
    simp only [EventType.singles, List.mem_cons, List.not_mem_nil, or_false]
    tauto

theorem handlersOf_table (event : Event) :
    handlersOf table event =
      (if event.has .readReady then [ServerHandler.readReady] else []) ++
        (EventType.terminations.filter event.has).map fun _ => ServerHandler.erase := by
  have herase : ∀ tp ∈ EventType.terminations, table tp = some .erase := by
    intro tp htp
    simp only [EventType.terminations, List.mem_cons, List.not_mem_nil, or_false] at htp
    rcases htp with rfl | rfl | rfl | rfl <;> decide
  have hread : table .readReady = some .readReady := by decide
  have hwrite : table .writeReady = none := by decide
  rw [handlersOf_split herase, hread, hwrite]
  cases event.has .writeReady <;> rfl

end Host

end TypedSockets.Endpoint
