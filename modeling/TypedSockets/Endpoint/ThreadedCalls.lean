import TypedSockets.Endpoint.OneShot
import TypedSockets.Endpoint.Threaded

/-! What the user of a client sees of its threads: `stop` silences the client whatever batches are
under way, a callback that is called once is called once among all threads, and each thread runs the
handlers that are registered for its own batch, in their order. -/

namespace TypedSockets.Endpoint

open TypedSockets.Socket TypedSockets.Epoll TypedSockets.Lib

variable {proto : Proto} (pton : InetPton) (user : UserCode) (c : ClientId)

/-- The events that a thread has still to dispatch, with the one that it is at. -/
def Task.events : Task → List Event
  | polled events => events
  | dispatch todo => todo.map Prod.fst
  | handler event _ todo => event :: todo.map Prod.fst
  | _ => []

/-- The calls on the observer that a thread has still to make. -/
def Task.calls : Task → List ObserverCall
  | control calls => calls
  | owner calls => calls
  | table call calls => call :: calls
  | _ => []

def ObserverCall.event : ObserverCall → EventType
  | add event => event
  | remove event => event

/-- The handlers that are registered for the types of the events, in the order of the dispatch. -/
def registeredFor {H : Type} (table : Handlers H) (events : List Event) : List (H × Fd) :=
  events.flatMap fun event => (handlersOf table event).map fun func => (func, event.fd)

/-- The handlers that the types still to be tried lead to. -/
def toRun {H : Type} (table : Handlers H) (todo : List (Event × List EventType)) : List (H × Fd) :=
  todo.flatMap fun entry => (lookups table entry.1 entry.2).map fun func => (func, entry.1.fd)

/-- The polls give a thread only events with the property. -/
def ThreadedOp.Gives {T : Type} (P : T → Event → Prop) : ThreadedOp T → Prop
  | proceed t events => ∀ event ∈ events, P t event
  | _ => True

/-- The call that took the mutex of the client last. -/
def lastControl {T : Type} : List (T × Turn) → Option Control
  | [] => none
  | (_, .control op) :: _ => some op
  | _ :: log => lastControl log

/-- The calls of a callback that returned. -/
def returned (role : Role) : List Invocation → Nat
  | [] => 0
  | inv :: trace =>
    returned role trace +
      if roleOf c inv = some role ∧ (user (inv :: trace)).isOk then 1 else 0

namespace Threaded

variable {T : Type} [DecidableEq T]

/-- The events in hand have the property. -/
def Given (P : T → Event → Prop) (s : Threaded T proto) : Prop :=
  ∀ t, ∀ event ∈ (s.locks.tasks t).events, P t event

/-- The batches that the poll gave to a thread. -/
def batches (t : T) (ops : List (ThreadedOp T)) : List (List Event) :=
  ops.filterMap fun
    | .proceed u events => if u = t then some events else none
    | _ => none

/-- The handlers that a thread ran since it got to `m_unhandled` last, in their order. -/
def ran (t : T) : List (T × Turn) → List (ClientHandler × Fd)
  | [] => []
  | (u, .handle func fd) :: log => if u = t then ran t log ++ [(func, fd)] else ran t log
  | (u, .report _) :: log => if u = t then [] else ran t log
  | (_, .control _) :: log => ran t log

/-- What a thread in the loop of `proceed` runs when no handler throws. -/
def ahead (table : Handlers ClientHandler) : Task → Job proto → Option (List (ClientHandler × Fd))
  | .dispatch todo, _ => some (toRun table todo)
  | .handler event tps todo, .handler func _ _ =>
    some ((func, event.fd) :: toRun table ((event, tps) :: todo))
  | _, _ => none

/-- What a thread ran of its batch, and what it may still run of it. -/
structure Progress (table : Handlers ClientHandler) (ops : List (ThreadedOp T)) (t : T)
    (log : List (T × Turn)) (task : Task) (job : Job proto) : Prop where
  polled : ∀ events, task = .polled events → (batches t ops).getLast? = some events
  fresh : task.readsObserver = false → (∀ missed, job ≠ .report missed) → ran t log = []
  ahead : ∀ rest, ahead table task job = some rest → ∃ events,
    (batches t ops).getLast? = some events ∧
      (ran t log ++ rest).Sublist (registeredFor table events)

/-- The threads dispatch their batches over a table that has handlers for the six types. -/
structure Handling (ops : List (ThreadedOp T)) (s : Threaded T proto) : Prop where
  single : OverSingles (s.world.clients c).handlers
  calls : ∀ t, ∀ call ∈ (s.locks.tasks t).calls, call.event ∈ EventType.singles
  progress : ∀ t, Progress (s.world.clients c).handlers ops t s.log (s.locks.tasks t) (s.jobs t)

/-- After `stop`, until the next `start` takes the mutex, no callback is invoked. -/
def Silenced (s : Threaded T proto) (op : ThreadedOp T) : Prop :=
  lastControl s.log = some .stop →
    ∀ s', s.next pton user c op = some s' → s'.world.callbacks = s.world.callbacks

end Threaded

section

variable {pton} {user} {c} {w : World proto}

/-! ### Callbacks that are called once -/

/-- The calls of a callback that returned, and one that may still do. -/
def allowance (user : UserCode) (c : ClientId) (role : Role) (w : World proto) : Nat :=
  returned user c role w.trace + if ((w.clients c).callback role).isSome then 1 else 0

theorem allowance_congr {role : Role} {v : World proto} (trace : v.trace = w.trace)
    (callback : (v.clients c).callback role = (w.clients c).callback role) :
    allowance user c role v = allowance user c role w := by
  rw [allowance, allowance, trace, callback]

theorem put_callback (v : World proto) (role : Role) (new : ClientState proto) (added : Bool) :
    ((v.put c new added).clients c).callback role = (v.clients c).callback role := by
  cases role <;> cases added <;> simp [World.put, World.addSocket, Client.callback]

theorem control_allowance (role : Role) (w : World proto) (op : Control) :
    allowance user c role (w.perform pton user c (.control op)) = allowance user c role w := by
  cases op with
  | stop =>
    refine allowance_congr rfl ?_
    cases role <;>
      simp [World.perform, World.stop, World.unregisterCbs, World.delSocket, Client.callback]
  | start op =>
    rw [World.perform, act_start]
    rcases w.made pton c op with ⟨_ | new, k⟩
    · exact allowance_congr rfl rfl
    · refine allowance_congr ((Silently.put new op.added).trace _) ((put_callback _ role _ _).trans ?_)
      cases role <;> simp [World.registerCbs, Client.callback]

theorem returned_beside {role : Role} {called trace : List Invocation}
    (h : role ∉ called.filterMap (roleOf c)) :
    returned user c role (called ++ trace) = returned user c role trace := by
  induction called with
  | nil => rfl
  | cons inv called ih =>
    simp only [List.filterMap_cons] at h
    rw [List.cons_append, returned, ih, if_neg, Nat.add_zero]
    · rintro ⟨hrole, -⟩
      simp [hrole] at h
    · cases hrole : roleOf c inv <;> simp_all

theorem handle_allowance {role : Role} (once : role.once = true) (w : World proto)
    (func : ClientHandler) (fd : Fd) :
    allowance user c role (w.perform pton user c (.handle func fd)) ≤ allowance user c role w := by
  rw [World.perform]
  by_cases hfunc : func = role.handler
  · subst hfunc
    by_cases hstored : fd = w.getFd c ∧ ((w.clients c).callback role).isSome
    · obtain ⟨hfd, hsome⟩ := hstored
      obtain ⟨callback, hcallback⟩ := Option.isSome_iff_exists.mp hsome
      obtain ⟨htrace, hout⟩ := invoke_stored user once hfd hcallback
      rw [allowance, allowance, htrace, returned, hsome]
      rcases hout with ⟨e, -, hthrows⟩ | ⟨-, hcleared⟩
      · -- the call throws, and the callback stays
        simp only [hthrows, Except.isOk, Except.toBool]
        split_ifs <;> simp_all
      · rw [hcleared]
        split_ifs <;> simp_all
    · obtain ⟨-, hclients, htrace⟩ := invoke_unstored user once hstored
      exact (allowance_congr htrace (by rw [hclients])).le
  · have beside : Beside c role w (w.invoke user c func fd).2 := .invoke user hfunc fd w
    obtain ⟨called, htrace, hcalled⟩ := beside.calls
    rw [allowance, allowance, htrace, beside.callback, returned_beside hcalled]

theorem perform_allowance {role : Role} (once : role.once = true) (w : World proto)
    (turn : Turn) :
    allowance user c role (w.perform pton user c turn) ≤ allowance user c role w := by
  cases turn with
  | control op => exact (control_allowance role w op).le
  | handle func fd => exact handle_allowance once w func fd
  | report missed =>
    rw [World.perform, report_eq, allowance, allowance]
    have hcalled : role ∉ ((w.clients c).unhandled.map fun func =>
        Invocation.unhandled c func missed).toList.filterMap (roleOf c) := by
      cases (w.clients c).unhandled <;> simp [roleOf]
    rw [returned_beside hcalled]

namespace Threaded

variable {T : Type} [DecidableEq T] {s s' : Threaded T proto} {t : T}

omit [DecidableEq T] in
theorem replay_allowance {role : Role} (once : role.once = true) (w : World proto)
    (log : List (T × Turn)) :
    allowance user c role (replay pton user c w log) ≤ allowance user c role w := by
  induction log with
  | nil => exact le_rfl
  | cons entry log ih =>
    rw [replay_cons]
    exact (perform_allowance once _ entry.2).trans ih

/-! ### Events in hand -/

variable {P : T → Event → Prop}

/-- A step of a thread brings it no events. -/
theorem events_step {l l' : Threads T} (hstep : Threads.Step l t l') (u : T) {event : Event}
    (h : event ∈ (l'.tasks u).events) : event ∈ (l.tasks u).events := by
  by_cases hu : u = t
  · subst hu
    cases hstep with
    | leaveHandler task throws =>
      rw [task]
      simp only [Threads.become, Function.update_self, Task.events] at h ⊢
      split at h <;> simp_all
    | _ task => rw [task]; simp_all [Threads.become, Task.events]
  · cases hstep <;> simpa [Threads.become, hu] using h

theorem given_entered (h : Given P s) {op : ThreadOp T} {task : Task} {job : Job proto}
    (events : ∀ event ∈ task.events, P t event)
    (hcall : s.locks.next .client op =
      match s.locks.tasks t with
      | .idle => some (s.locks.become t task)
      | _ => none)
    (henter : s.enter t op job = some s') : Given P s' := by
  obtain ⟨-, locks, hlocks, rfl⟩ := enter_cases henter
  rw [hcall] at hlocks
  split at hlocks
  · obtain rfl := Option.some.inj hlocks
    intro u event hevent
    by_cases hu : u = t
    · subst hu
      simp only [Threads.become, Function.update_self] at hevent
      exact events event hevent
    · simp only [Threads.become, Function.update_of_ne hu] at hevent
      exact h u event hevent
  · cases hlocks

theorem given_next (h : Given P s) {op : ThreadedOp T} (gives : op.Gives P)
    (hstep : s.next pton user c op = some s') : Given P s' := by
  cases op with
  | start t op registers => exact given_entered h (by simp [Task.events]) rfl hstep
  | stop t => exact given_entered h (by simp [Task.events]) rfl hstep
  | proceed t events =>
    have events_given : ∀ event ∈ (Task.polled events).events, P t event := gives
    exact given_entered h events_given rfl hstep
  | run t =>
    rcases run_cases hstep with ⟨missed, -, rfl⟩ | ⟨done, locks, -, hadvance, rfl⟩
    · exact h
    · exact fun u event hevent =>
        h u event (events_step (Threads.step_of_advance hadvance) u hevent)

/-! ### What a thread ran of its batch -/

theorem toRun_nextType {table : Handlers ClientHandler} {event : Event} {tp : EventType}
    (h : table (event.type &&& tp) = none) (tps : List EventType)
    (todo : List (Event × List EventType)) :
    toRun table ((event, tp :: tps) :: todo) = toRun table ((event, tps) :: todo) := by
  simp [toRun, lookups, h]

theorem toRun_handler {table : Handlers ClientHandler} {event : Event} {tp : EventType}
    {func : ClientHandler} (h : table (event.type &&& tp) = some func) (tps : List EventType)
    (todo : List (Event × List EventType)) :
    toRun table ((event, tp :: tps) :: todo) =
      (func, event.fd) :: toRun table ((event, tps) :: todo) := by
  simp [toRun, lookups, h]

/-- An event whose handler throws is left. -/
theorem toRun_sublist (table : Handlers ClientHandler) (entry : Event × List EventType)
    (todo : List (Event × List EventType)) :
    (toRun table todo).Sublist (toRun table (entry :: todo)) := by
  rw [toRun, toRun, List.flatMap_cons]
  exact List.sublist_append_right _ _

theorem toRun_batch {table : Handlers ClientHandler} (single : OverSingles table)
    (events : List Event) :
    toRun table (events.map fun event => (event, dispatchOrder)) = registeredFor table events := by
  simp only [toRun, registeredFor, List.flatMap_map, lookups_eq single]

theorem ran_append (u t : T) (turn : Option Turn) (log : List (T × Turn)) :
    ran u ((turn.map (t, ·)).toList ++ log) =
      if t = u then
        match turn with
        | some (.handle func fd) => ran u log ++ [(func, fd)]
        | some (.report _) => []
        | _ => ran u log
      else ran u log := by
  cases turn with
  | none => simp
  | some turn => cases turn <;> simp [ran]

theorem batches_append (t : T) (ops : List (ThreadedOp T)) (op : ThreadedOp T) :
    batches t (ops ++ [op]) = batches t ops ++ batches t [op] := List.filterMap_append ..

/-- A thread outside the loop that has run nothing. -/
theorem Progress.outside {table : Handlers ClientHandler} {ops : List (ThreadedOp T)}
    {log : List (T × Turn)} {task : Task} {job : Job proto} (fresh : ran t log = [])
    (polled : ∀ events, task ≠ .polled events) (outside : task.readsObserver = false) :
    Progress table ops t log task job := by
  refine ⟨fun events htask => absurd htask (polled events), fun _ _ => fresh, fun rest hrest => ?_⟩
  cases task with
  | dispatch todo => cases outside
  | handler event tps todo => cases outside
  | _ => cases hrest

/-- A thread in the loop. -/
theorem Progress.inside {table : Handlers ClientHandler} {ops : List (ThreadedOp T)}
    {log : List (T × Turn)} {task : Task} {job : Job proto} (inLoop : task.readsObserver = true)
    {events : List Event} (batch : (batches t ops).getLast? = some events)
    (sub : ∀ rest, Threaded.ahead table task job = some rest →
      (ran t log ++ rest).Sublist (registeredFor table events)) :
    Progress table ops t log task job := by
  refine ⟨fun events htask => ?_, fun outside => ?_, fun rest hrest =>
    ⟨events, batch, sub rest hrest⟩⟩
  · rw [htask] at inLoop
    cases inLoop
  · rw [inLoop] at outside
    cases outside

/-- What another thread does outside the table. -/
theorem Progress.congr {table table' : Handlers ClientHandler} {ops ops' : List (ThreadedOp T)}
    {log log' : List (T × Turn)} {task : Task} {job : Job proto}
    (h : Progress table ops t log task job) (steady : task.readsObserver = true → table' = table)
    (batch : batches t ops' = batches t ops) (same : ran t log' = ran t log) :
    Progress table' ops' t log' task job := by
  refine ⟨fun events htask => by rw [batch, h.polled events htask],
    fun outside hjob => by rw [same, h.fresh outside hjob], fun rest hrest => ?_⟩
  have inside : task.readsObserver = true := by
    cases task <;> first | rfl | cases hrest
  rw [steady inside] at hrest ⊢
  rw [batch, same]
  exact h.ahead rest hrest

/-- The turns of a step: that of a call that takes the mutex, or of the handler that it is in. -/
theorem work_turn {v : World proto} {task : Task} {job : Job proto} {done : Work proto}
    (hwork : work pton user c v task job = some done) :
    (∃ event tps todo, task = .handler event tps todo) ∨ done.turn = none ∨
      ∃ op, done.turn = some (.control op) := by
  unfold work at hwork
  split at hwork
  · split at hwork <;> split_ifs at hwork <;> cases hwork <;> exact Or.inr (Or.inr ⟨_, rfl⟩)
  · cases hwork; exact Or.inr (Or.inr ⟨_, rfl⟩)
  · cases hwork; exact Or.inr (Or.inl rfl)
  · cases hwork; exact Or.inr (Or.inl rfl)
  · cases hwork; exact Or.inr (Or.inl rfl)
  · cases hwork; exact Or.inr (Or.inl rfl)
  · cases hwork; exact Or.inr (Or.inl rfl)
  · cases hwork; exact Or.inr (Or.inl rfl)
  · cases hwork; exact Or.inr (Or.inl rfl)
  · split at hwork <;> cases hwork <;> exact Or.inr (Or.inl rfl)
  · exact Or.inl ⟨_, _, _, rfl⟩
  · cases hwork

/-- A step of a thread brings it no calls on the observer. -/
theorem calls_step {l l' : Threads T} (hstep : Threads.Step l t l') (u : T) {call : ObserverCall}
    (h : call ∈ (l'.tasks u).calls) : call ∈ (l.tasks u).calls := by
  by_cases hu : u = t
  · subst hu
    cases hstep with
    | takeObserver task => rw [task]; simpa [Threads.become, Task.calls] using h
    | leaveObserver task =>
      rw [task]
      simp only [Threads.become, Function.update_self, Task.calls] at h ⊢
      exact List.mem_cons_of_mem _ h
    | _ task => rw [task]; simp_all [Threads.become, Task.calls]
  · cases hstep <;> simpa [Threads.become, hu] using h

theorem single_observe {v : World proto} (single : OverSingles (v.clients c).handlers)
    {call : ObserverCall} (hcall : call.event ∈ EventType.singles) :
    OverSingles ((v.observe c call).clients c).handlers := by
  intro tp func hfunc
  cases call with
  | add event =>
    simp only [World.observe, World.update_client, if_true, Handlers.add_apply] at hfunc
    split_ifs at hfunc with htp
    · exact htp ▸ hcall
    · exact single tp func hfunc
  | remove event =>
    simp only [World.observe, World.update_client, if_true, Handlers.remove_apply] at hfunc
    split_ifs at hfunc
    exact single tp func hfunc

/-- While a thread is in the loop of `proceed` no step changes the table. -/
theorem steady_next {w : World proto} (h : InTurns pton user c w s) {op : ThreadedOp T}
    (hstep : s.next pton user c op = some s') {u : T}
    (inLoop : (s.locks.tasks u).readsObserver = true) :
    (s'.world.clients c).handlers = (s.world.clients c).handlers := by
  cases op with
  | start t op registers => obtain ⟨-, _, -, rfl⟩ := enter_cases hstep; rfl
  | stop t => obtain ⟨-, _, -, rfl⟩ := enter_cases hstep; rfl
  | proceed t events => obtain ⟨-, _, -, rfl⟩ := enter_cases hstep; rfl
  | run t =>
    rcases run_cases hstep with ⟨missed, -, rfl⟩ | ⟨done, locks, hwork, -, rfl⟩
    · rw [report_eq]
    · refine work_handlers hwork fun call calls htask => ?_
      -- the thread that changes the table owns the mutex of the observer alone
      have hwriter : s.locks.observer.writer = some t := by
        rw [h.locks.writer, htask]
        rfl
      have hreader := (h.locks.readers u).mpr inLoop
      rw [h.locks.exclusive (by simp [hwriter])] at hreader
      exact absurd hreader (Finset.notMem_empty u)

omit [DecidableEq T] in
/-- A thread that only has `m_unhandled` to call is in no function. -/
theorem fits_report {task : Task} {missed : List Event}
    (h : Fits task (.report missed : Job proto)) : task = .idle := by
  cases task <;> first | rfl | exact h.elim

theorem ran_work {v : World proto} {task : Task} {job : Job proto} {done : Work proto}
    (hwork : work pton user c v task job = some done)
    (outside : ∀ event tps todo, task ≠ .handler event tps todo) (log : List (T × Turn)) :
    ran t ((done.turn.map (t, ·)).toList ++ log) = ran t log := by
  rw [ran_append, if_pos rfl]
  rcases work_turn hwork with ⟨event, tps, todo, htask⟩ | hturn | ⟨op, hturn⟩
  · exact absurd htask (outside event tps todo)
  · rw [hturn]
  · rw [hturn]

/-- A thread goes on with its call. -/
theorem progress_step {w : World proto} (h : InTurns pton user c w s)
    (single : OverSingles (s.world.clients c).handlers) {ops : List (ThreadedOp T)}
    (hp : Progress (s.world.clients c).handlers ops t s.log (s.locks.tasks t) (s.jobs t))
    {done : Work proto} {locks : Threads T} {throws : Bool}
    (hwork : work pton user c s.world (s.locks.tasks t) (s.jobs t) = some done)
    (hadvance : s.locks.advance t throws = some locks) :
    Progress (done.world.clients c).handlers ops t ((done.turn.map (t, ·)).toList ++ s.log)
      (locks.tasks t) done.job := by
  have hstep := Threads.step_of_advance hadvance
  have hfits := h.fits t
  -- outside the loop the thread has run nothing, and a step of it there is no turn of a handler
  have hnone (outside : (s.locks.tasks t).readsObserver = false)
      (busy : s.locks.tasks t ≠ .idle) :
      ran t ((done.turn.map (t, ·)).toList ++ s.log) = [] := by
    rw [ran_work hwork fun event tps todo htask => by rw [htask] at outside; cases outside]
    exact hp.fresh outside fun missed hjob => busy (fits_report (hjob ▸ hfits))
  cases hstep with
  | takeEndpoint task free =>
    have hran := hnone (by rw [task]; rfl) (by simp [task])
    exact .outside hran (by simp [Threads.become]) (by simp [Threads.become, Task.readsObserver])
  | leaveEndpoint task =>
    have hran := hnone (by rw [task]; rfl) (by simp [task])
    exact .outside hran (by simp [Threads.become]) (by simp [Threads.become, Task.readsObserver])
  | takeObserver task free unshared =>
    have hran := hnone (by rw [task]; rfl) (by simp [task])
    exact .outside hran (by simp [Threads.become]) (by simp [Threads.become, Task.readsObserver])
  | leaveObserver task =>
    have hran := hnone (by rw [task]; rfl) (by simp [task])
    exact .outside hran (by simp [Threads.become]) (by simp [Threads.become, Task.readsObserver])
  | shareObserver task free =>
    have hran := hnone (by rw [task]; rfl) (by simp [task])
    have htable := work_handlers hwork (by simp [task])
    have hbatch := hp.polled _ task
    simp only [Threads.become, Function.update_self]
    refine .inside rfl hbatch fun rest hrest => ?_
    cases hrest
    rw [hran, List.nil_append, htable, toRun_batch single]
  | unshareObserver task =>
    rw [task] at hwork hfits
    cases hjob : s.jobs t with
    | batch missed found =>
      rw [hjob] at hwork
      obtain rfl := Option.some.inj hwork
      simp only [Threads.become, Function.update_self]
      exact ⟨by simp, fun _ hnot => absurd rfl (hnot missed), fun rest hrest => by cases hrest⟩
    | _ => rw [hjob] at hfits; exact hfits.elim
  | nextEvent task =>
    have hran := ran_work (t := t) hwork (by simp [task]) s.log
    have htable := work_handlers hwork (by simp [task])
    obtain ⟨events, hbatch, hsub⟩ := hp.ahead _ (by rw [task]; rfl)
    simp only [Threads.become, Function.update_self]
    refine .inside rfl hbatch fun rest hrest => ?_
    cases hrest
    rw [hran, htable]
    exact hsub
  | nextType task =>
    rename_i event tp tps todo
    have hran := ran_work (t := t) hwork (by simp [task]) s.log
    have htable := work_handlers hwork (by simp [task])
    obtain ⟨events, hbatch, hsub⟩ := hp.ahead _ (by rw [task]; rfl)
    have hnone : (s.world.clients c).handlers (event.type &&& tp) = none := by
      -- the step would have entered a handler
      rw [← Option.not_isSome_iff_eq_none]
      intro hsome
      have hfound : s.locks.table (event.type &&& tp) = some () := by
        obtain ⟨func, hfunc⟩ := Option.isSome_iff_exists.mp hsome
        rw [h.table, hfunc]
        rfl
      simp only [Threads.advance, task, hfound] at hadvance
      obtain ⟨m, -, heq⟩ := Option.map_eq_some_iff.mp hadvance
      have htask := congrFun (congrArg Threads.tasks heq) t
      simp [Threads.become] at htask
    simp only [Threads.become, Function.update_self]
    refine .inside rfl hbatch fun rest hrest => ?_
    cases hrest
    rw [hran, htable, ← toRun_nextType hnone]
    exact hsub
  | enterHandler task free =>
    rename_i event tp tps todo
    have hran := ran_work (t := t) hwork (by simp [task]) s.log
    have htable := work_handlers hwork (by simp [task])
    obtain ⟨events, hbatch, hsub⟩ := hp.ahead _ (by rw [task]; rfl)
    rw [task] at hwork hfits
    cases hjob : s.jobs t with
    | batch missed found =>
      rw [hjob] at hwork
      simp only [Threads.become, Function.update_self]
      refine .inside rfl hbatch fun rest hrest => ?_
      cases hfunc : (s.world.clients c).handlers (event.type &&& tp) with
      | none =>
        simp only [work, hfunc] at hwork
        obtain rfl := Option.some.inj hwork
        cases hrest
      | some func =>
        simp only [work, hfunc] at hwork
        obtain rfl := Option.some.inj hwork
        cases hrest
        rw [hran, ← toRun_handler hfunc]
        exact hsub
    | _ => rw [hjob] at hfits; exact hfits.elim
  | leaveHandler task throws =>
    rename_i event tps todo
    have htable := work_handlers hwork (by simp [task])
    rw [task] at hwork hfits
    cases hjob : s.jobs t with
    | handler func missed found =>
      rw [hjob] at hwork
      obtain ⟨-, hturn, -⟩ := work_handler hwork
      obtain ⟨events, hbatch, hsub⟩ := hp.ahead _ (by rw [task, hjob]; rfl)
      simp only [Threads.become, Function.update_self]
      refine .inside rfl hbatch fun rest hrest => ?_
      cases hrest
      rw [ran_append, if_pos rfl, hturn, htable, List.append_assoc, List.singleton_append]
      refine List.Sublist.trans ?_ hsub
      refine (List.Sublist.refl _).append (List.Sublist.cons_cons _ ?_)
      split_ifs
      · exact toRun_sublist _ _ _
      · exact List.Sublist.refl _
    | _ => rw [hjob] at hfits; exact hfits.elim

theorem handling_entered {ops : List (ThreadedOp T)} (h : Handling c ops s) {op' : ThreadedOp T}
    {op : ThreadOp T} {task : Task} {job : Job proto}
    (calls : ∀ call ∈ task.calls, call.event ∈ EventType.singles)
    (own : ran t s.log = [] →
      Progress (s.world.clients c).handlers (ops ++ [op']) t s.log task job)
    (others : ∀ u, u ≠ t → batches u [op'] = [])
    (hcall : s.locks.next .client op =
      match s.locks.tasks t with
      | .idle => some (s.locks.become t task)
      | _ => none)
    (henter : s.enter t op job = some s') : Handling c (ops ++ [op']) s' := by
  obtain ⟨hjob, locks, hlocks, rfl⟩ := enter_cases henter
  rw [hcall] at hlocks
  split at hlocks
  · rename_i hidle
    obtain rfl := Option.some.inj hlocks
    have fresh : ran t s.log = [] :=
      (h.progress t).fresh (by rw [hidle]; rfl) (by rw [hjob]; simp)
    refine ⟨h.single, fun u call hmem => ?_, fun u => ?_⟩
    · by_cases hu : u = t
      · subst hu
        simp only [Threads.become, Function.update_self] at hmem
        exact calls call hmem
      · simp only [Threads.become, Function.update_of_ne hu] at hmem
        exact h.calls u call hmem
    · by_cases hu : u = t
      · subst hu
        simpa only [Threads.become, Function.update_self] using own fresh
      · simp only [Threads.become, Function.update_of_ne hu]
        refine (h.progress u).congr (fun _ => rfl) ?_ rfl
        rw [batches_append, others u hu, List.append_nil]
  · cases hlocks

/-- A step of a thread that is in a function. -/
theorem handling_step {w : World proto} {ops : List (ThreadedOp T)}
    (inTurns : InTurns pton user c w s) (h : Handling c ops s)
    (hstep : s.next pton user c (.run t) = some s') : Handling c (ops ++ [.run t]) s' := by
  have batch (u : T) : batches u (ops ++ [.run t]) = batches u ops :=
    (batches_append u ops (.run t)).trans (List.append_nil _)
  have steady (u : T) (inLoop : (s.locks.tasks u).readsObserver = true) :=
    steady_next inTurns hstep inLoop
  rcases run_cases hstep with ⟨missed, hjob, rfl⟩ | ⟨done, locks, hwork, hadvance, rfl⟩
  · have hidle : s.locks.tasks t = .idle := fits_report (hjob ▸ inTurns.fits t)
    refine ⟨by rw [report_eq]; exact h.single, h.calls, fun u => ?_⟩
    by_cases hu : u = t
    · subst hu
      exact .outside (by simp [ran]) (by simp [hidle]) (by rw [hidle]; rfl)
    · simp only [Function.update_of_ne hu]
      exact (h.progress u).congr (steady u) (batch u) (by simp [ran, Ne.symm hu])
  · have hlocks := Threads.step_of_advance hadvance
    refine ⟨?_, fun u call hmem => h.calls u call (calls_step hlocks u hmem), fun u => ?_⟩
    · by_cases htable : ∃ call calls, s.locks.tasks t = .table call calls
      · obtain ⟨call, calls, htask⟩ := htable
        rw [htask] at hwork
        obtain rfl := Option.some.inj hwork
        exact single_observe h.single (h.calls t call (by rw [htask]; exact List.mem_cons_self))
      · rw [work_handlers hwork fun call calls htask => htable ⟨call, calls, htask⟩]
        exact h.single
    · by_cases hu : u = t
      · subst hu
        simp only [Function.update_self]
        refine (progress_step inTurns h.single (h.progress u) hwork hadvance).congr
          (fun _ => rfl) (batch u) rfl
      · have htask : locks.tasks u = s.locks.tasks u := by
          cases hlocks <;> simp [Threads.become, hu]
        simp only [Function.update_of_ne hu, htask]
        refine (h.progress u).congr (steady u) (batch u) ?_
        rw [ran_append, if_neg (Ne.symm hu)]

theorem handling_next {w : World proto} {ops : List (ThreadedOp T)}
    (inTurns : InTurns pton user c w s) (h : Handling c ops s) {op : ThreadedOp T}
    (hstep : s.next pton user c op = some s') : Handling c (ops ++ [op]) s' := by
  cases op with
  | start t op registers =>
    refine handling_entered h ?_ (fun fresh => .outside fresh (by simp) rfl) (fun _ _ => rfl) rfl
      hstep
    cases registers <;> simp [Task.calls, EndpointClass.registerCbs, World.cbs,
      ObserverCall.event, EventType.singles]
  | stop t =>
    refine handling_entered h ?_ (fun fresh => .outside fresh (by simp) rfl) (fun _ _ => rfl) rfl
      hstep
    simp [Task.calls, EndpointClass.unregisterCbs, World.uncbs, ObserverCall.event,
      EventType.singles]
  | proceed t events =>
    have own (fresh : ran t s.log = []) : Progress (s.world.clients c).handlers
        (ops ++ [.proceed t events]) t s.log (.polled events) (.none : Job proto) := by
      refine ⟨fun events' htask => ?_, fun _ _ => fresh, fun rest hrest => by cases hrest⟩
      obtain rfl := Task.polled.inj htask
      rw [batches_append]
      simp [batches]
    refine handling_entered h (by simp [Task.calls]) own (fun u hu => ?_) rfl hstep
    simp [batches, Ne.symm hu]
  | run t => exact handling_step inTurns h hstep

theorem handling_run {w : World proto} (single : OverSingles (w.clients c).handlers)
    {ops : List (ThreadedOp T)} (hrun : exec (next pton user c) (initial c w) ops = some s) :
    Handling c ops s := by
  induction ops using List.reverseRecOn generalizing s with
  | nil =>
    cases hrun
    refine ⟨single, fun _ _ hcall => ?_, fun _ => .outside rfl (fun _ htask => ?_) rfl⟩
    · cases hcall
    · cases htask
  | append_singleton ops op ih =>
    rw [exec_concat] at hrun
    obtain ⟨s1, hfirst, hstep⟩ := Option.bind_eq_some_iff.mp hrun
    exact handling_next (inTurns_run hfirst) (ih hfirst) hstep

/-! ### After `stop` -/

omit [DecidableEq T] in
theorem replay_stopped {log : List (T × Turn)} (h : lastControl log = some .stop)
    (w : World proto) : ((replay pton user c w log).clients c).state = .idle none := by
  induction log with
  | nil => cases h
  | cons entry log ih =>
    obtain ⟨t, turn⟩ := entry
    rw [replay_cons]
    cases turn with
    | control op =>
      obtain rfl : op = .stop := Option.some.inj h
      exact (quiet_stop _).1
    | handle func fd => exact ((World.Calm.invoke func fd _).state c).trans (ih h)
    | report missed =>
      rw [World.perform, report_eq]
      exact ih h

theorem report_callbacks (v : World proto) (missed : List Event) :
    (v.report user c missed).callbacks = v.callbacks := by
  rw [report_eq, World.callbacks]
  cases (v.clients c).unhandled <;> simp [Invocation.isCallback, World.callbacks]

/-- Only the handlers call callbacks. -/
theorem work_callbacks {v : World proto} {task : Task} {job : Job proto} {done : Work proto}
    (hwork : work pton user c v task job = some done)
    (outside : ∀ event tps todo, task ≠ .handler event tps todo) :
    done.world.callbacks = v.callbacks := by
  unfold work at hwork
  split at hwork
  · split at hwork <;> split_ifs at hwork <;> cases hwork <;> rfl
  · cases hwork; rfl
  · cases hwork
    exact congrArg (List.filter _) ((Silently.put _ _).trace v)
  · cases hwork; rfl
  · cases hwork; rfl
  · cases hwork
    exact congrArg (List.filter _) ((Silently.observe _).trace v)
  · cases hwork; rfl
  · cases hwork; rfl
  · cases hwork; rfl
  · split at hwork <;> cases hwork <;> rfl
  · exact absurd rfl (outside _ _ _)
  · cases hwork

theorem silenced_step {w : World proto} (inTurns : InTurns pton user c w s)
    (given : Given (fun _ event => 0 ≤ event.fd) s) (op : ThreadedOp T) :
    Silenced pton user c s op := by
  intro hlast s' hstep
  cases op with
  | start t op registers => obtain ⟨-, _, -, rfl⟩ := enter_cases hstep; rfl
  | stop t => obtain ⟨-, _, -, rfl⟩ := enter_cases hstep; rfl
  | proceed t events => obtain ⟨-, _, -, rfl⟩ := enter_cases hstep; rfl
  | run t =>
    rcases run_cases hstep with ⟨missed, -, rfl⟩ | ⟨done, locks, hwork, -, rfl⟩
    · exact report_callbacks s.world missed
    · by_cases hhandler : ∃ event tps todo, s.locks.tasks t = .handler event tps todo
      · obtain ⟨event, tps, todo, htask⟩ := hhandler
        have hstate : (s.world.clients c).state = .idle none := by
          rw [inTurns_handler inTurns htask]
          exact replay_stopped hlast w
        have hfd : event.fd ≠ s.world.getFd c := by
          have hnonneg : 0 ≤ event.fd := given t event (by rw [htask]; exact List.mem_cons_self)
          have hclosed : s.world.getFd c = -1 := by rw [World.getFd, hstate]; rfl
          rw [hclosed]
          exact fun hfd => absurd (hfd ▸ hnonneg) (by decide)
        have hfits := inTurns.fits t
        rw [htask] at hwork hfits
        cases hjob : s.jobs t with
        | handler func missed found =>
          rw [hjob] at hwork
          obtain ⟨-, -, hworld⟩ := work_handler hwork
          rw [hworld, World.perform, invoke_other hfd]
        | _ => rw [hjob] at hfits; exact hfits.elim
      · exact work_callbacks hwork fun event tps todo htask => hhandler ⟨event, tps, todo, htask⟩

end Threaded

end

namespace Threaded

variable {T : Type} [DecidableEq T] (w : World proto) (ops : List (ThreadedOp T))

/-- Whatever the threads do, `on_connect` and `on_disconnect` return at most once each after they
were set. -/
theorem once_run (s : Threaded T proto)
    (hrun : exec (next pton user c) (initial c w) ops = some s) (role : Role)
    (once : role.once = true) :
    returned user c role s.world.trace ≤
      returned user c role w.trace + if ((w.clients c).callback role).isSome then 1 else 0 := by
  rw [(inTurns_run hrun).trace]
  exact (Nat.le_add_right _ _).trans (replay_allowance once w s.log)

/-- The table stands still while a thread is in the loop of `proceed`, and what the thread ran of
the batch that the poll gave it last are handlers registered for the types of its events, in the
order of the events and of the dispatch. -/
theorem handled_run (single : OverSingles (w.clients c).handlers) (s : Threaded T proto)
    (hrun : exec (next pton user c) (initial c w) ops = some s) (t : T)
    (inLoop : (s.locks.tasks t).readsObserver = true) :
    (∃ events, (batches t ops).getLast? = some events ∧
        (ran t s.log).Sublist (registeredFor (s.world.clients c).handlers events)) ∧
      ∀ op s', s.next pton user c op = some s' →
        (s'.world.clients c).handlers = (s.world.clients c).handlers := by
  have inTurns := inTurns_run hrun
  refine ⟨?_, fun op s' hstep => steady_next inTurns hstep inLoop⟩
  obtain ⟨rest, hrest⟩ : ∃ rest, ahead (s.world.clients c).handlers (s.locks.tasks t) (s.jobs t) =
      some rest := by
    have hfits := inTurns.fits t
    cases htask : s.locks.tasks t with
    | dispatch todo => exact ⟨_, rfl⟩
    | handler event tps todo =>
      rw [htask] at hfits
      cases hjob : s.jobs t with
      | handler func missed found => exact ⟨_, rfl⟩
      | _ => rw [hjob] at hfits; exact hfits.elim
    | _ => rw [htask] at inLoop; cases inLoop
  obtain ⟨events, hbatch, hsub⟩ := ((handling_run single hrun).progress t).ahead rest hrest
  exact ⟨events, hbatch, (List.sublist_append_left _ _).trans hsub⟩

/-- From when `stop` takes the mutex to when the next `start` does, no thread invokes a callback,
whatever batches of events are under way. -/
theorem silenced_run (open_fds : ∀ t events, ThreadedOp.proceed t events ∈ ops →
      ∀ event ∈ events, 0 ≤ event.fd) :
    Along (next pton user c) (Silenced pton user c) (initial c w) ops := by
  have gives : ∀ op ∈ ops, op.Gives fun _ event => 0 ≤ event.fd := by
    intro op hop
    cases op with
    | proceed t events => exact open_fds t events hop
    | _ => trivial
  let Inv : Threaded T proto → Prop := fun s =>
    InTurns pton user c w s ∧ Given (fun _ event => 0 ≤ event.fd) s
  have start : Inv (initial c w) :=
    ⟨initial_inTurns w, fun _ _ h => (by cases h)⟩
  refine Along.of_along (fun s op s' (h : Inv s) hop hstep => ?_) (fun s op h _ => ?_) start
    (along_of_mem gives (initial c w))
  · exact ⟨inTurns_next h.1 hstep, given_next h.2 hop hstep⟩
  · exact silenced_step h.1 h.2 op

end Threaded

/-! ### Two threads -/

/-- A client that has connected. -/
def sharedTcp : World tcp :=
  [.start (.ok 3) true, .connect (loopbackArgs 80 1) (.ok ()) (loopbackArgs 80 1)].foldl
    (fun w op => (w.act loopbackPton (fun _ => .ok ()) 0 op).2)
    (.initial (fun _ => 2) fun _ => none)

/-- Two threads have the same event in hand, and both get to handle it. -/
def bothRun : List (ThreadedOp Nat) :=
  [.proceed 0 [writable], .proceed 1 [writable]] ++ List.replicate 5 (.run 0) ++
    List.replicate 11 (.run 1) ++ List.replicate 6 (.run 0)

theorem bothRun_runs :
    (exec (Threaded.next loopbackPton (fun _ => .ok ()) 0) (Threaded.initial 0 sharedTcp)
      bothRun).isSome := by
  decide +kernel

theorem once_run_both :
    ∃ s, exec (Threaded.next loopbackPton (fun _ => .ok ()) 0) (Threaded.initial 0 sharedTcp)
        bothRun = some s ∧ returned (fun _ => .ok ()) 0 .onConnect s.world.trace ≤ 1 := by
  obtain ⟨s, hrun⟩ := Option.isSome_iff_exists.mp bothRun_runs
  have h := Threaded.once_run loopbackPton (fun _ => .ok ()) 0 sharedTcp bothRun s hrun
    .onConnect rfl
  exact ⟨s, hrun, h.trans (by decide)⟩

theorem sharedTcp_over : OverSingles (sharedTcp.clients 0).handlers := by
  have fresh : Registered 0 (World.initial (fun _ => 2) fun _ => none : World tcp) :=
    fun _ _ hfunc => by cases hfunc
  exact registered_over (registered_act loopbackPton _ (registered_act loopbackPton _ fresh _) _)

/-- Both threads are in their loops, and the second one has run what its event has a handler for. -/
theorem handled_run_both :
    ∃ s, exec (Threaded.next loopbackPton (fun _ => .ok ()) 0) (Threaded.initial 0 sharedTcp)
        (bothRun.take 11) = some s ∧ Threaded.ran 1 s.log = [(.writeReady, 3)] ∧
      (∃ events, (Threaded.batches 1 (bothRun.take 11)).getLast? = some events ∧
        (Threaded.ran 1 s.log).Sublist
          (registeredFor (s.world.clients 0).handlers events)) ∧
      ∀ op s', s.next loopbackPton (fun _ => .ok ()) 0 op = some s' →
        (s'.world.clients 0).handlers = (s.world.clients 0).handlers := by
  have hloops : (exec (Threaded.next loopbackPton (fun _ => .ok ()) 0)
      (Threaded.initial 0 sharedTcp) (bothRun.take 11)).map
        (fun s => ((s.locks.tasks 1).readsObserver, Threaded.ran 1 s.log)) =
      some (true, [(.writeReady, 3)]) := by
    decide +kernel
  obtain ⟨s, hrun, hs⟩ := Option.map_eq_some_iff.mp hloops
  obtain ⟨inLoop, hran⟩ := Prod.mk.inj hs
  exact ⟨s, hrun, hran, Threaded.handled_run loopbackPton (fun _ => .ok ()) 0 sharedTcp
    (bothRun.take 11) sharedTcp_over s hrun 1 inLoop⟩

/-- A thread has events in hand, and gets to handle them after another one has stopped the
client. -/
def staleRun : List (ThreadedOp Nat) :=
  [.proceed 1 [writable], .stop 0] ++ List.replicate 12 (.run 0) ++ List.replicate 11 (.run 1)

theorem silenced_run_stale :
    Along (Threaded.next loopbackPton (fun _ => .ok ()) 0)
      (Threaded.Silenced loopbackPton (fun _ => .ok ()) 0) (Threaded.initial 0 sharedTcp)
      staleRun := by
  refine Threaded.silenced_run loopbackPton (fun _ => .ok ()) 0 sharedTcp staleRun ?_
  intro t events hmem event hevent
  simp [staleRun] at hmem
  obtain ⟨-, rfl⟩ := hmem
  simp only [List.mem_singleton] at hevent
  rw [hevent]
  decide

end TypedSockets.Endpoint
