import TypedSockets.Endpoint.Server
import TypedSockets.Lib.Locks
import TypedSockets.Lib.Run

/-! The two mutexes of an endpoint, under any number of threads that call `start`, `stop` and
`proceed`: that of `client_t` or `server_t`, and the shared one of `event_observer_t`. -/

namespace TypedSockets.Endpoint

open TypedSockets.Socket TypedSockets.Epoll TypedSockets.Lib

/-- `add` or `remove`.  Which handler is added does not matter here: each of them takes the mutex of
the endpoint first and releases it last. -/
inductive ObserverCall where
  | add (event : EventType)
  | remove (event : EventType)
  deriving DecidableEq

def ObserverCall.apply (table : Handlers Unit) : ObserverCall → Handlers Unit
  | add event => (table.add event ()).2
  | remove event => (table.remove event).2

inductive EndpointClass where
  | client
  | server

namespace EndpointClass

def registerCbs : EndpointClass → List ObserverCall
  | client => World.cbs.map fun cb => .add cb.1
  | server => Host.cbs.map fun cb => .add cb.1

def unregisterCbs : EndpointClass → List ObserverCall
  | client => World.uncbs.map .remove
  | server => Host.uncbs.map .remove

end EndpointClass

/-- Where a thread is in a call. -/
inductive Task where
  | idle
  /-- In `start` or `stop`, before the mutex of the endpoint, with the calls on the observer that are
  to be made. -/
  | control (calls : List ObserverCall)
  /-- In `start` or `stop`, with the mutex of the endpoint. -/
  | owner (calls : List ObserverCall)
  /-- In `add` or `remove`, with the mutex of the observer as well. -/
  | table (call : ObserverCall) (calls : List ObserverCall)
  /-- In `proceed`, with the events of the poll, before the mutex of the observer. -/
  | polled (events : List Event)
  /-- In the loop of `proceed`, with the types of each event that are still to be tried. -/
  | dispatch (todo : List (Event × List EventType))
  /-- In a handler, with the mutex of the endpoint as well. -/
  | handler (event : Event) (tps : List EventType) (todo : List (Event × List EventType))

namespace Task

def ownsEndpoint : Task → Bool
  | owner _ => true
  | table _ _ => true
  | handler _ _ _ => true
  | _ => false

def writesObserver : Task → Bool
  | table _ _ => true
  | _ => false

def readsObserver : Task → Bool
  | dispatch _ => true
  | handler _ _ _ => true
  | _ => false

end Task

/-- The mutexes and the table of handlers of one endpoint, and its threads. -/
structure Threads (T : Type) where
  endpoint : Mutex T
  observer : SharedMutex T
  table : Handlers Unit
  tasks : T → Task

/-- A thread calls a function of the endpoint, or goes on with its call.  `registers` says that
`start` gets to `register_cbs`, and `throws` that the handler throws. -/
inductive ThreadOp (T : Type) where
  | start (t : T) (registers : Bool)
  | stop (t : T)
  | proceed (t : T) (events : List Event)
  | run (t : T) (throws : Bool)

inductive LockName where
  | endpoint
  | observer
  deriving DecidableEq

namespace Threads

variable {T : Type} [DecidableEq T]

def initial : Threads T := ⟨none, .free, .empty, fun _ => .idle⟩

def become (s : Threads T) (t : T) (task : Task) : Threads T :=
  { s with tasks := Function.update s.tasks t task }

/-- The next atomic step of a call: it takes a mutex, releases one, or looks a type up.  A thread
that cannot take a mutex has no step. -/
def advance (s : Threads T) (t : T) (throws : Bool) : Option (Threads T) :=
  match s.tasks t with
  | .idle => none
  | .control calls =>
    (s.endpoint.lock t).map fun m => { s with endpoint := m }.become t (.owner calls)
  | .owner [] => some ({ s with endpoint := none }.become t .idle)
  | .owner (call :: calls) =>
    (s.observer.lock t).map fun m => { s with observer := m }.become t (.table call calls)
  | .table call calls =>
    some ({ s with observer := s.observer.unlock, table := call.apply s.table }.become t
      (.owner calls))
  | .polled events =>
    (s.observer.lockShared t).map fun m =>
      { s with observer := m }.become t (.dispatch (events.map fun event => (event, dispatchOrder)))
  | .dispatch [] => some ({ s with observer := s.observer.unlockShared t }.become t .idle)
  | .dispatch ((_, []) :: todo) => some (s.become t (.dispatch todo))
  | .dispatch ((event, tp :: tps) :: todo) =>
    match s.table (event.type &&& tp) with
    | none => some (s.become t (.dispatch ((event, tps) :: todo)))
    | some () =>
      (s.endpoint.lock t).map fun m => { s with endpoint := m }.become t (.handler event tps todo)
  | .handler event tps todo =>
    some ({ s with endpoint := none }.become t
      (.dispatch (if throws then todo else (event, tps) :: todo)))

def next (cls : EndpointClass) (s : Threads T) : ThreadOp T → Option (Threads T)
  | .start t registers =>
    match s.tasks t with
    | .idle => some (s.become t (.control (if registers then cls.registerCbs else [])))
    | _ => none
  | .stop t =>
    match s.tasks t with
    | .idle => some (s.become t (.control cls.unregisterCbs))
    | _ => none
  | .proceed t events =>
    match s.tasks t with
    | .idle => some (s.become t (.polled events))
    | _ => none
  | .run t throws => s.advance t throws

/-- The mutex that the next step of the thread takes. -/
def wants (s : Threads T) (t : T) : Option LockName :=
  match s.tasks t with
  | .control _ => some .endpoint
  | .owner (_ :: _) => some .observer
  | .polled _ => some .observer
  | .dispatch ((event, tp :: _) :: _) => (s.table (event.type &&& tp)).map fun _ => .endpoint
  | _ => none

def Waits (s : Threads T) (t : T) (l : LockName) : Prop :=
  s.wants t = some l ∧ s.advance t false = none

def Holds (s : Threads T) (t : T) : LockName → Prop
  | .endpoint => s.endpoint = some t
  | .observer => s.observer.Owns t

/-- No threads wait for one another. -/
def DeadlockFree (s : Threads T) : Prop := ∀ ts : Set T, ¬CyclicWait s.Waits s.Holds ts

/-- The thread is inside `start` or `stop` with calls on the observer to make. -/
def Controlling (s : Threads T) (t : T) : Prop := ∃ call calls, s.tasks t = .owner (call :: calls)

/-- One of the types leads to a handler. -/
def Found (s : Threads T) (event : Event) (tps : List EventType) : Prop :=
  ∃ tp ∈ tps, (s.table (event.type &&& tp)).isSome

/-- The thread is inside the loop of `proceed` with a handler to call. -/
def Dispatching (s : Threads T) (t : T) : Prop :=
  ∃ todo, s.tasks t = .dispatch todo ∧ ∃ entry ∈ todo, s.Found entry.1 entry.2

/-- `start` and `stop` take the mutex of the endpoint, when they have calls on the observer to make,
while no thread is in the loop of `proceed` with a handler to call; and `proceed` takes the mutex of
the observer, when it has a handler to call, while no thread is in `start` or `stop` with calls on
the observer to make. -/
def Orderly (s : Threads T) : ThreadOp T → Prop
  | .run t _ =>
    match s.tasks t with
    | .control (_ :: _) => s.endpoint = none → ∀ u, ¬s.Dispatching u
    | .polled events => (∃ event ∈ events, s.Found event dispatchOrder) → ∀ u, ¬s.Controlling u
    | _ => True
  | _ => True

/-! ### What a step does -/

/-- The steps of a call, each with the task that it starts from and what it needs. -/
inductive Step (s : Threads T) (t : T) : Threads T → Prop where
  | takeEndpoint {calls : List ObserverCall} (task : s.tasks t = .control calls)
      (free : s.endpoint = none) :
      Step s t ({ s with endpoint := some t }.become t (.owner calls))
  | leaveEndpoint (task : s.tasks t = .owner []) :
      Step s t ({ s with endpoint := none }.become t .idle)
  | takeObserver {call : ObserverCall} {calls : List ObserverCall}
      (task : s.tasks t = .owner (call :: calls)) (free : s.observer.writer = none)
      (unshared : s.observer.readers = ∅) :
      Step s t ({ s with observer := ⟨some t, ∅⟩ }.become t (.table call calls))
  | leaveObserver {call : ObserverCall} {calls : List ObserverCall}
      (task : s.tasks t = .table call calls) :
      Step s t ({ s with observer := s.observer.unlock, table := call.apply s.table }.become t
        (.owner calls))
  | shareObserver {events : List Event} (task : s.tasks t = .polled events)
      (free : s.observer.writer = none) :
      Step s t ({ s with observer := { s.observer with readers := insert t s.observer.readers }
        }.become t (.dispatch (events.map fun event => (event, dispatchOrder))))
  | unshareObserver (task : s.tasks t = .dispatch []) :
      Step s t ({ s with observer := s.observer.unlockShared t }.become t .idle)
  | nextEvent {event : Event} {todo : List (Event × List EventType)}
      (task : s.tasks t = .dispatch ((event, []) :: todo)) :
      Step s t (s.become t (.dispatch todo))
  | nextType {event : Event} {tp : EventType} {tps : List EventType}
      {todo : List (Event × List EventType)}
      (task : s.tasks t = .dispatch ((event, tp :: tps) :: todo)) :
      Step s t (s.become t (.dispatch ((event, tps) :: todo)))
  | enterHandler {event : Event} {tp : EventType} {tps : List EventType}
      {todo : List (Event × List EventType)}
      (task : s.tasks t = .dispatch ((event, tp :: tps) :: todo)) (free : s.endpoint = none) :
      Step s t ({ s with endpoint := some t }.become t (.handler event tps todo))
  | leaveHandler {event : Event} {tps : List EventType} {todo : List (Event × List EventType)}
      (task : s.tasks t = .handler event tps todo) (throws : Bool) :
      Step s t ({ s with endpoint := none }.become t
        (.dispatch (if throws then todo else (event, tps) :: todo)))

theorem step_of_advance {s s' : Threads T} {t : T} {throws : Bool}
    (h : s.advance t throws = some s') : Step s t s' := by
  unfold Threads.advance at h
  split at h <;> rename_i task
  · cases h
  · obtain ⟨m, hm, rfl⟩ := Option.map_eq_some_iff.mp h
    obtain ⟨hfree, hlock⟩ := Mutex.lock_eq_some.mp hm
    rw [hlock]
    exact .takeEndpoint task hfree
  · cases h
    exact .leaveEndpoint task
  · obtain ⟨m, hm, rfl⟩ := Option.map_eq_some_iff.mp h
    obtain ⟨hfree, hunshared, rfl⟩ := SharedMutex.lock_eq_some.mp hm
    exact .takeObserver task hfree hunshared
  · cases h
    exact .leaveObserver task
  · obtain ⟨m, hm, rfl⟩ := Option.map_eq_some_iff.mp h
    obtain ⟨hfree, rfl⟩ := SharedMutex.lockShared_eq_some.mp hm
    exact .shareObserver task hfree
  · cases h
    exact .unshareObserver task
  · cases h
    exact .nextEvent task
  · split at h
    · cases h
      exact .nextType task
    · obtain ⟨m, hm, rfl⟩ := Option.map_eq_some_iff.mp h
      obtain ⟨hfree, rfl⟩ := Mutex.lock_eq_some.mp hm
      exact .enterHandler task hfree
  · cases h
    exact .leaveHandler task throws

/-! ### The mutexes and the tasks agree -/

/-- A thread owns the mutexes that its task says it owns. -/
structure Consistent (s : Threads T) : Prop where
  endpoint : ∀ u, s.endpoint = some u ↔ (s.tasks u).ownsEndpoint = true
  writer : ∀ u, s.observer.writer = some u ↔ (s.tasks u).writesObserver = true
  readers : ∀ u, u ∈ s.observer.readers ↔ (s.tasks u).readsObserver = true
  exclusive : s.observer.writer ≠ none → s.observer.readers = ∅

omit [DecidableEq T] in
theorem initial_consistent : Consistent (initial : Threads T) where
  endpoint := by simp [initial, Task.ownsEndpoint]
  writer := by simp [initial, SharedMutex.free, Task.writesObserver]
  readers := by simp [initial, SharedMutex.free, Task.readsObserver]
  exclusive := by simp [initial, SharedMutex.free]

/-- One thread goes on: what the others own stays with them. -/
theorem Consistent.become {s : Threads T} (h : Consistent s) {t : T} {task : Task} {m : Mutex T}
    {o : SharedMutex T} {table : Handlers Unit}
    (endpoint : (m = some t ↔ task.ownsEndpoint = true) ∧
      ∀ u, u ≠ t → (m = some u ↔ s.endpoint = some u))
    (writer : (o.writer = some t ↔ task.writesObserver = true) ∧
      ∀ u, u ≠ t → (o.writer = some u ↔ s.observer.writer = some u))
    (readers : (t ∈ o.readers ↔ task.readsObserver = true) ∧
      ∀ u, u ≠ t → (u ∈ o.readers ↔ u ∈ s.observer.readers))
    (exclusive : o.writer ≠ none → o.readers = ∅) :
    Consistent (Threads.become ⟨m, o, table, s.tasks⟩ t task) := by
  refine ⟨fun u => ?_, fun u => ?_, fun u => ?_, exclusive⟩
  all_goals
    by_cases hu : u = t
    · subst hu
      simp only [Threads.become, Function.update_self]
      first | exact endpoint.1 | exact writer.1 | exact readers.1
    · simp only [Threads.become, Function.update_of_ne hu]
      first
        | exact (endpoint.2 u hu).trans (h.endpoint u)
        | exact (writer.2 u hu).trans (h.writer u)
        | exact (readers.2 u hu).trans (h.readers u)

theorem Consistent.step {s s' : Threads T} (h : Consistent s) {t : T} (hstep : Step s t s') :
    Consistent s' := by
  have hend := h.endpoint t
  have hwr := h.writer t
  have hrd := h.readers t
  have hex := h.exclusive
  cases hstep <;> rename_i task <;> refine h.become ?_ ?_ ?_ ?_
  all_goals
    grind [Task.ownsEndpoint, Task.writesObserver, Task.readsObserver, SharedMutex.unlock,
      SharedMutex.unlockShared]

/-! ### The two orders of the mutexes stay apart -/

/-- No thread is in `start` or `stop` with calls on the observer to make while another one is in the
loop of `proceed` with a handler to call. -/
def Apart (s : Threads T) : Prop := ∀ t u, s.Controlling t → ¬s.Dispatching u

section

variable {s : Threads T} {t u : T} {task : Task} {m : Mutex T} {o : SharedMutex T}
  {table : Handlers Unit}

theorem controlling_become
    (h : (Threads.become ⟨m, o, table, s.tasks⟩ t task).Controlling u) :
    (u = t ∧ ∃ call calls, task = .owner (call :: calls)) ∨ (u ≠ t ∧ s.Controlling u) := by
  obtain ⟨call, calls, htask⟩ := h
  by_cases hu : u = t
  · subst hu
    exact Or.inl ⟨rfl, call, calls, by simpa [Threads.become] using htask⟩
  · exact Or.inr ⟨hu, call, calls, by simpa [Threads.become, hu] using htask⟩

theorem dispatching_become
    (h : (Threads.become ⟨m, o, s.table, s.tasks⟩ t task).Dispatching u) :
    (u = t ∧ ∃ todo, task = .dispatch todo ∧ ∃ entry ∈ todo, s.Found entry.1 entry.2) ∨
      (u ≠ t ∧ s.Dispatching u) := by
  obtain ⟨todo, htask, hfound⟩ := h
  by_cases hu : u = t
  · subst hu
    exact Or.inl ⟨rfl, todo, by simpa [Threads.become] using htask, hfound⟩
  · exact Or.inr ⟨hu, todo, by simpa [Threads.become, hu] using htask, hfound⟩

/-- A step of a thread that is then in neither of the two. -/
theorem Apart.become (h : Apart s) (owner : ∀ call calls, task ≠ .owner (call :: calls))
    (dispatch : ∀ todo, task ≠ .dispatch todo) :
    Apart (Threads.become ⟨m, o, s.table, s.tasks⟩ t task) := by
  intro v u hv hu
  rcases controlling_become hv with ⟨-, call, calls, heq⟩ | ⟨-, hv⟩
  · exact owner call calls heq
  rcases dispatching_become hu with ⟨-, todo, heq, -⟩ | ⟨-, hu⟩
  · exact dispatch todo heq
  · exact h v u hv hu

/-- A step inside the loop of `proceed` that leaves no more to do than before. -/
theorem Apart.dispatch (h : Apart s) {todo todo' : List (Event × List EventType)}
    (task : s.tasks t = .dispatch todo)
    (fewer : (∃ entry ∈ todo', s.Found entry.1 entry.2) → ∃ entry ∈ todo, s.Found entry.1 entry.2) :
    Apart (Threads.become ⟨m, o, s.table, s.tasks⟩ t (.dispatch todo')) := by
  intro v u hv hu
  rcases controlling_become hv with ⟨-, call, calls, heq⟩ | ⟨-, hcontrol⟩
  · cases heq
  rcases dispatching_become hu with ⟨rfl, todo, heq, hfound⟩ | ⟨-, hdispatch⟩
  · cases heq
    exact h v u hcontrol ⟨_, task, fewer hfound⟩
  · exact h v u hcontrol hdispatch

end

omit [DecidableEq T] in
theorem Consistent.controlling {s : Threads T} (h : Consistent s) {t : T}
    (ht : s.Controlling t) : s.endpoint = some t := by
  obtain ⟨call, calls, htask⟩ := ht
  rw [h.endpoint, htask]
  rfl

theorem Apart.step {s s' : Threads T} (h : Apart s) (consistent : Consistent s) {t : T}
    {throws : Bool} (orderly : s.Orderly (.run t throws)) (hstep : Step s t s') : Apart s' := by
  cases hstep with
  | takeEndpoint task free =>
    simp only [Threads.Orderly, task] at orderly
    intro v u hv hu
    rcases dispatching_become hu with ⟨-, todo, heq, -⟩ | ⟨-, hdispatch⟩
    · cases heq
    rcases controlling_become hv with ⟨-, call, calls, heq⟩ | ⟨-, hcontrol⟩
    · cases heq
      exact orderly free u hdispatch
    · exact h v u hcontrol hdispatch
  | leaveEndpoint task => exact h.become (by simp) (by simp)
  | takeObserver task free unshared => exact h.become (by simp) (by simp)
  | leaveObserver task =>
    -- while the observer is owned nobody is in the loop of `proceed`
    intro v u hv hu
    obtain ⟨todo, htask, -⟩ := hu
    have hwriter : s.observer.writer = some t := by
      rw [consistent.writer, task]
      rfl
    have hnobody := consistent.exclusive (by simp [hwriter])
    have hne : u ≠ t := by
      rintro rfl
      simp [Threads.become] at htask
    have hreader : u ∈ s.observer.readers := by
      rw [consistent.readers]
      simp only [Threads.become, Function.update_of_ne hne] at htask
      rw [htask]
      rfl
    rw [hnobody] at hreader
    exact absurd hreader (Finset.notMem_empty u)
  | shareObserver task free =>
    simp only [Threads.Orderly, task] at orderly
    intro v u hv hu
    rcases controlling_become hv with ⟨-, call, calls, heq⟩ | ⟨-, hv⟩
    · cases heq
    rcases dispatching_become hu with ⟨-, todo, heq, entry, hmem, hfound⟩ | ⟨-, hu⟩
    · cases heq
      obtain ⟨event, hevent, rfl⟩ := List.mem_map.mp hmem
      exact orderly ⟨event, hevent, hfound⟩ v hv
    · exact h v u hv hu
  | unshareObserver task => exact h.become (by simp) (by simp)
  | nextEvent task =>
    refine h.dispatch task ?_
    rintro ⟨entry, hmem, hfound⟩
    exact ⟨entry, List.mem_cons_of_mem _ hmem, hfound⟩
  | nextType task =>
    refine h.dispatch task ?_
    rintro ⟨entry, hmem, hfound⟩
    rcases List.mem_cons.mp hmem with rfl | hmem
    · obtain ⟨tp, htp, hsome⟩ := hfound
      exact ⟨_, List.mem_cons_self, tp, List.mem_cons_of_mem _ htp, hsome⟩
    · exact ⟨entry, List.mem_cons_of_mem _ hmem, hfound⟩
  | enterHandler task free => exact h.become (by simp) (by simp)
  | leaveHandler task throws =>
    -- the thread owns the mutex of the endpoint until now, so nobody else is in `start` or `stop`
    intro v u hv hu
    rcases controlling_become hv with ⟨-, call, calls, heq⟩ | ⟨hne, hv⟩
    · cases heq
    have howner : s.endpoint = some t := by
      rw [consistent.endpoint, task]
      rfl
    rw [consistent.controlling hv] at howner
    exact hne (Option.some.inj howner)

/-! ### No deadlock -/

theorem waits_endpoint {s : Threads T} {t : T} (h : s.Waits t .endpoint) :
    (s.tasks t).ownsEndpoint = false ∧ (s.tasks t).writesObserver = false ∧
      ((s.tasks t).readsObserver = true → s.Dispatching t) := by
  obtain ⟨hwants, -⟩ := h
  unfold Threads.wants at hwants
  split at hwants <;> rename_i htask
  · simp [htask, Task.ownsEndpoint, Task.writesObserver, Task.readsObserver]
  · cases hwants
  · cases hwants
  · rename_i event tp tps todo
    refine ⟨by rw [htask]; rfl, by rw [htask]; rfl, fun _ => ⟨_, htask, _, List.mem_cons_self, ?_⟩⟩
    obtain ⟨_, hsome, -⟩ := Option.map_eq_some_iff.mp hwants
    exact ⟨tp, List.mem_cons_self, by rw [hsome]; rfl⟩
  · cases hwants

theorem waits_observer {s : Threads T} {t : T} (h : s.Waits t .observer) :
    (s.tasks t).writesObserver = false ∧ (s.tasks t).readsObserver = false ∧
      ((s.tasks t).ownsEndpoint = true → s.Controlling t) := by
  obtain ⟨hwants, -⟩ := h
  unfold Threads.wants at hwants
  split at hwants <;> rename_i htask
  · cases hwants
  · exact ⟨by rw [htask]; rfl, by rw [htask]; rfl, fun _ => ⟨_, _, htask⟩⟩
  · simp [htask, Task.ownsEndpoint, Task.writesObserver, Task.readsObserver]
  · simp at hwants
  · cases hwants

omit [DecidableEq T] in
theorem Consistent.holds_endpoint {s : Threads T} (h : Consistent s) {t : T}
    (hholds : s.Holds t .endpoint) : (s.tasks t).ownsEndpoint = true := (h.endpoint t).mp hholds

omit [DecidableEq T] in
theorem Consistent.holds_observer {s : Threads T} (h : Consistent s) {t : T}
    (hholds : s.Holds t .observer) :
    (s.tasks t).writesObserver = true ∨ (s.tasks t).readsObserver = true :=
  hholds.imp (h.writer t).mp (h.readers t).mp

/-- The order in which the threads take the mutexes, when no thread is in the loop of `proceed` with
a handler to call. -/
def controlRank : LockName → Nat
  | .endpoint => 0
  | .observer => 1

/-- The order in which they take them, when no thread is in `start` or `stop` with calls on the
observer to make. -/
def dispatchRank : LockName → Nat
  | .observer => 0
  | .endpoint => 1

theorem deadlockFree_of_apart {s : Threads T} (consistent : Consistent s) (apart : Apart s) :
    s.DeadlockFree := by
  intro ts
  by_cases hcontrol : ∃ v, s.Controlling v
  · obtain ⟨v, hv⟩ := hcontrol
    refine not_cyclicWait controlRank 1 (fun l => by cases l <;> decide) ?_ ts
    intro t l l' hholds hwaits
    cases l' with
    | endpoint =>
      obtain ⟨howns, hwrites, hreads⟩ := waits_endpoint hwaits
      cases l with
      | endpoint => simp [consistent.holds_endpoint hholds] at howns
      | observer =>
        rcases consistent.holds_observer hholds with hw | hr
        · simp [hw] at hwrites
        · exact absurd (hreads hr) (apart v t hv)
    | observer =>
      obtain ⟨hwrites, hreads, -⟩ := waits_observer hwaits
      cases l with
      | endpoint => decide
      | observer => rcases consistent.holds_observer hholds with hw | hr <;> simp_all
  · refine not_cyclicWait dispatchRank 1 (fun l => by cases l <;> decide) ?_ ts
    intro t l l' hholds hwaits
    cases l' with
    | endpoint =>
      obtain ⟨howns, -, -⟩ := waits_endpoint hwaits
      cases l with
      | endpoint => simp [consistent.holds_endpoint hholds] at howns
      | observer => decide
    | observer =>
      obtain ⟨hwrites, hreads, howns⟩ := waits_observer hwaits
      cases l with
      | endpoint => exact absurd ⟨t, howns (consistent.holds_endpoint hholds)⟩ hcontrol
      | observer => rcases consistent.holds_observer hholds with hw | hr <;> simp_all

/-! ### Runs -/

/-- A call begins, or goes on by one step. -/
theorem next_cases {cls : EndpointClass} {s s' : Threads T} {op : ThreadOp T}
    (h : s.next cls op = some s') :
    (∃ t task, s.tasks t = .idle ∧ s' = s.become t task ∧ task.ownsEndpoint = false ∧
      task.writesObserver = false ∧ task.readsObserver = false) ∨
    ∃ t throws, op = .run t throws ∧ Step s t s' := by
  cases op with
  | run t throws => exact Or.inr ⟨t, throws, rfl, step_of_advance h⟩
  | _ t =>
    left
    simp only [Threads.next] at h
    split at h
    · rename_i hidle
      cases h
      exact ⟨t, _, hidle, rfl, rfl, rfl, rfl⟩
    · cases h

theorem Consistent.next {cls : EndpointClass} {s s' : Threads T} (h : Consistent s)
    {op : ThreadOp T} (hstep : s.next cls op = some s') : Consistent s' := by
  rcases next_cases hstep with ⟨t, task, hidle, rfl, hend, hwr, hrd⟩ | ⟨t, throws, -, hstep⟩
  · have hend' := h.endpoint t
    have hwr' := h.writer t
    have hrd' := h.readers t
    rw [hidle] at hend' hwr' hrd'
    refine h.become ⟨?_, fun _ _ => Iff.rfl⟩ ⟨?_, fun _ _ => Iff.rfl⟩ ⟨?_, fun _ _ => Iff.rfl⟩
      h.exclusive
    · rw [hend', hend]
      rfl
    · rw [hwr', hwr]
      rfl
    · rw [hrd', hrd]
      rfl
  · exact h.step hstep

theorem Apart.next {cls : EndpointClass} {s s' : Threads T} (h : Apart s)
    (consistent : Consistent s) {op : ThreadOp T} (orderly : s.Orderly op)
    (hstep : s.next cls op = some s') : Apart s' := by
  rcases next_cases hstep with ⟨t, task, -, rfl, hend, -, hrd⟩ | ⟨t, throws, rfl, hrun⟩
  · refine h.become ?_ ?_
    · rintro call calls rfl
      cases hend
    · rintro todo rfl
      cases hrd
  · exact h.step consistent orderly hrun

/-- Threads that call `start`, `stop` and `proceed` of one endpoint, with any events and any
interleaving, do not deadlock while they take the mutexes in an orderly way. -/
theorem deadlockFree_run (cls : EndpointClass) {ops : List (ThreadOp T)}
    (orderly : Along (Threads.next cls) Threads.Orderly initial ops) :
    Always (Threads.next cls) Threads.DeadlockFree initial ops := by
  have hinitial : Consistent (initial : Threads T) ∧ Apart (initial : Threads T) := by
    refine ⟨initial_consistent, ?_⟩
    rintro t u ⟨call, calls, htask⟩
    cases htask
  have hrun : Always (Threads.next cls) (fun s : Threads T => Consistent s ∧ Apart s) initial ops :=
    Always.of_along (fun s op s' (h : Consistent s ∧ Apart s) (hop : s.Orderly op) hstep =>
      ⟨h.1.next hstep, h.2.next h.1 hop hstep⟩) hinitial orderly
  exact hrun.mono fun s h => deadlockFree_of_apart h.1 h.2

/-! ### Without the order -/

/-- A thread in `start` or `stop` and one at a handler, each with a mutex that the other one
needs. -/
theorem not_deadlockFree {s : Threads T} (consistent : Consistent s) {v u : T}
    (control : s.Controlling v) {event : Event} {tp : EventType} {tps : List EventType}
    {todo : List (Event × List EventType)}
    (task : s.tasks u = .dispatch ((event, tp :: tps) :: todo))
    (found : (s.table (event.type &&& tp)).isSome) : ¬s.DeadlockFree := by
  have hreader : u ∈ s.observer.readers := by
    rw [consistent.readers, task]
    rfl
  have howner : s.endpoint = some v := consistent.controlling control
  obtain ⟨call, calls, htask⟩ := control
  obtain ⟨func, hfunc⟩ := Option.isSome_iff_exists.mp found
  have hne : u ≠ v := by
    rintro rfl
    rw [htask] at task
    cases task
  have hlock : s.observer.lock v = none := by
    rw [SharedMutex.lock, if_neg]
    rintro ⟨-, hempty⟩
    rw [hempty] at hreader
    exact Finset.notMem_empty u hreader
  intro hfree
  refine hfree {v, u} ⟨⟨v, by simp⟩, ?_⟩
  rintro t (rfl | rfl)
  · refine ⟨.observer, ⟨?_, ?_⟩, u, by simp, hne, Or.inr hreader⟩
    · simp [Threads.wants, htask]
    · simp [Threads.advance, htask, hlock]
  · refine ⟨.endpoint, ⟨?_, ?_⟩, v, by simp, hne.symm, howner⟩
    · simp [Threads.wants, task, hfunc]
    · simp [Threads.advance, task, hfunc, howner, Mutex.lock]

/-- A lookup of one thread leaves the others where they are. -/
theorem Controlling.become {s : Threads T} {v u : T} {todo todo' : List (Event × List EventType)}
    (h : s.Controlling v) (task : s.tasks u = .dispatch todo) :
    (s.become u (.dispatch todo')).Controlling v := by
  obtain ⟨call, calls, htask⟩ := h
  have hne : v ≠ u := by
    rintro rfl
    rw [htask] at task
    cases task
  exact ⟨call, calls, by simp [Threads.become, hne, htask]⟩

/-- A thread in the loop of `proceed` with a handler to call gets to it by lookups, while another
thread is in `start` or `stop` with calls on the observer to make. -/
theorem deadlock_of_both (cls : EndpointClass) {s : Threads T} (consistent : Consistent s)
    {v u : T} (control : s.Controlling v) {todo : List (Event × List EventType)}
    (task : s.tasks u = .dispatch todo) (found : ∃ entry ∈ todo, s.Found entry.1 entry.2) :
    ∃ n s', exec (Threads.next cls) s (List.replicate n (.run u false)) = some s' ∧
      ¬s'.DeadlockFree := by
  -- a lookup that finds nothing, and what follows by induction
  have lookup {s : Threads T} {todo todo' : List (Event × List EventType)}
      (consistent : Consistent s) (control : s.Controlling v) (task : s.tasks u = .dispatch todo)
      (hstep : s.next cls (.run u false) = some (s.become u (.dispatch todo')))
      (ih : ∀ {s : Threads T}, Consistent s → s.Controlling v → s.tasks u = .dispatch todo' →
        (∃ entry ∈ todo', s.Found entry.1 entry.2) → ∃ n s',
          exec (Threads.next cls) s (List.replicate n (.run u false)) = some s' ∧ ¬s'.DeadlockFree)
      (found : ∃ entry ∈ todo', s.Found entry.1 entry.2) :
      ∃ n s', exec (Threads.next cls) s (List.replicate n (.run u false)) = some s' ∧
        ¬s'.DeadlockFree := by
    obtain ⟨n, s', hrun, hfree⟩ := ih (consistent.next hstep) (control.become task)
      (by simp [Threads.become]) found
    exact ⟨n + 1, s', by rw [List.replicate_succ, exec_cons, hstep]; exact hrun, hfree⟩
  induction todo generalizing s with
  | nil => simp at found
  | cons entry todo ih =>
    obtain ⟨event, tps⟩ := entry
    induction tps generalizing s with
    | nil =>
      refine lookup consistent control task (by simp [Threads.next, Threads.advance, task]) ih ?_
      obtain ⟨entry, hmem, hfound⟩ := found
      rcases List.mem_cons.mp hmem with rfl | hmem
      · obtain ⟨tp, htp, -⟩ := hfound
        cases htp
      · exact ⟨entry, hmem, hfound⟩
    | cons tp tps ihtps =>
      cases htp : s.table (event.type &&& tp) with
      | some func => exact ⟨0, s, rfl, not_deadlockFree consistent control task (by simp [htp])⟩
      | none =>
        refine lookup consistent control task (by simp [Threads.next, Threads.advance, task, htp])
          ihtps ?_
        obtain ⟨entry, hmem, hfound⟩ := found
        rcases List.mem_cons.mp hmem with rfl | hmem
        · obtain ⟨tp', htp', hsome⟩ := hfound
          rcases List.mem_cons.mp htp' with rfl | htp'
          · simp [htp] at hsome
          · exact ⟨_, List.mem_cons_self, tp', htp', hsome⟩
        · exact ⟨entry, List.mem_cons_of_mem _ hmem, hfound⟩

/-- A step that is not orderly leads to a deadlock by lookups alone. -/
theorem deadlock_of_not_orderly {cls : EndpointClass} {s s' : Threads T}
    (consistent : Consistent s) {op : ThreadOp T} (disorder : ¬s.Orderly op)
    (hstep : s.next cls op = some s') :
    ∃ u n s'', exec (Threads.next cls) s' (List.replicate n (.run u false)) = some s'' ∧
      ¬s''.DeadlockFree := by
  have consistent' := consistent.next hstep
  cases op with
  | run t throws =>
    have others {v : T} {task : Task} (hv : s.tasks v ≠ s.tasks t) :
        Function.update s.tasks t task v = s.tasks v :=
      Function.update_of_ne (fun heq => hv (congrArg s.tasks heq)) _ _
    cases step_of_advance hstep with
    | takeEndpoint task free =>
      rename_i calls
      simp only [Threads.Orderly, task] at disorder
      cases calls with
      | nil => exact absurd trivial disorder
      | cons call calls =>
        simp only [not_forall, not_not] at disorder
        obtain ⟨-, u, todo, hu, hfound⟩ := disorder
        refine ⟨u, deadlock_of_both cls consistent' ⟨call, calls, Function.update_self ..⟩ ?_
          hfound⟩
        exact (others (by simp [hu, task])).trans hu
    | shareObserver task free =>
      rename_i events
      simp only [Threads.Orderly, task, not_forall, not_not] at disorder
      obtain ⟨⟨event, hevent, hfound⟩, v, call, calls, hv⟩ := disorder
      refine ⟨t, deadlock_of_both cls consistent' (v := v) ⟨call, calls, ?_⟩
        (Function.update_self ..) ⟨_, List.mem_map_of_mem hevent, hfound⟩⟩
      exact (others (by simp [hv, task])).trans hv
    | _ task => simp [Threads.Orderly, task] at disorder
  | _ => exact absurd trivial disorder

/-! ### Two runs -/

def readEvent : Event := ⟨3, .readReady⟩

/-- One thread is in the loop of `proceed`, with no handler to call, when another one enters
`start`. -/
def quietRun : List (ThreadOp Nat) :=
  [.proceed 1 [readEvent], .run 1 false, .start 0 true, .run 0 false]

theorem deadlockFree_run_quiet :
    Always (Threads.next .client) Threads.DeadlockFree initial quietRun := by
  refine deadlockFree_run .client ⟨trivial, ?_⟩
  rintro s ⟨⟩
  refine ⟨?_, ?_⟩
  · rintro ⟨event, -, tp, -, hsome⟩
    cases hsome
  rintro s ⟨⟩
  refine ⟨trivial, ?_⟩
  rintro s ⟨⟩
  refine ⟨?_, fun _ _ => trivial⟩
  rintro - u ⟨todo, -, entry, -, tp, -, hsome⟩
  cases hsome

/-- A client is started. -/
def startRun : List (ThreadOp Nat) := .start 0 true :: List.replicate 14 (.run 0 false)

/-- One thread is in the loop of `proceed`, with a handler to call, when another one enters
`stop`. -/
def stopRun : List (ThreadOp Nat) :=
  startRun ++ [.proceed 1 [readEvent], .run 1 false, .stop 0, .run 0 false]

theorem stopRun_deadlocks :
    ¬Always (Threads.next .client) Threads.DeadlockFree initial stopRun := by
  intro h
  refine h.last rfl {0, 1} ⟨⟨0, by simp⟩, ?_⟩
  rintro t (rfl | rfl)
  · exact ⟨.observer, ⟨rfl, rfl⟩, 1, by simp, by decide, Or.inr (Finset.mem_insert_self 1 ∅)⟩
  · exact ⟨.endpoint, ⟨rfl, rfl⟩, 0, by simp, by decide, rfl⟩

end Threads

end TypedSockets.Endpoint
