import TypedSockets.Endpoint.Locking
import TypedSockets.Endpoint.OwnEvents

/-! The threads of a client, with the data that they work on.  They take the mutexes as `Threads`
says; here each step between a lock and an unlock also does its part of the work, and the functions
of the user are called where the source calls them. -/

namespace TypedSockets.Endpoint

open TypedSockets.Socket TypedSockets.Epoll TypedSockets.Lib

variable {proto : Proto} (pton : InetPton) (user : UserCode) (c : ClientId)

/-- A call that takes the mutex of the client first and releases it last. -/
inductive Control where
  | start (op : StartOp)
  | stop

/-- What a thread does at a time: a call or a handler, with the mutex of the client, or the call of
`m_unhandled`, without it. -/
inductive Turn where
  | control (op : Control)
  | handle (func : ClientHandler) (fd : Fd)
  | report (missed : List Event)

namespace World

/-- `handle_unhandled`. -/
def report (w : World proto) (missed : List Event) : World proto :=
  match (w.clients c).unhandled with
  | some func => (w.call user (.unhandled c func missed)).2
  | none => w

/-- A turn on its own. -/
def perform (w : World proto) : Turn → World proto
  | .control (.start op) => (w.act pton user c op.toOp).2
  | .control .stop => w.stop c
  | .handle func fd => (w.invoke user c func fd).2
  | .report missed => w.report user c missed

/-! ### The parts of `start` and `stop` -/

/-- `start` up to `register_cbs`: the new state, when it gets there, and the kernel after it. -/
def made (w : World proto) : StartOp → Option (ClientState proto) × Kernel
  | .plain ans _ =>
    if (w.clients c).state.isIdle then
      match SocketT.create proto (w.clients c).af ans w.kernel with
      | (some sock, k) => (some (.idle (some sock)), k)
      | (none, k) => (none, k)
    else (none, w.kernel)
  | .atLocal address port ans bound _ =>
    if (w.clients c).state.isIdle then
      match fromStringAndPort pton address port with
      | some address => createBound proto (w.clients c).af address ans bound w.kernel
      | none => (none, w.kernel)
    else (none, w.kernel)

/-- The lambda that `register_cbs` has for a type. -/
def lambdaOf (event : EventType) : ClientHandler := (cbs.lookup event).getD .erase

/-- One call of `register_cbs` or of `unregister_cbs`. -/
def observe (w : World proto) : ObserverCall → World proto
  | .add event =>
    w.update c fun cl => { cl with handlers := (cl.handlers.add event (lambdaOf event)).2 }
  | .remove event => w.update c fun cl => { cl with handlers := (cl.handlers.remove event).2 }

/-- `start` after `register_cbs`. -/
def put (w : World proto) (new : ClientState proto) (added : Bool) : World proto :=
  (w.addSocket c new.getFd .readWrite added).setState c new

/-- `stop` up to `unregister_cbs`. -/
def clear (w : World proto) : World proto := (w.delSocket c (w.getFd c)).setState c (.idle none)

end World

/-- The answer of the poll to `add_socket`. -/
def StartOp.added : StartOp → Bool
  | plain _ added => added
  | atLocal _ _ _ _ added => added

/-- What a thread has in hand. -/
inductive Job (proto : Proto) where
  | none
  /-- A call, before the mutex of the client. -/
  | control (op : Control)
  /-- `start`, with the socket that it has made. -/
  | putting (new : ClientState proto) (added : Bool)
  /-- A call with nothing left to do but its calls on the observer. -/
  | leaving
  /-- The loop of `proceed`, with the events that were not found to be handled, and whether the
  current one was. -/
  | batch (missed : List Event) (found : Bool)
  /-- The same, inside a handler. -/
  | handler (func : ClientHandler) (missed : List Event) (found : Bool)
  /-- `proceed` after its loop. -/
  | report (missed : List Event)

/-- What a step of a thread does to the data.  `throws` says that it is a handler that throws, and
`turn` is the turn that it begins or makes. -/
structure Work (proto : Proto) where
  world : World proto
  job : Job proto
  throws : Bool := false
  turn : Option Turn := none

/-- The mutexes, the data and the threads of client `c`.  `log` holds the turns with their threads,
latest first: a call counts from when it takes the mutex of the client. -/
structure Threaded (T : Type) (proto : Proto) where
  locks : Threads T
  world : World proto
  jobs : T → Job proto
  log : List (T × Turn)

/-- A thread calls a function of the client, or goes on with its call.  `registers` tells
beforehand whether `start` will get to `register_cbs`. -/
inductive ThreadedOp (T : Type) where
  | start (t : T) (op : StartOp) (registers : Bool)
  | stop (t : T)
  | proceed (t : T) (events : List Event)
  | run (t : T)

/-- The events that are not handled, with the current one or without it. -/
def missedWith (missed : List Event) (event : Event) (found : Bool) : List Event :=
  if found then missed else missed ++ [event]

/-- The next step of a thread on the data. -/
def work (w : World proto) : Task → Job proto → Option (Work proto)
  | .control calls, .control (.start op) =>
    match w.made pton c op with
    | (some new, k) =>
      if calls.isEmpty then none
      else some
        { world := { w with kernel := k }
          job := .putting new op.added
          turn := some (.control (.start op)) }
    | (none, k) =>
      if calls.isEmpty then
        some { world := { w with kernel := k }, job := .leaving, turn := some (.control (.start op)) }
      else none
  | .control _, .control .stop =>
    some { world := w.clear c, job := .leaving, turn := some (.control .stop) }
  | .owner [], .putting new added => some { world := w.put c new added, job := .none }
  | .owner [], .leaving => some { world := w, job := .none }
  | .owner (_ :: _), job => some { world := w, job }
  | .table call _, job => some { world := w.observe c call, job }
  | .polled _, .none => some { world := w, job := .batch [] false }
  | .dispatch [], .batch missed _ => some { world := w, job := .report missed }
  | .dispatch ((event, []) :: _), .batch missed found =>
    some { world := w, job := .batch (missedWith missed event found) false }
  | .dispatch ((event, tp :: _) :: _), .batch missed found =>
    match (w.clients c).handlers (event.type &&& tp) with
    | none => some { world := w, job := .batch missed found }
    | some func => some { world := w, job := .handler func missed found }
  | .handler event _ _, .handler func missed found =>
    match w.invoke user c func event.fd with
    | (.ok (), w) =>
      some { world := w, job := .batch missed true, turn := some (.handle func event.fd) }
    | (.error _, w) =>
      -- the handler that throws ends the event, which is then handled if a type before it was
      some
        { world := w
          job := .batch (missedWith missed event found) false
          throws := true
          turn := some (.handle func event.fd) }
  | _, _ => none

namespace Threaded

variable {T : Type} [DecidableEq T]

/-- No thread is in a function of the client. -/
def initial (w : World proto) : Threaded T proto :=
  ⟨{ Threads.initial with table := fun tp => ((w.clients c).handlers tp).map fun _ => () }, w,
    fun _ => .none, []⟩

/-- A thread that has nothing in hand enters a function. -/
def enter (s : Threaded T proto) (t : T) (op : ThreadOp T) (job : Job proto) :
    Option (Threaded T proto) :=
  match s.jobs t with
  | .none =>
    (s.locks.next .client op).map fun locks =>
      { s with locks, jobs := Function.update s.jobs t job }
  | _ => none

def next (s : Threaded T proto) : ThreadedOp T → Option (Threaded T proto)
  | .start t op registers => s.enter t (.start t registers) (.control (.start op))
  | .stop t => s.enter t (.stop t) (.control .stop)
  | .proceed t events => s.enter t (.proceed t events) .none
  | .run t =>
    match s.jobs t with
    | .report missed =>
      some
        { s with
          world := s.world.report user c missed
          jobs := Function.update s.jobs t .none
          log := (t, .report missed) :: s.log }
    | job =>
      (work pton user c s.world (s.locks.tasks t) job).bind fun done =>
        (s.locks.next .client (.run t done.throws)).map fun locks =>
          { locks
            world := done.world
            jobs := Function.update s.jobs t done.job
            log := (done.turn.map (t, ·)).toList ++ s.log }

/-- The turns one after the other, each as a whole. -/
def replay (w : World proto) (log : List (T × Turn)) : World proto :=
  log.reverse.foldl (fun w entry => w.perform pton user c entry.2) w

/-- What the call of a thread has still to do with the mutex of the client. -/
def finish (w : World proto) : Task → Job proto → World proto
  | .owner calls, .putting new added => (calls.foldl (World.observe c) w).put c new added
  | .owner calls, _ => calls.foldl (World.observe c) w
  | .table call calls, .putting new added =>
    ((call :: calls).foldl (World.observe c) w).put c new added
  | .table call calls, _ => (call :: calls).foldl (World.observe c) w
  | _, _ => w

/-- The data once the thread that owns the mutex of the client is through. -/
def settled (s : Threaded T proto) : World proto :=
  match s.locks.endpoint with
  | none => s.world
  | some t => finish c s.world (s.locks.tasks t) (s.jobs t)

/-- The calls of a thread that take the mutex of the client, in their order. -/
def called (t : T) (ops : List (ThreadedOp T)) : List Control :=
  ops.filterMap fun
    | .start u op _ => if u = t then some (.start op) else none
    | .stop u => if u = t then some .stop else none
    | _ => none

/-- Those of its calls that had their turn, in the order of the turns. -/
def served (t : T) (log : List (T × Turn)) : List Control :=
  log.reverse.filterMap fun
    | (u, .control op) => if u = t then some op else none
    | _ => none

/-- The call of a thread that has had no turn yet. -/
def waiting : Job proto → List Control
  | .control op => [op]
  | _ => []

/-- What a thread has in hand goes with where it is. -/
def Fits : Task → Job proto → Prop
  | .idle, .none | .idle, .report _ => True
  | .control calls, .control (.start _) => calls = [] ∨ calls = EndpointClass.client.registerCbs
  | .control calls, .control .stop => calls = EndpointClass.client.unregisterCbs
  | .owner _, .putting _ _ | .owner _, .leaving => True
  | .table _ _, .putting _ _ | .table _ _, .leaving => True
  | .polled _, .none => True
  | .dispatch _, .batch _ _ => True
  | .handler _ _ _, .handler _ _ _ => True
  | _, _ => False

/-- The threads take the mutexes as they should, and the data is what the turns one after the other
make of it, once the thread that owns the mutex of the client is through. -/
structure InTurns (w : World proto) (s : Threaded T proto) : Prop where
  locks : s.locks.Consistent
  table : ∀ tp, s.locks.table tp = ((s.world.clients c).handlers tp).map fun _ => ()
  fits : ∀ t, Fits (s.locks.tasks t) (s.jobs t)
  settled : s.settled c = replay pton user c w s.log

end Threaded

section

variable {pton} {user} {c} {w : World proto}

/-! ### The parts make up the calls -/

theorem act_start (w : World proto) (op : StartOp) :
    (w.act pton user c op.toOp).2 =
      match w.made pton c op with
      | (some new, k) => ({ w with kernel := k }.registerCbs c).put c new op.added
      | (none, k) => { w with kernel := k } := by
  cases op with
  | plain ans added =>
    simp only [StartOp.toOp, World.act, World.start, World.made]
    split_ifs
    · rcases SocketT.create proto (w.clients c).af ans w.kernel with ⟨_ | sock, k⟩ <;> rfl
    · rfl
  | atLocal address port ans bound added =>
    simp only [StartOp.toOp, World.act, World.startLocal, World.made]
    split_ifs
    · cases fromStringAndPort pton address port with
      | none => rfl
      | some addr =>
        simp only
        rcases World.createBound proto (w.clients c).af addr ans bound w.kernel with ⟨_ | sock, k⟩ <;>
          rfl
    · rfl

theorem update_update (w : World proto) (f g : Client proto → Client proto) :
    (w.update c f).update c g = w.update c (g ∘ f) := by
  simp [World.update]

theorem observe_registerCbs (w : World proto) :
    EndpointClass.client.registerCbs.foldl (World.observe c) w = w.registerCbs c := by
  simp [EndpointClass.registerCbs, World.cbs, World.observe, World.lambdaOf, World.registerCbs,
    update_update, Function.comp_def, List.lookup_cons, EventType.peerClosed, EventType.error,
    EventType.hangup, EventType.exception, EventType.readReady, EventType.writeReady]

theorem observe_unregisterCbs (w : World proto) :
    EndpointClass.client.unregisterCbs.foldl (World.observe c) w = w.unregisterCbs c := by
  simp [EndpointClass.unregisterCbs, World.uncbs, World.observe, World.unregisterCbs,
    update_update, Function.comp_def]

/-! ### `m_unhandled` and the mutex -/

theorem report_eq (w : World proto) (missed : List Event) :
    w.report user c missed =
      { w with
        trace := ((w.clients c).unhandled.map fun func =>
          Invocation.unhandled c func missed).toList ++ w.trace } := by
  unfold World.report
  cases (w.clients c).unhandled <;> rfl

/-- What is still to be done under the mutex neither calls a function of the user nor depends on the
calls so far. -/
structure Silently (c : ClientId) (f : World proto → World proto) : Prop where
  trace : ∀ w, (f w).trace = w.trace
  unhandled : ∀ w, ((f w).clients c).unhandled = (w.clients c).unhandled
  beside : ∀ w trace, f { w with trace } = { f w with trace }

theorem Silently.id : Silently c (fun w : World proto => w) :=
  ⟨fun _ => rfl, fun _ => rfl, fun _ _ => rfl⟩

theorem Silently.comp {f g : World proto → World proto} (hf : Silently c f) (hg : Silently c g) :
    Silently c fun w => g (f w) :=
  ⟨fun w => (hg.trace _).trans (hf.trace w), fun w => (hg.unhandled _).trans (hf.unhandled w),
    fun w trace => by rw [hf.beside, hg.beside]⟩

theorem Silently.update {f : Client proto → Client proto}
    (h : ∀ cl, (f cl).unhandled = cl.unhandled) :
    Silently c fun w : World proto => w.update c f :=
  ⟨fun _ => rfl, fun w => by simp [h], fun _ _ => rfl⟩

theorem Silently.observe (call : ObserverCall) :
    Silently c fun w : World proto => w.observe c call := by
  cases call <;> simp only [World.observe]
  · exact .update fun _ => rfl
  · exact .update fun _ => rfl

theorem Silently.observeAll (calls : List ObserverCall) :
    Silently c fun w : World proto => calls.foldl (World.observe c) w := by
  induction calls with
  | nil => exact .id
  | cons call calls ih => exact (Silently.observe call).comp ih

theorem Silently.put (new : ClientState proto) (added : Bool) :
    Silently c fun w : World proto => w.put c new added := by
  constructor <;> intros <;> cases added <;>
    simp [World.put, World.addSocket, World.setState, World.update]

theorem Silently.finish (task : Task) (job : Job proto) :
    Silently c fun w : World proto => Threaded.finish c w task job := by
  cases task with
  | owner calls =>
    cases job with
    | putting new added => exact (Silently.observeAll calls).comp (.put new added)
    | _ => exact .observeAll calls
  | table call calls =>
    cases job with
    | putting new added => exact (Silently.observeAll (call :: calls)).comp (.put new added)
    | _ => exact .observeAll (call :: calls)
  | _ => cases job <;> exact .id

/-- What is called without the mutex may as well be called after the thread that owns it. -/
theorem Silently.report {f : World proto → World proto} (h : Silently c f) (w : World proto)
    (missed : List Event) : f (w.report user c missed) = (f w).report user c missed := by
  rw [report_eq, report_eq, h.beside, h.trace, h.unhandled]

namespace Threaded

variable {T : Type} [DecidableEq T] {s s' : Threaded T proto} {t : T}

/-! ### One step -/

omit [DecidableEq T] in
theorem initial_inTurns (w : World proto) :
    InTurns pton user c w (initial c w : Threaded T proto) :=
  ⟨⟨Threads.initial_consistent.endpoint, Threads.initial_consistent.writer,
    Threads.initial_consistent.readers, Threads.initial_consistent.exclusive⟩, fun _ => rfl,
    fun _ => trivial, rfl⟩

theorem enter_cases {op : ThreadOp T} {job : Job proto} (h : s.enter t op job = some s') :
    s.jobs t = .none ∧ ∃ locks, s.locks.next .client op = some locks ∧
      s' = { s with locks, jobs := Function.update s.jobs t job } := by
  unfold Threaded.enter at h
  split at h
  · rename_i hjob
    obtain ⟨locks, hlocks, rfl⟩ := Option.map_eq_some_iff.mp h
    exact ⟨hjob, locks, hlocks, rfl⟩
  · cases h

theorem run_cases (h : s.next pton user c (.run t) = some s') :
    (∃ missed, s.jobs t = .report missed ∧
      s' =
        { s with
          world := s.world.report user c missed
          jobs := Function.update s.jobs t .none
          log := (t, .report missed) :: s.log }) ∨
      ∃ done locks, work pton user c s.world (s.locks.tasks t) (s.jobs t) = some done ∧
        s.locks.advance t done.throws = some locks ∧
        s' = ⟨locks, done.world, Function.update s.jobs t done.job,
          (done.turn.map (t, ·)).toList ++ s.log⟩ := by
  rw [Threaded.next] at h
  split at h
  · rename_i missed hjob
    exact Or.inl ⟨missed, hjob, (Option.some.inj h).symm⟩
  · obtain ⟨done, hwork, hrest⟩ := Option.bind_eq_some_iff.mp h
    obtain ⟨locks, hlocks, rfl⟩ := Option.map_eq_some_iff.mp hrest
    exact Or.inr ⟨done, locks, hwork, hlocks, rfl⟩

omit [DecidableEq T] in
theorem settled_free (h : s.locks.endpoint = none) : s.settled c = s.world := by
  rw [settled, h]

omit [DecidableEq T] in
theorem settled_owned (h : s.locks.endpoint = some t) :
    s.settled c = finish c s.world (s.locks.tasks t) (s.jobs t) := by
  rw [settled, h]

/-- A step of a thread that does not own the mutex, before or after, leaves what the owner has
still to do. -/
theorem settled_other {m : SharedMutex T} {table : Handlers Unit} {task : Task} {job : Job proto}
    {log : List (T × Turn)} (h : s.locks.endpoint ≠ some t) :
    settled c (⟨Threads.become ⟨s.locks.endpoint, m, table, s.locks.tasks⟩ t task, s.world,
      Function.update s.jobs t job, log⟩ : Threaded T proto) = s.settled c := by
  unfold settled
  simp only [Threads.become]
  cases howner : s.locks.endpoint with
  | none => rfl
  | some u =>
    have hu : u ≠ t := fun hu => h (howner.trans (congrArg some hu))
    simp only [Function.update_of_ne hu]

theorem fits_update (h : ∀ u, Fits (s.locks.tasks u) (s.jobs u)) {task : Task} {job : Job proto}
    (new : Fits task job) (u : T) :
    Fits (Function.update s.locks.tasks t task u) (Function.update s.jobs t job u) := by
  by_cases hu : u = t
  · subst hu
    simpa using new
  · simpa [hu] using h u

omit [DecidableEq T] in
theorem replay_cons (w : World proto) (t : T) (turn : Turn) (log : List (T × Turn)) :
    replay pton user c w ((t, turn) :: log) =
      (replay pton user c w log).perform pton user c turn := by
  simp [replay]

/-- A call of a function takes no mutex yet. -/
theorem inTurns_enter {w : World proto} (h : InTurns pton user c w s) {op : ThreadOp T}
    {task : Task} {job : Job proto}
    (called : s.locks.next .client op = some (s.locks.become t task))
    (free : s.locks.endpoint ≠ some t) (fits : Fits task job) :
    InTurns pton user c w
      { s with locks := s.locks.become t task, jobs := Function.update s.jobs t job } :=
  ⟨h.locks.next called, h.table, fits_update h.fits fits, (settled_other free).trans h.settled⟩

omit [DecidableEq T] in
theorem not_owner {w : World proto} (h : InTurns pton user c w s)
    (outside : (s.locks.tasks t).ownsEndpoint = false) : s.locks.endpoint ≠ some t := by
  rw [Ne, h.locks.endpoint, outside]
  exact Bool.false_ne_true

/-- A call that takes the mutex has its whole turn before it. -/
theorem finish_taken {v : World proto} {calls : List ObserverCall} {op : Control}
    (fits : Fits (.control calls) (.control op : Job proto)) {done : Work proto}
    (hwork : work pton user c v (.control calls) (.control op) = some done) :
    done.turn = some (.control op) ∧ Fits (.owner calls) done.job ∧
      finish c done.world (.owner calls) done.job = v.perform pton user c (.control op) := by
  cases op with
  | stop =>
    obtain rfl := Option.some.inj hwork
    have hcalls : calls = EndpointClass.client.unregisterCbs := fits
    refine ⟨rfl, trivial, ?_⟩
    rw [hcalls]
    exact observe_unregisterCbs (v.clear c)
  | start op =>
    simp only [work] at hwork
    rw [World.perform, act_start]
    rcases hmade : v.made pton c op with ⟨_ | new, k⟩ <;> simp only [hmade] at hwork ⊢
    · split_ifs at hwork with hempty
      obtain rfl := Option.some.inj hwork
      refine ⟨rfl, trivial, ?_⟩
      rw [List.isEmpty_iff.mp hempty]
      rfl
    · split_ifs at hwork with hempty
      obtain rfl := Option.some.inj hwork
      have hcalls : calls = EndpointClass.client.registerCbs :=
        Or.resolve_left fits fun hnil => hempty (by rw [hnil]; rfl)
      refine ⟨rfl, trivial, ?_⟩
      rw [finish, hcalls, observe_registerCbs]

/-- A call that releases the mutex has nothing left to do. -/
theorem finish_left {v : World proto} {job : Job proto} (fits : Fits (.owner []) job)
    {done : Work proto} (hwork : work pton user c v (.owner []) job = some done) :
    done.turn = none ∧ done.job = .none ∧ done.world = finish c v (.owner []) job := by
  cases job with
  | putting new added =>
    obtain rfl := Option.some.inj hwork
    exact ⟨rfl, rfl, rfl⟩
  | leaving =>
    obtain rfl := Option.some.inj hwork
    exact ⟨rfl, rfl, rfl⟩
  | _ => exact fits.elim

theorem finish_observed {v : World proto} {call : ObserverCall} {calls : List ObserverCall}
    (job : Job proto) :
    finish c (v.observe c call) (.owner calls) job = finish c v (.table call calls) job := by
  cases job <;> rfl

theorem put_handlers (v : World proto) (new : ClientState proto) (added : Bool) :
    ((v.put c new added).clients c).handlers = (v.clients c).handlers := by
  rw [World.put, World.setState_handlers]
  cases added <;> rfl

theorem clear_handlers (v : World proto) :
    ((v.clear c).clients c).handlers = (v.clients c).handlers := by
  rw [World.clear, World.setState_handlers]
  rfl

/-- Only the calls on the observer change the table. -/
theorem work_handlers {v : World proto} {task : Task} {job : Job proto} {done : Work proto}
    (hwork : work pton user c v task job = some done)
    (inside : ∀ call calls, task ≠ .table call calls) :
    (done.world.clients c).handlers = (v.clients c).handlers := by
  unfold work at hwork
  split at hwork
  · split at hwork <;> split_ifs at hwork <;> cases hwork <;> rfl
  · cases hwork
    exact clear_handlers v
  · cases hwork
    exact put_handlers v _ _
  · cases hwork; rfl
  · cases hwork; rfl
  · exact absurd rfl (inside _ _)
  · cases hwork; rfl
  · cases hwork; rfl
  · cases hwork; rfl
  · split at hwork <;> cases hwork <;> rfl
  · rename_i event _ _ func _ _
    have calm : ((v.invoke user c func event.fd).2.clients c).handlers = (v.clients c).handlers :=
      (World.Calm.invoke func event.fd v).handlers c
    split at hwork <;> rename_i heq <;> rw [heq] at calm <;> cases hwork <;> exact calm
  · cases hwork

theorem table_observed {v : World proto} {table : Handlers Unit}
    (h : ∀ tp, table tp = ((v.clients c).handlers tp).map fun _ => ()) (call : ObserverCall)
    (tp : EventType) :
    call.apply table tp = (((v.observe c call).clients c).handlers tp).map fun _ => () := by
  cases call with
  | add event =>
    simp only [ObserverCall.apply, World.observe, World.update_client, if_true,
      Handlers.add_apply, h]
    split_ifs
    · cases (v.clients c).handlers event <;> rfl
    · rfl
  | remove event =>
    simp only [ObserverCall.apply, World.observe, World.update_client, if_true,
      Handlers.remove_apply, h]
    split_ifs <;> rfl

/-- A step outside the mutex of the client. -/
theorem inTurns_outside {w : World proto} (h : InTurns pton user c w s) {m : SharedMutex T}
    {task : Task} {job : Job proto} (outside : (s.locks.tasks t).ownsEndpoint = false)
    (locks : Threads.Consistent
      (Threads.become ⟨s.locks.endpoint, m, s.locks.table, s.locks.tasks⟩ t task))
    (fits : Fits task job) :
    InTurns pton user c w
      ⟨Threads.become ⟨s.locks.endpoint, m, s.locks.table, s.locks.tasks⟩ t task, s.world,
        Function.update s.jobs t job, s.log⟩ :=
  ⟨locks, h.table, fits_update h.fits fits, (settled_other (not_owner h outside)).trans h.settled⟩

/-- A step with the mutex of the client, that does some of what was still to be done. -/
theorem inTurns_inside {w v : World proto} (h : InTurns pton user c w s) {m : SharedMutex T}
    {table : Handlers Unit} {task : Task} {job : Job proto}
    (inside : (s.locks.tasks t).ownsEndpoint = true)
    (locks : Threads.Consistent (Threads.become ⟨s.locks.endpoint, m, table, s.locks.tasks⟩ t task))
    (agree : ∀ tp, table tp = ((v.clients c).handlers tp).map fun _ => ()) (fits : Fits task job)
    (same : finish c v task job = finish c s.world (s.locks.tasks t) (s.jobs t)) :
    InTurns pton user c w
      ⟨Threads.become ⟨s.locks.endpoint, m, table, s.locks.tasks⟩ t task, v,
        Function.update s.jobs t job, s.log⟩ := by
  have howner : s.locks.endpoint = some t := (h.locks.endpoint t).mpr inside
  refine ⟨locks, agree, fits_update h.fits fits, ?_⟩
  calc settled c _ = finish c v task job := by
        simp only [settled, Threads.become, howner, Function.update_self]
    _ = s.settled c := by rw [same, ← settled_owned howner]
    _ = _ := h.settled

theorem inTurns_take {w : World proto} (h : InTurns pton user c w s) {calls : List ObserverCall}
    (task : s.locks.tasks t = .control calls) (free : s.locks.endpoint = none)
    {done : Work proto}
    (hwork : work pton user c s.world (.control calls) (s.jobs t) = some done)
    (locks : Threads.Consistent ({ s.locks with endpoint := some t }.become t (.owner calls))) :
    InTurns pton user c w
      ⟨{ s.locks with endpoint := some t }.become t (.owner calls), done.world,
        Function.update s.jobs t done.job, (done.turn.map (t, ·)).toList ++ s.log⟩ := by
  have hfits := h.fits t
  rw [task] at hfits
  have hworld : s.world = _ := (settled_free free).symm.trans h.settled
  cases hjob : s.jobs t with
  | control op =>
    rw [hjob] at hwork hfits
    obtain ⟨hturn, hnew, hfinish⟩ := finish_taken hfits hwork
    refine ⟨locks, fun tp => ?_, fits_update h.fits hnew, ?_⟩
    · rw [work_handlers hwork (by simp)]
      exact h.table tp
    · rw [settled_owned rfl, hturn]
      simp only [Threads.become, Function.update_self, Option.map_some, Option.toList_some,
        List.singleton_append, replay_cons, ← hworld]
      exact hfinish
  | _ =>
    rw [hjob] at hfits
    exact hfits.elim

theorem inTurns_leave {w : World proto} (h : InTurns pton user c w s)
    (task : s.locks.tasks t = .owner []) {done : Work proto}
    (hwork : work pton user c s.world (.owner []) (s.jobs t) = some done)
    (locks : Threads.Consistent ({ s.locks with endpoint := none }.become t .idle)) :
    InTurns pton user c w
      ⟨{ s.locks with endpoint := none }.become t .idle, done.world,
        Function.update s.jobs t done.job, (done.turn.map (t, ·)).toList ++ s.log⟩ := by
  have hfits := h.fits t
  rw [task] at hfits
  have howner : s.locks.endpoint = some t := by
    rw [h.locks.endpoint, task]
    rfl
  obtain ⟨hturn, hjob, hworld⟩ := finish_left hfits hwork
  refine ⟨locks, fun tp => ?_, fits_update h.fits (by rw [hjob]; trivial), ?_⟩
  · rw [work_handlers hwork (by simp)]
    exact h.table tp
  · rw [settled_free rfl, hturn, hworld, ← task, ← settled_owned howner]
    exact h.settled

omit [DecidableEq T] in
/-- A handler finds the data as the turns before it left it. -/
theorem inTurns_handler {w : World proto} (h : InTurns pton user c w s) {event : Event}
    {tps : List EventType} {todo : List (Event × List EventType)}
    (task : s.locks.tasks t = .handler event tps todo) :
    s.world = replay pton user c w s.log := by
  have howner : s.locks.endpoint = some t := by
    rw [h.locks.endpoint, task]
    rfl
  rw [← h.settled, settled_owned howner, task]
  rfl

/-- A handler is a turn of its own, and the loop goes on after it. -/
theorem work_handler {v : World proto} {event : Event} {tps : List EventType}
    {todo : List (Event × List EventType)} {func : ClientHandler} {missed : List Event}
    {found : Bool} {done : Work proto}
    (hwork : work pton user c v (.handler event tps todo) (.handler func missed found) =
      some done) :
    (∃ missed' found', done.job = .batch missed' found') ∧
      done.turn = some (.handle func event.fd) ∧
      done.world = v.perform pton user c (.handle func event.fd) := by
  rw [World.perform]
  rcases hinvoke : v.invoke user c func event.fd with ⟨_ | _, v'⟩ <;>
    simp only [work, hinvoke] at hwork <;> obtain rfl := Option.some.inj hwork <;>
    exact ⟨⟨_, _, rfl⟩, rfl, rfl⟩

theorem inTurns_step {w : World proto} (h : InTurns pton user c w s) {done : Work proto}
    {locks : Threads T} {throws : Bool}
    (hwork : work pton user c s.world (s.locks.tasks t) (s.jobs t) = some done)
    (hadvance : s.locks.advance t throws = some locks) :
    InTurns pton user c w ⟨locks, done.world, Function.update s.jobs t done.job,
      (done.turn.map (t, ·)).toList ++ s.log⟩ := by
  have hstep := Threads.step_of_advance hadvance
  have hconsistent := h.locks.step hstep
  have hfits := h.fits t
  cases hstep with
  | takeEndpoint task free =>
    rw [task] at hwork
    exact inTurns_take h task free hwork hconsistent
  | leaveEndpoint task =>
    rw [task] at hwork
    exact inTurns_leave h task hwork hconsistent
  | takeObserver task free unshared =>
    rw [task] at hwork hfits
    obtain rfl := Option.some.inj hwork
    refine inTurns_inside h (by rw [task]; rfl) hconsistent h.table ?_ ?_
    · cases hjob : s.jobs t <;> rw [hjob] at hfits <;> exact hfits
    · rw [task]
      cases s.jobs t <;> rfl
  | leaveObserver task =>
    rw [task] at hwork hfits
    obtain rfl := Option.some.inj hwork
    refine inTurns_inside h (by rw [task]; rfl) hconsistent (table_observed h.table _) ?_ ?_
    · cases hjob : s.jobs t <;> rw [hjob] at hfits <;> exact hfits
    · rw [task]
      exact finish_observed (s.jobs t)
  | shareObserver task free =>
    rw [task] at hwork hfits
    cases hjob : s.jobs t with
    | none =>
      rw [hjob] at hwork
      obtain rfl := Option.some.inj hwork
      exact inTurns_outside h (by rw [task]; rfl) hconsistent trivial
    | _ => rw [hjob] at hfits; exact hfits.elim
  | unshareObserver task =>
    rw [task] at hwork hfits
    cases hjob : s.jobs t with
    | batch missed found =>
      rw [hjob] at hwork
      obtain rfl := Option.some.inj hwork
      exact inTurns_outside h (by rw [task]; rfl) hconsistent trivial
    | _ => rw [hjob] at hfits; exact hfits.elim
  | nextEvent task =>
    rw [task] at hwork hfits
    cases hjob : s.jobs t with
    | batch missed found =>
      rw [hjob] at hwork
      obtain rfl := Option.some.inj hwork
      exact inTurns_outside h (by rw [task]; rfl) hconsistent trivial
    | _ => rw [hjob] at hfits; exact hfits.elim
  | nextType task =>
    rename_i event tp tps todo
    rw [task] at hwork hfits
    cases hjob : s.jobs t with
    | batch missed found =>
      rw [hjob] at hwork
      cases hfunc : (s.world.clients c).handlers (event.type &&& tp) with
      | none =>
        simp only [work, hfunc] at hwork
        obtain rfl := Option.some.inj hwork
        exact inTurns_outside h (by rw [task]; rfl) hconsistent trivial
      | some func =>
        -- the table of the mutexes has the type too, and the step would have entered a handler
        have htable : s.locks.table (event.type &&& tp) = some () := by
          rw [h.table, hfunc]
          rfl
        simp only [Threads.advance, task, htable] at hadvance
        obtain ⟨m, -, heq⟩ := Option.map_eq_some_iff.mp hadvance
        have htask := congrFun (congrArg Threads.tasks heq) t
        simp [Threads.become] at htask
    | _ => rw [hjob] at hfits; exact hfits.elim
  | enterHandler task free =>
    rename_i event tp tps todo
    rw [task] at hwork hfits
    cases hjob : s.jobs t with
    | batch missed found =>
      rw [hjob] at hwork
      cases hfunc : (s.world.clients c).handlers (event.type &&& tp) with
      | none =>
        have htable : s.locks.table (event.type &&& tp) = none := by
          rw [h.table, hfunc]
          rfl
        simp only [Threads.advance, task, htable] at hadvance
        have htask := congrFun (congrArg Threads.tasks (Option.some.inj hadvance)) t
        simp [Threads.become] at htask
      | some func =>
        simp only [work, hfunc] at hwork
        obtain rfl := Option.some.inj hwork
        refine ⟨hconsistent, h.table, fits_update h.fits trivial, ?_⟩
        rw [settled_owned rfl]
        simp only [Threads.become, Function.update_self]
        exact (settled_free free).symm.trans h.settled
    | _ => rw [hjob] at hfits; exact hfits.elim
  | leaveHandler task throws =>
    rename_i event tps todo
    have hworld := inTurns_handler h task
    rw [task] at hwork hfits
    have htable := work_handlers hwork (by simp)
    cases hjob : s.jobs t with
    | handler func missed found =>
      rw [hjob] at hwork
      obtain ⟨⟨missed', found', hnew⟩, hturn, hperform⟩ := work_handler hwork
      refine ⟨hconsistent, fun tp => ?_, fits_update h.fits (by rw [hnew]; trivial), ?_⟩
      · rw [htable]
        exact h.table tp
      · rw [settled_free rfl, hturn, hperform]
        simp only [Option.map_some, Option.toList_some, List.singleton_append, replay_cons, ← hworld]
    | _ => rw [hjob] at hfits; exact hfits.elim

theorem inTurns_report {w : World proto} (h : InTurns pton user c w s) {missed : List Event}
    (hjob : s.jobs t = .report missed) :
    InTurns pton user c w
      { s with
        world := s.world.report user c missed
        jobs := Function.update s.jobs t .none
        log := (t, .report missed) :: s.log } := by
  have htask : s.locks.tasks t = .idle := by
    have hfits := h.fits t
    rw [hjob] at hfits
    cases htask : s.locks.tasks t <;> rw [htask] at hfits <;> first | rfl | exact hfits.elim
  refine ⟨h.locks, fun tp => ?_, fun u => ?_, ?_⟩
  · rw [report_eq]
    exact h.table tp
  · by_cases hu : u = t
    · subst hu
      simp [htask, Fits]
    · simpa [hu] using h.fits u
  · rw [replay_cons, ← h.settled]
    unfold settled
    cases howner : s.locks.endpoint with
    | none => rfl
    | some u =>
      have hu : u ≠ t := by
        rintro rfl
        have howns := (h.locks.endpoint u).mp howner
        rw [htask] at howns
        cases howns
      simp only [Function.update_of_ne hu]
      exact (Silently.finish (s.locks.tasks u) (s.jobs u)).report s.world missed

/-- A thread that enters a function was in none. -/
theorem inTurns_entered {w : World proto} (h : InTurns pton user c w s) {op : ThreadOp T}
    {task : Task} {job : Job proto} (fits : Fits task job)
    (hcall : s.locks.next .client op =
      match s.locks.tasks t with
      | .idle => some (s.locks.become t task)
      | _ => none)
    (henter : s.enter t op job = some s') : InTurns pton user c w s' := by
  obtain ⟨-, locks, hlocks, rfl⟩ := enter_cases henter
  have hcalled := hcall ▸ hlocks
  split at hcalled
  · rename_i hidle
    obtain rfl := Option.some.inj hcalled
    exact inTurns_enter h hlocks (not_owner h (by rw [hidle]; rfl)) fits
  · cases hcalled

theorem inTurns_next {w : World proto} (h : InTurns pton user c w s) {op : ThreadedOp T}
    (hstep : s.next pton user c op = some s') : InTurns pton user c w s' := by
  cases op with
  | start t op registers =>
    refine inTurns_entered h ?_ rfl hstep
    cases registers
    · exact Or.inl rfl
    · exact Or.inr rfl
  | stop t =>
    have fits : Fits (.control EndpointClass.client.unregisterCbs) (.control .stop : Job proto) := rfl
    exact inTurns_entered h fits rfl hstep
  | proceed t events =>
    have fits : Fits (.polled events) (.none : Job proto) := trivial
    exact inTurns_entered h fits rfl hstep
  | run t =>
    rcases run_cases hstep with ⟨missed, hjob, rfl⟩ | ⟨done, locks, hwork, hlocks, rfl⟩
    · exact inTurns_report h hjob
    · exact inTurns_step h hwork hlocks

/-! ### Whose turns they are -/

/-- The calls that a step of a thread serves. -/
def Turn.served : Turn → List Control
  | .control op => [op]
  | _ => []

theorem work_waiting {v : World proto} {task : Task} {job : Job proto} {done : Work proto}
    (hwork : work pton user c v task job = some done) :
    waiting job = (done.turn.toList.flatMap Turn.served) ++ waiting done.job := by
  unfold work at hwork
  split at hwork
  · split at hwork <;> split_ifs at hwork <;> cases hwork <;> rfl
  · cases hwork; rfl
  · cases hwork; rfl
  · cases hwork; rfl
  · cases hwork; rfl
  · cases hwork; rfl
  · cases hwork; rfl
  · cases hwork; rfl
  · cases hwork; rfl
  · split at hwork <;> cases hwork <;> rfl
  · split at hwork <;> cases hwork <;> rfl
  · cases hwork

theorem served_append (u t : T) (turn : Option Turn) (log : List (T × Turn)) :
    served u ((turn.map (t, ·)).toList ++ log) =
      served u log ++ if t = u then turn.toList.flatMap Turn.served else [] := by
  cases turn with
  | none => simp [served]
  | some turn =>
    cases turn <;> simp [served, Turn.served, List.filterMap_append, List.filterMap_cons]
    split_ifs <;> rfl

theorem waiting_entered {op : ThreadOp T} {job : Job proto} (henter : s.enter t op job = some s')
    (u : T) :
    served u s'.log ++ waiting (s'.jobs u) =
      served u s.log ++ waiting (s.jobs u) ++ if t = u then waiting job else [] := by
  obtain ⟨hjob, locks, -, rfl⟩ := enter_cases henter
  by_cases hu : t = u
  · subst hu
    simp [hjob, waiting]
  · simp [hu, Ne.symm hu]

/-- One step serves a call that waits, or brings one. -/
theorem served_next {op : ThreadedOp T} (hstep : s.next pton user c op = some s') (u : T) :
    served u s'.log ++ waiting (s'.jobs u) =
      served u s.log ++ waiting (s.jobs u) ++ called u [op] := by
  cases op with
  | start t op registers =>
    rw [waiting_entered hstep]
    by_cases hu : t = u <;> simp [called, hu, waiting]
  | stop t =>
    rw [waiting_entered hstep]
    by_cases hu : t = u <;> simp [called, hu, waiting]
  | proceed t events =>
    rw [waiting_entered hstep]
    by_cases hu : t = u <;> simp [called, hu, waiting]
  | run t =>
    have hcalled : called u [ThreadedOp.run t] = [] := rfl
    rw [hcalled, List.append_nil]
    rcases run_cases hstep with ⟨missed, hjob, rfl⟩ | ⟨done, locks, hwork, -, rfl⟩
    · have hlog := served_append u t (some (.report missed)) s.log
      simp only [Option.map_some, Option.toList_some, List.singleton_append, List.flatMap_cons,
        List.flatMap_nil, Turn.served, List.append_nil, ite_self] at hlog
      by_cases hu : u = t
      · subst hu
        simp [hlog, hjob, waiting]
      · simp [hlog, hu]
    · have hwaiting := work_waiting hwork
      rw [served_append]
      by_cases hu : u = t
      · subst hu
        simp [hwaiting]
      · simp [hu, Ne.symm hu]

theorem called_append (u : T) (ops ops' : List (ThreadedOp T)) :
    called u (ops ++ ops') = called u ops ++ called u ops' := List.filterMap_append ..

theorem served_run {ops : List (ThreadedOp T)} (hrun : exec (next pton user c) s ops = some s')
    (u : T) :
    served u s'.log ++ waiting (s'.jobs u) =
      served u s.log ++ waiting (s.jobs u) ++ called u ops := by
  induction ops generalizing s with
  | nil =>
    cases hrun
    simp [called]
  | cons op ops ih =>
    obtain ⟨s1, hstep, hrest⟩ := Option.bind_eq_some_iff.mp hrun
    rw [ih hrest, served_next hstep, List.append_assoc, ← called_append, List.singleton_append]

theorem inTurns_run {w : World proto} {ops : List (ThreadedOp T)}
    (hrun : exec (next pton user c) (initial c w) ops = some s) : InTurns pton user c w s :=
  (Always.of_inv (fun _ _ _ h hstep => inTurns_next h hstep) (initial_inTurns w) ops).last hrun

omit [DecidableEq T] in
/-- What a call has still to do calls no function of the user. -/
theorem InTurns.trace {w : World proto} (h : InTurns pton user c w s) :
    s.world.trace = (replay pton user c w s.log).trace := by
  rw [← h.settled]
  unfold Threaded.settled
  cases s.locks.endpoint with
  | none => rfl
  | some t => exact ((Silently.finish (s.locks.tasks t) (s.jobs t)).trace s.world).symm

end Threaded

end

/-- The threads of a client do what their calls and handlers do one after the other, each as a whole:
whenever no thread owns the mutex the data is what the turns so far make of it, the functions of
the user are called as the turns call them, and the calls of each thread have their turns in its
order, each of them once. -/
theorem Threaded.turns_run {T : Type} [DecidableEq T] (w : World proto)
    (ops : List (ThreadedOp T)) (s : Threaded T proto)
    (hrun : exec (Threaded.next pton user c) (Threaded.initial c w) ops = some s) :
    (s.locks.endpoint = none → s.world = Threaded.replay pton user c w s.log) ∧
      s.world.trace = (Threaded.replay pton user c w s.log).trace ∧
      ∀ t, Threaded.called t ops = Threaded.served t s.log ++ Threaded.waiting (s.jobs t) := by
  have inTurns := Threaded.inTurns_run hrun
  refine ⟨fun free => ?_, inTurns.trace, fun t => ?_⟩
  · rw [← inTurns.settled, Threaded.settled_free free]
  · rw [Threaded.served_run hrun]
    rfl

/-! ### A batch in the middle of `start` -/

def writable : Event := ⟨3, .writeReady⟩

/-- One thread is inside `start`, with some of the handlers registered, while another one dispatches
a batch. -/
def midStartRun : List (ThreadedOp Nat) :=
  [.start 0 (.plain (.ok 3) true) true, .proceed 1 [writable]] ++ List.replicate 3 (.run 0) ++
    List.replicate 10 (.run 1) ++ List.replicate 11 (.run 0)

def freshTcp : World tcp := .initial (fun _ => 2) fun _ => none

theorem turns_run_midStart :
    ∃ s, exec (Threaded.next loopbackPton (fun _ => .ok ()) 0) (Threaded.initial 0 freshTcp)
        midStartRun = some s ∧
      (s.locks.endpoint = none →
        s.world = Threaded.replay loopbackPton (fun _ => .ok ()) 0 freshTcp s.log) ∧
      s.world.trace = (Threaded.replay loopbackPton (fun _ => .ok ()) 0 freshTcp s.log).trace ∧
      ∀ t, Threaded.called t midStartRun =
        Threaded.served t s.log ++ Threaded.waiting (s.jobs t) := by
  have hsome : (exec (Threaded.next loopbackPton (fun _ => .ok ()) 0)
      (Threaded.initial 0 freshTcp) midStartRun).isSome := by decide +kernel
  obtain ⟨s, hrun⟩ := Option.isSome_iff_exists.mp hsome
  exact ⟨s, hrun, Threaded.turns_run loopbackPton (fun _ => .ok ()) 0 freshTcp midStartRun s hrun⟩

end TypedSockets.Endpoint
