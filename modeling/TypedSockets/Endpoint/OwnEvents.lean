import TypedSockets.Endpoint.Restart

/-! Events of other descriptors.  Every handler of a client asks first whether the descriptor is
its own, and the batch that asks changes callbacks and registrations but never the descriptor. -/

namespace TypedSockets.Endpoint

open TypedSockets.Socket TypedSockets.Epoll TypedSockets.Lib

section Dispatch

variable {H σ E : Type} {invoke : H → Fd → σ → Except E Unit × σ} {table : Handlers H}

/-- Handlers that ignore the events outside `own`, and leave these to be ignored, do the same on the
own events of a batch as on the whole batch. -/
theorem handleEvents_filter (Inv : σ → Prop) (own : Event → Bool)
    (other : ∀ event, own event = false → ∀ func s, Inv s → (invoke func event.fd s).2 = s)
    (keep : ∀ (event : Event) func s, Inv s → Inv (invoke func event.fd s).2)
    (events : List Event) {s : σ} (h : Inv s) :
    (handleEvents invoke table (events.filter own) s).2 =
      (handleEvents invoke table events s).2 := by
  induction events generalizing s with
  | nil => rfl
  | cons event events ih =>
    show _ = (handleEvents invoke table events (handleEvent invoke table event s).2).2
    by_cases hown : own event = true
    · rw [List.filter_cons_of_pos hown]
      exact ih (handleEvent_induction Inv (fun _ func _ s hs => keep event func s hs) h)
    · rw [List.filter_cons_of_neg hown]
      have hsame : (handleEvent invoke table event s).2 = s := by
        refine handleEvent_induction (· = s) (fun _ func _ t ht => ?_) rfl
        subst ht
        exact other event (Bool.not_eq_true _ ▸ hown) func t h
      rw [hsame]
      exact ih h

end Dispatch

variable {proto : Proto} (pton : InetPton) (user : UserCode) (c : ClientId)

/-- The function that is called, and for which client.  `m_unhandled` has no role. -/
def Invocation.function : Invocation → ClientId × Option Role × Callback
  | .callback client role func => (client, some role, func)
  | .unhandled client func _ => (client, none, func)

/-- The callbacks that were invoked, latest first. -/
def World.callbacks (w : World proto) : List Invocation := w.trace.filter Invocation.isCallback

/-- The events of the descriptor that the client has. -/
def World.ownEvents (w : World proto) (events : List Event) : List Event :=
  events.filter fun event => event.fd = w.getFd c

/-- The same, but for the events that `m_unhandled` was given. -/
structure SameButReported (w w' : World proto) : Prop where
  kernel : w'.kernel = w.kernel
  registered : w'.registered = w.registered
  statics : w'.statics = w.statics
  clients : w'.clients = w.clients
  functions : w'.trace.map Invocation.function = w.trace.map Invocation.function
  callbacks : w'.callbacks = w.callbacks

/-- A call that starts nothing, with events of descriptors that can be open. -/
def ClientOp.StartsNothing : ClientOp → Prop
  | .start _ _ | .startLocal _ _ _ _ _ => False
  | .proceed events => ∀ event ∈ events, 0 ≤ event.fd
  | .connect _ _ _ | .stop => True

section

variable {pton} {user} {c} {w : World proto}

theorem SameButReported.refl (w : World proto) : SameButReported w w :=
  ⟨rfl, rfl, rfl, rfl, rfl, rfl⟩

/-- What `m_unhandled` is given makes no other difference. -/
theorem SameButReported.unhandled (w : World proto) (func : Callback)
    (missed missed' : List Event) :
    SameButReported (w.call user (.unhandled c func missed)).2
      (w.call user (.unhandled c func missed')).2 :=
  ⟨rfl, rfl, rfl, rfl, rfl, rfl⟩

/-- Up to `m_unhandled` a batch does what its own events do. -/
theorem handleEvents_own (w : World proto) (table : Handlers ClientHandler)
    (events : List Event) :
    (handleEvents (World.invoke user c) table (w.ownEvents c events) w).2 =
      (handleEvents (World.invoke user c) table events w).2 := by
  refine handleEvents_filter (fun v => v.getFd c = w.getFd c) _ ?_ ?_ events rfl
  · intro event hother func v hv
    have hfd : event.fd ≠ v.getFd c := by
      rw [hv]
      exact of_decide_eq_false hother
    exact congrArg Prod.snd (invoke_other hfd func)
  · intro event func v hv
    exact ((World.Calm.invoke func event.fd v).getFd c).trans hv

theorem proceed_own (w : World proto) (events : List Event) :
    SameButReported (w.proceed user c events).2 (w.proceed user c (w.ownEvents c events)).2 := by
  unfold World.proceed
  rw [proceed_snd, proceed_snd, handleEvents_own]
  cases (w.clients c).unhandled with
  | none => exact .refl _
  | some func =>
    rw [Option.map_some, handleUnhandled_some, handleUnhandled_some]
    exact .unhandled _ func _ _

/-! ### After `stop` -/

/-- A client without a socket, with the callbacks invoked so far. -/
def Quiet (c : ClientId) (callbacks : List Invocation) (w : World proto) : Prop :=
  (w.clients c).state = .idle none ∧ w.callbacks = callbacks

theorem quiet_stop (w : World proto) : Quiet c w.callbacks (w.stop c) := by
  refine ⟨?_, rfl⟩
  simp [World.stop, World.unregisterCbs, World.delSocket]

theorem quiet_proceed {callbacks : List Invocation} (h : Quiet c callbacks w) {events : List Event}
    (hevents : ∀ event ∈ events, 0 ≤ event.fd) :
    Quiet c callbacks (w.proceed user c events).2 := by
  have hown : w.ownEvents c events = [] := by
    refine List.filter_eq_nil_iff.mpr fun event hevent hfd => ?_
    have hclosed : w.getFd c = -1 := by rw [World.getFd, h.1]; rfl
    have hnonneg := hevents event hevent
    rw [hclosed] at hfd
    rw [of_decide_eq_true hfd] at hnonneg
    exact absurd hnonneg (by decide)
  have hempty : (w.proceed user c []).2.callbacks = w.callbacks := by
    unfold World.proceed
    rw [proceed_snd]
    cases (w.clients c).unhandled with
    | none => rfl
    | some func =>
      rw [Option.map_some, handleUnhandled_some]
      rfl
  refine ⟨((World.Calm.proceed user c w events).state c).trans h.1, ?_⟩
  rw [← (proceed_own w events).callbacks, hown, hempty, h.2]

theorem quiet_next {callbacks : List Invocation} (h : Quiet c callbacks w) {op : ClientOp}
    (hop : op.StartsNothing) {w' : World proto} (hstep : w.next pton user c op = some w') :
    Quiet c callbacks w' := by
  obtain rfl := Option.some.inj hstep
  cases op with
  | start ans added => exact hop.elim
  | startLocal address port ans bound added => exact hop.elim
  | connect args ans dead =>
    -- without a socket `connect` gives up once its static lambdas are initialised
    simp only [World.act, World.connect, h.1]
    exact h
  | stop =>
    have stopped := quiet_stop (c := c) w
    rw [h.2] at stopped
    exact stopped
  | proceed events =>
    rw [World.act_proceed]
    exact quiet_proceed h hop

end

/-- From any world, reached by any run or not, a batch does to the client, the polls and the calls
of functions what its own events do, and between `stop` and the next `start` no batch invokes a
callback. -/
theorem own_events_only (w : World proto) :
    (∀ events, SameButReported (w.proceed user c events).2
      (w.proceed user c (w.ownEvents c events)).2) ∧
    ∀ ops : List ClientOp, (∀ op ∈ ops, op.StartsNothing) →
      Always (World.next pton user c) (fun v => v.callbacks = w.callbacks) (w.stop c) ops := by
  refine ⟨proceed_own w, fun ops hops => ?_⟩
  have quiet : Always (World.next pton user c) (Quiet c w.callbacks) (w.stop c) ops :=
    Always.of_along (fun _ _ _ hv hop hstep => quiet_next hv hop hstep) (quiet_stop w)
      (along_of_mem hops (w.stop c))
  exact quiet.mono fun _ hv => hv.2

/-! ### A client that was started again -/

/-- The first socket was closed with events of it still to come. -/
def restartedTcp : World tcp :=
  [.start (.ok 3) true, .connect (loopbackArgs 80 1) (.ok ()) (loopbackArgs 80 1), .stop,
    .start (.ok 4) true].foldl
    (fun w op => (w.act loopbackPton (fun _ => .ok ()) 0 op).2)
    (.initial (fun _ => 2) fun _ => none)

def staleAndOwn : List Event := [⟨3, .hangup⟩, ⟨4, .writeReady⟩, ⟨3, .readReady⟩]

theorem own_events_only_restarted :
    (∀ events, SameButReported (restartedTcp.proceed (fun _ => .ok ()) 0 events).2
      (restartedTcp.proceed (fun _ => .ok ()) 0 (restartedTcp.ownEvents 0 events)).2) ∧
    Always (World.next loopbackPton (fun _ => .ok ()) 0)
      (fun v => v.callbacks = restartedTcp.callbacks) (restartedTcp.stop 0)
      [.proceed staleAndOwn, .stop, .proceed staleAndOwn] := by
  have h := own_events_only loopbackPton (fun _ => .ok ()) 0 restartedTcp
  exact ⟨h.1, h.2 _ (by simp [ClientOp.StartsNothing, staleAndOwn])⟩

/-- The callback of the own event is invoked, beside the events of the closed socket. -/
example : (restartedTcp.proceed (fun _ => .ok ()) 0 staleAndOwn).2.callbacks =
    [.callback 0 .onConnect 1] := by
  decide

end TypedSockets.Endpoint
