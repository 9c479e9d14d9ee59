import TypedSockets.Endpoint.Handlers

/-! When `on_connect` is invoked: the handler of `WRITE_READY` runs before those of `HANGUP` and
`ERROR`, and does not ask whether the connection was established. -/

namespace TypedSockets.Endpoint

open TypedSockets.Socket TypedSockets.Epoll TypedSockets.Lib

variable {proto : Proto} (pton : InetPton) (user : UserCode) (c : ClientId)

/-- The connection of the held socket. -/
inductive Link where
  | none
  | connecting
  | established
  | failed
  deriving DecidableEq

/-- A client with the connection of its socket. -/
structure Linked (proto : Proto) where
  world : World proto
  link : Link

/-- A call on the client, or the end of a connection attempt. -/
inductive LinkOp where
  | call (op : ClientOp)
  | resolve (connected : Bool)

/-- The connection after a call that returned `b`. -/
def Link.after (link : Link) (state : ClientState proto) (b : Bool) : ClientOp → Link
  | .start _ _ | .startLocal _ _ _ _ _ => if b then .none else link
  | .connect _ ans _ =>
    match state, b, ans with
    | .active _, _, _ => link
    | _, false, _ => link
    | _, true, .ok () => .established
    | _, true, .error _ => .connecting
  | .stop => .none
  | .proceed _ => link

def Linked.next (s : Linked proto) : LinkOp → Option (Linked proto)
  | .call op =>
    let (b, w) := s.world.act pton user c op
    some ⟨w, s.link.after (s.world.clients c).state b op⟩
  | .resolve connected =>
    match s.link with
    | .connecting => some { s with link := if connected then .established else .failed }
    | _ => some s

/-- The number of invocations of `on_connect`. -/
def connectCalls (w : World proto) : Nat :=
  w.trace.countP fun inv =>
    match inv with
    | .callback i .onConnect _ => i = c
    | _ => false

/-- One event of a batch. -/
def eventStep (w : World proto) (event : Event) : Option (World proto) :=
  some (handleEvent (World.invoke user c) (w.clients c).handlers event w).2

/-- The event does not invoke `on_connect`, unless the connection is established and the event
carries neither `ERROR` nor `HANGUP`. -/
def ConnectedCall (link : Link) (w : World proto) (event : Event) : Prop :=
  (∀ w', eventStep user c w event = some w' → connectCalls c w' = connectCalls c w) ∨
    (link = .established ∧ event.has .error = false ∧ event.has .hangup = false)

/-- No call invokes `on_connect`, and every event of a batch only as it should. -/
def ConnectMeans (s : Linked proto) : LinkOp → Prop
  | .call (.proceed events) => Along (eventStep user c) (ConnectedCall user c s.link) s.world events
  | .call op => connectCalls c (s.world.act pton user c op).2 = connectCalls c s.world
  | .resolve _ => True

/-- The callback for reading is called for the event and throws. -/
def readThrows (w : World proto) (event : Event) : Bool :=
  event.has .readReady && ((w.clients c).handlers .readReady).isSome &&
    match (w.clients c).onReadReady with
    | none => true
    | some func =>
      match user (.callback c .onReadReady func :: w.trace) with
      | .ok () => false
      | .error _ => true

/-- The event gets to an armed `on_connect`: it is for the descriptor of the client, carries
`WRITE_READY`, and the callback for reading does not throw before. -/
def fires (w : World proto) (event : Event) : Bool :=
  event.fd = w.getFd c && event.has .writeReady && ((w.clients c).handlers .writeReady).isSome &&
    (w.clients c).onConnect.isSome && !readThrows user c w event

/-- Every event that gets to an armed `on_connect` comes on an established connection and carries
neither `ERROR` nor `HANGUP`. -/
def Established (s : Linked proto) : LinkOp → Prop
  | .call (.proceed events) =>
    Along (eventStep user c) (fun w event => fires user c w event = true →
      s.link = .established ∧ event.has .error = false ∧ event.has .hangup = false) s.world events
  | _ => True

variable {c}

/-- A type is looked up under its own key when the event carries it, and finds nothing
otherwise. -/
theorem lookup_single {w : World proto} (h : Registered c w) {event : Event} {tp : EventType}
    (htp : tp ∈ EventType.singles) :
    (w.clients c).handlers (event.type &&& tp) =
      if event.has tp then (w.clients c).handlers tp else none :=
  lookup_mask (registered_over h).none htp

theorem connectCalls_congr {w w' : World proto} (h : w'.trace = w.trace) :
    connectCalls c w' = connectCalls c w := by
  unfold connectCalls
  rw [h]

theorem connectCalls_call (w : World proto) (inv : Invocation) :
    connectCalls c (w.call user inv).2 = connectCalls c w +
      if (match inv with
        | .callback i .onConnect _ => decide (i = c)
        | _ => false) then 1 else 0 := by
  simp [connectCalls, World.call, List.countP_cons]

theorem connectCalls_callOnce (w : World proto) (i : ClientId) (inv : Invocation)
    (clear : Client proto → Client proto) :
    connectCalls c (w.callOnce user i inv clear).2 = connectCalls c (w.call user inv).2 := by
  rcases World.callOnce_cases user w i inv clear with h | h <;> rw [h]
  exact connectCalls_congr rfl

/-- Only the handler of `WRITE_READY` invokes `on_connect`. -/
theorem connectCalls_invoke {w : World proto} {func : ClientHandler} {fd : Fd}
    (h : func ≠ .writeReady) : connectCalls c (w.invoke user c func fd).2 = connectCalls c w := by
  unfold World.invoke
  split_ifs
  · cases func with
    | erase =>
      simp only
      split
      · rw [connectCalls_callOnce, connectCalls_call]
        exact connectCalls_congr rfl
      · exact connectCalls_congr rfl
    | readReady =>
      simp only
      split
      · rw [connectCalls_call]
        rfl
      · rfl
    | writeReady => exact absurd rfl h
  · rfl

theorem connectCalls_write (w : World proto) (fd : Fd) :
    connectCalls c (w.invoke user c .writeReady fd).2 =
      connectCalls c w + if fd = w.getFd c ∧ (w.clients c).onConnect.isSome then 1 else 0 := by
  by_cases hfd : fd = w.getFd c
  · cases hcb : (w.clients c).onConnect with
    | none => simp [World.invoke, hfd, hcb]
    | some func => simp [World.invoke, hfd, hcb, connectCalls_callOnce, connectCalls_call]
  · simp [World.invoke, hfd]

theorem registered_read {w : World proto} (h : Registered c w) {func : ClientHandler}
    (hfunc : (w.clients c).handlers .readReady = some func) : func = .readReady := by
  have hmem := h _ _ hfunc
  cases func with
  | readReady => rfl
  | _ => exact absurd hmem (by decide)

theorem registered_write {w : World proto} (h : Registered c w) {func : ClientHandler}
    (hfunc : (w.clients c).handlers .writeReady = some func) : func = .writeReady := by
  have hmem := h _ _ hfunc
  cases func with
  | writeReady => rfl
  | _ => exact absurd hmem (by decide)

/-- What the type `READ_READY` of an event leaves of what `fires` asks about, and when it ends the
event with an exception. -/
structure AfterRead (user : UserCode) (c : ClientId) (w : World proto) (event : Event)
    (out : Except Exn Bool × World proto) : Prop where
  calls : connectCalls c out.2 = connectCalls c w
  fd : out.2.getFd c = w.getFd c
  onConnect : (out.2.clients c).onConnect = (w.clients c).onConnect
  throws : (∃ e, out.1 = .error e) ↔ event.fd = w.getFd c ∧ readThrows user c w event = true

theorem after_read {w : World proto} (h : Registered c w) (event : Event) :
    AfterRead user c w event (handleEventType (World.invoke user c) (w.clients c).handlers event
      .readReady w) := by
  unfold handleEventType
  rw [lookup_single h (by decide)]
  by_cases hhas : event.has .readReady = true
  · rw [if_pos hhas]
    cases hfunc : (w.clients c).handlers .readReady with
    | none => exact ⟨rfl, rfl, rfl, by simp [readThrows, hfunc]⟩
    | some func =>
      obtain rfl := registered_read h hfunc
      by_cases hfd : event.fd = w.getFd c
      · cases hcb : (w.clients c).onReadReady with
        | none =>
          simp only [World.invoke, hfd, hcb, ↓reduceIte]
          exact ⟨rfl, rfl, rfl, by simp [readThrows, hhas, hfunc, hcb, hfd]⟩
        | some cb =>
          have hcalls := connectCalls_call (c := c) user w (.callback c .onReadReady cb)
          simp only [World.invoke, hfd, hcb, ↓reduceIte, World.call] at hcalls ⊢
          cases huser : user (.callback c .onReadReady cb :: w.trace) <;>
            exact ⟨hcalls, rfl, rfl, by simp [readThrows, hhas, hfunc, hcb, hfd, huser]⟩
      · simp only [World.invoke, hfd, ↓reduceIte]
        exact ⟨rfl, rfl, rfl, by simp [hfd]⟩
  · rw [if_neg hhas]
    exact ⟨rfl, rfl, rfl, by simp [readThrows, hhas]⟩

theorem connectCalls_writeType {w u : World proto} (h : Registered c w) (event : Event) :
    connectCalls c (handleEventType (World.invoke user c) (w.clients c).handlers event .writeReady
      u).2 = connectCalls c u +
        if event.has .writeReady ∧ ((w.clients c).handlers .writeReady).isSome ∧
          event.fd = u.getFd c ∧ (u.clients c).onConnect.isSome then 1 else 0 := by
  rw [handleEventType_snd, lookup_single h (by decide)]
  by_cases hhas : event.has .writeReady = true
  · rw [if_pos hhas]
    cases hfunc : (w.clients c).handlers .writeReady with
    | none => simp
    | some func =>
      obtain rfl := registered_write h hfunc
      simpa [hhas] using connectCalls_write (c := c) user u event.fd
  · simp [hhas]

/-- An event invokes `on_connect` once when it gets to an armed one, and not at all otherwise. -/
theorem connectCalls_event {w : World proto} (h : Registered c w) (event : Event) :
    connectCalls c (handleEvent (World.invoke user c) (w.clients c).handlers event w).2 =
      connectCalls c w + if fires user c w event then 1 else 0 := by
  obtain ⟨hcalls, hfd, hon, hthrows⟩ := after_read user h event
  rw [handleEvent, dispatchOrder, handleEventTypes_cons]
  rcases hout : handleEventType (World.invoke user c) (w.clients c).handlers event .readReady w with
    ⟨r, w1⟩
  rw [hout] at hcalls hfd hon hthrows
  simp only at hcalls hfd hon hthrows ⊢
  cases r with
  | error e =>
    obtain ⟨hown, hread⟩ := hthrows.mp ⟨e, rfl⟩
    simp [fires, hread, hcalls]
  | ok handled =>
    have hwrite := connectCalls_writeType user (u := w1) h event
    have hfires : (event.has .writeReady = true ∧ ((w.clients c).handlers .writeReady).isSome = true ∧
        event.fd = w1.getFd c ∧ (w1.clients c).onConnect.isSome = true) ↔
          fires user c w event = true := by
      have hno : ¬(event.fd = w.getFd c ∧ readThrows user c w event = true) :=
        fun hboth => by simpa using hthrows.mpr hboth
      rw [hfd, hon]
      simp only [fires, Bool.and_eq_true, decide_eq_true_eq, Bool.not_eq_true']
      grind
    simp only [hfires, hcalls] at hwrite
    simp only
    rw [handleEventTypes_cons]
    rcases hout2 : handleEventType (World.invoke user c) (w.clients c).handlers event .writeReady w1
      with ⟨r2, w2⟩
    rw [hout2] at hwrite
    simp only at hwrite ⊢
    cases r2 with
    | error e => exact hwrite
    | ok handled2 =>
      -- the types after `WRITE_READY` have other handlers
      rw [← hwrite]
      refine handleEventTypes_induction (fun u => connectCalls c u = connectCalls c w2) ?_ _ rfl
      intro tp htp func hfunc u hu
      rw [connectCalls_invoke, hu]
      rintro rfl
      have hsingle : tp ∈ EventType.singles ∧ (tp, ClientHandler.writeReady) ∉ World.cbs := by
        simp only [List.mem_cons, List.not_mem_nil, or_false] at htp
        rcases htp with rfl | rfl | rfl | rfl <;> decide
      rw [lookup_single h hsingle.1] at hfunc
      split_ifs at hfunc
      exact hsingle.2 (h _ _ hfunc)

theorem connectedCall_iff {w : World proto} (h : Registered c w) (link : Link) (event : Event) :
    ConnectedCall user c link w event ↔ (fires user c w event = true →
      link = .established ∧ event.has .error = false ∧ event.has .hangup = false) := by
  have hcount := connectCalls_event user h event
  have hstep : (∀ w', eventStep user c w event = some w' → connectCalls c w' = connectCalls c w) ↔
      fires user c w event = false := by
    simp only [eventStep, Option.some.injEq, forall_eq']
    rw [hcount]
    cases fires user c w event <;> simp
  rw [ConnectedCall, hstep]
  cases fires user c w event <;> simp

theorem calm_event (w : World proto) (event : Event) :
    World.Calm w (handleEvent (World.invoke user c) (w.clients c).handlers event w).2 :=
  handleEvent_induction (World.Calm w)
    (fun _ func _ v hv => hv.trans (.invoke func event.fd v)) (.refl w)

theorem registered_event {w w' : World proto} (h : Registered c w) {event : Event}
    (hstep : eventStep user c w event = some w') : Registered c w' := by
  obtain rfl := Option.some.inj hstep
  exact registered_congr h ((calm_event user w event).handlers c)

theorem act_trace (w : World proto) {op : ClientOp} (h : ∀ events, op ≠ .proceed events) :
    (w.act pton user c op).2.trace = w.trace := by
  have lambda (w : World proto) (this : ClientId) (frame : ConnectArgs) (ans : Answer) :
      (w.connectLambda pton this c frame ans).2.trace = w.trace := by
    unfold World.connectLambda
    split
    · simp only
      split <;> rfl
    · rfl
  cases op with
  | start ans added =>
    simp only [World.act, World.start]
    split
    · split
      · cases added <;> rfl
      · rfl
    · rfl
  | startLocal address port ans bound added =>
    simp only [World.act, World.startLocal]
    split
    · split
      · split
        · cases added <;> rfl
        · rfl
      · rfl
    · rfl
  | connect args ans dead =>
    simp only [World.act, World.connect]
    split
    · split <;> rfl
    · rfl
    · split
      · rfl
      · exact lambda _ _ _ _
    · exact lambda _ _ _ _
  | stop => rfl
  | proceed events => exact absurd rfl (h events)

/-- The steps over the events of a batch are the loop of `proceed`. -/
theorem exec_eventStep (w : World proto) (events : List Event) :
    exec (eventStep user c) w events =
      some (handleEvents (World.invoke user c) (w.clients c).handlers events w).2 := by
  induction events generalizing w with
  | nil => rfl
  | cons event events ih =>
    rw [exec_cons, eventStep, Option.bind_some, ih, (calm_event user w event).handlers]
    rfl

theorem connectMeans_iff {s : Linked proto} (h : Registered c s.world) (op : LinkOp) :
    ConnectMeans pton user c s op ↔ Established user c s op := by
  cases op with
  | resolve connected => exact Iff.rfl
  | call op =>
    cases op with
    | proceed events =>
      exact along_iff (fun w event hw => connectedCall_iff user hw s.link event)
        (fun w event w' hw _ hstep => registered_event user hw hstep) h events
    | _ => exact iff_of_true (connectCalls_congr (act_trace pton user s.world (by simp))) trivial

theorem registered_act {w : World proto} (h : Registered c w) (op : ClientOp) :
    Registered c (w.act pton user c op).2 := by
  cases op with
  | start ans added =>
    simp only [World.act, World.start]
    split
    · split
      · exact registered_started h _ _ _ _
      · exact h
    · exact h
  | startLocal address port ans bound added =>
    simp only [World.act, World.startLocal]
    split
    · split
      · split
        · exact registered_started h _ _ _ _
        · exact h
      · exact h
    · exact h
  | connect args ans dead =>
    exact registered_congr h (World.connect_handlers w c c args ans dead)
  | stop => exact registered_unregisterCbs (registered_setState h _)
  | proceed events =>
    rw [World.act_proceed]
    exact registered_congr h ((World.Calm.proceed user c w events).handlers c)

theorem registered_next {s s' : Linked proto} (h : Registered c s.world) {op : LinkOp}
    (hstep : s.next pton user c op = some s') : Registered c s'.world := by
  cases op with
  | call op =>
    obtain rfl := Option.some.inj hstep
    exact registered_act pton user h op
  | resolve connected =>
    simp only [Linked.next] at hstep
    split at hstep <;> obtain rfl := Option.some.inj hstep <;> exact h

/-- In a run of a client `on_connect` is invoked only on an established connection, by events
without `ERROR` and `HANGUP`, exactly when no other event gets to an armed `on_connect`. -/
theorem onConnect_run (af : ClientId → Int) (unhandled : ClientId → Option Callback)
    (ops : List LinkOp) :
    let initial : Linked proto := ⟨.initial af unhandled, .none⟩
    Along (Linked.next pton user c) (ConnectMeans pton user c) initial ops ↔
      Along (Linked.next pton user c) (Established user c) initial ops := by
  have start : Registered c (World.initial af unhandled : World proto) := by
    simp [Registered, World.initial, Handlers.empty]
  exact along_iff (fun s op (h : Registered c s.world) => connectMeans_iff pton user h op)
    (fun s op s' h _ hstep => registered_next pton user h hstep) start ops

/-- A connection that is refused while it is under way, and the event that reports it. -/
def refusedRun : List LinkOp :=
  [.call (.start (.ok 3) true),
    .call (.connect (loopbackArgs 80 1) (.error eInProgress) (loopbackArgs 80 1)),
    .resolve false,
    .call (.proceed [⟨3, .writeReady ||| .error ||| .hangup⟩])]

theorem refusedRun_calls_onConnect :
    let initial : Linked tcp := ⟨.initial (fun _ => 2) fun _ => none, .none⟩
    ¬Along (Linked.next loopbackPton (fun _ => .ok ()) 0)
      (ConnectMeans loopbackPton (fun _ => .ok ()) 0) initial refusedRun := by
  intro initial h
  obtain ⟨hevent, -⟩ := (((h.2 _ rfl).2 _ rfl).2 _ rfl).1
  rcases hevent with hsame | ⟨hlink, -⟩
  · exact absurd (hsame _ rfl) (by decide)
  · exact absurd hlink (by decide)

end TypedSockets.Endpoint
