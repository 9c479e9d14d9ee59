import TypedSockets.Endpoint.EraseOnce
import TypedSockets.Endpoint.OneShot
import TypedSockets.Endpoint.Stop
import TypedSockets.Endpoint.Unregister

/-! Calls of an empty `std::function`.  Three of the places that call one do not ask whether it is
set: `READ_READY` of a client, the handlers of a server, and `server_t::stop`. -/

namespace TypedSockets.Endpoint

open TypedSockets.Socket TypedSockets.Epoll TypedSockets.Lib

variable {proto : Proto} (pton : InetPton) (user : UserCode) (c : ClientId)

/-- The function that was invoked is empty: what was thrown is `std::bad_function_call`, and no
function of the user was called that could have thrown it. -/
def emptyCall {σ : Type} (calls : σ → Nat) (s : σ) (out : Except Exn Unit × σ) : Bool :=
  match out.1 with
  | .error .badFunctionCall => calls out.2 = calls s
  | _ => false

/-- A handler, with the number of empty functions invoked. -/
def counted {H σ : Type} (calls : σ → Nat) (invoke : H → Fd → σ → Except Exn Unit × σ) (func : H)
    (fd : Fd) (s : σ × Nat) : Except Exn Unit × σ × Nat :=
  let out := invoke func fd s.1
  (out.1, out.2, s.2 + if emptyCall calls s.1 out then 1 else 0)

/-- How many empty functions the handlers of a batch invoke. -/
def emptyCalls {H σ : Type} (calls : σ → Nat) (invoke : H → Fd → σ → Except Exn Unit × σ)
    (table : Handlers H) (events : List Event) (s : σ) : Nat :=
  (handleEvents (counted calls invoke) table events (s, 0)).2.2

/-- The calls of functions of the user. -/
def World.called (w : World proto) : Nat := w.trace.length

def Action.isCall : Action → Bool
  | .added _ _ => false
  | _ => true

def Host.called (h : Host proto) : Nat := h.trace.countP Action.isCall

/-! ### The runs -/

/-- A client, whether a `start` returned true since the last `stop`, and what the last `connect`
that returned true found in the memory of its callbacks. -/
structure Reader (proto : Proto) where
  world : World proto
  up : Bool
  stored : Option ConnectArgs

namespace Reader

def initial (af : ClientId → Int) (unhandled : ClientId → Option Callback) : Reader proto :=
  ⟨.initial af unhandled, false, none⟩

def next (s : Reader proto) : LifeOp → Option (Reader proto)
  | .call op =>
    let (b, w) := s.world.act pton user c op
    some (match op with
      | .start _ _ | .startLocal _ _ _ _ _ => ⟨w, s.up || b, s.stored⟩
      | .stop => ⟨w, false, s.stored⟩
      | .connect args _ dead =>
        let frame := if s.world.statics.isNone then args else dead
        ⟨w, s.up, if b then some frame else s.stored⟩
      | .proceed _ => ⟨w, s.up, s.stored⟩)
  | .destroy => none

/-- No handler invokes an empty function.  The other calls, and the destructor, invoke none at
all. -/
def NoEmpty (s : Reader proto) : LifeOp → Prop
  | .call (.proceed events) =>
    emptyCalls World.called (World.invoke user c) (s.world.clients c).handlers events s.world = 0
  | _ => True

/-- A client that is started gets `READ_READY` for its own descriptor only after a `connect` that
returned true and stored a callback for it. -/
def ReadsStored (s : Reader proto) : LifeOp → Prop
  | .call (.proceed events) =>
    s.up = true → (∃ event ∈ events, event.fd = s.world.getFd c ∧ event.has .readReady = true) →
      ∃ frame ∈ s.stored, frame.onReadReady.isSome
  | _ => True

end Reader

/-- The user passes only functions that are not empty. -/
def ServerCall.Full : ServerCall → Prop
  | .start args _ _ _ _ => args.onConn.isSome ∧ args.eraseActiveSocket.isSome
  | .startConnectionless _ _ onConn onClose _ _ _ => onConn.isSome ∧ onClose.isSome
  | _ => True

abbrev FullCall := {op : ServerCall // op.Full}

namespace Service

variable (suser : ServerUser)

def nextFull (s : Service proto) (op : FullCall) : Option (Service proto) := s.next pton suser op.1

/-- No handler, `stop` or destructor invokes an empty function. -/
def NoEmpty (s : Service proto) (op : FullCall) : Prop :=
  match op.1 with
  | .proceed new added events =>
    emptyCalls Host.called (Host.invoke suser new added) s.host.server.handlers events s.host = 0
  | .stop => emptyCall Host.called s.host (s.host.callErase suser s.host.getFd) = false
  | .destroy => s.host.server.eraseActiveSocket.isSome →
      emptyCall Host.called s.host (s.host.callErase suser (-1)) = false
  | _ => True

/-- `stop` is called only while a `start` is current. -/
def StopsCurrent (s : Service proto) (op : FullCall) : Prop :=
  match op.1 with
  | .stop => s.current.isSome
  | _ => True

end Service

section

variable {pton} {user} {c} {w : World proto}

/-! ### The handlers of a client -/

/-- Only the handler of `READ_READY` invokes an empty function. -/
theorem emptyCall_invoke (func : ClientHandler) (fd : Fd) (w : World proto) :
    emptyCall World.called w (w.invoke user c func fd) = true ↔
      func = .readReady ∧ fd = w.getFd c ∧ (w.clients c).onReadReady = none := by
  have once (v : World proto) (inv : Invocation) (clear : Client proto → Client proto) :
      emptyCall World.called v (v.callOnce user c inv clear) = false := by
    obtain ⟨htrace, -⟩ := callOnce_result user (c := c) v inv clear
    unfold emptyCall World.called
    rw [htrace]
    split <;> simp
  by_cases hfd : fd = w.getFd c
  · cases func with
    | readReady =>
      cases hcb : (w.clients c).onReadReady with
      | none => simp [World.invoke, hfd, hcb, emptyCall]
      | some func =>
        simp only [World.invoke, if_pos hfd, hcb, World.call, emptyCall, World.called]
        split <;> simp
    | erase =>
      simp only [World.invoke, if_pos hfd]
      have same (out : Except Exn Unit × World proto) : emptyCall World.called w out =
          emptyCall World.called (w.delSocket c fd) out := rfl
      split
      · simp [same, once]
      · simp [emptyCall]
    | writeReady =>
      simp only [World.invoke, if_pos hfd]
      split
      · simp [once]
      · simp [emptyCall]
  · simp [World.invoke, hfd, emptyCall]

/-- The handlers of an event: that of `READ_READY`, and others. -/
theorem handlersOf_read (h : Registered c w) (event : Event) :
    ∃ others, handlersOf (w.clients c).handlers event =
        (if event.has .readReady ∧ ((w.clients c).handlers .readReady).isSome then
          [ClientHandler.readReady] else []) ++ others ∧ ClientHandler.readReady ∉ others := by
  refine ⟨dispatchOrder.tail.filterMap
    fun tp => if event.has tp then (w.clients c).handlers tp else none, ?_, ?_⟩
  · have hcons : handlersOf (w.clients c).handlers event =
        (if event.has .readReady then (w.clients c).handlers .readReady else none).toList ++
          dispatchOrder.tail.filterMap
            fun tp => if event.has tp then (w.clients c).handlers tp else none := by
      rw [handlersOf, dispatchOrder, List.filterMap_cons]
      cases (if event.has .readReady then (w.clients c).handlers .readReady else none) <;> rfl
    rw [hcons]
    congr 1
    by_cases hhas : event.has .readReady = true
    · cases hfunc : (w.clients c).handlers .readReady with
      | none => simp
      | some func =>
        obtain rfl := registered_read h hfunc
        simp [hhas]
    · simp [hhas]
  · intro hmem
    obtain ⟨tp, htp, hfound⟩ := List.mem_filterMap.mp hmem
    split_ifs at hfound
    have hread : tp = .readReady := by simpa [World.cbs] using h tp _ hfound
    rw [hread] at htp
    exact absurd htp (by decide)

/-- An event that makes the handler of `READ_READY` invoke an empty function. -/
def readsEmpty (c : ClientId) (w : World proto) (event : Event) : Bool :=
  event.fd = w.getFd c && event.has .readReady && ((w.clients c).handlers .readReady).isSome &&
    (w.clients c).onReadReady.isNone

variable (user) (c) in
/-- A handler of the client on a descriptor, with the count. -/
abbrev countedFd (fd : Fd) (func : ClientHandler) (s : World proto × Nat) :
    Except Exn Unit × World proto × Nat :=
  counted World.called (World.invoke user c) func fd s

variable (user) in
theorem counted_others (fd : Fd) {funcs : List ClientHandler} (h : ClientHandler.readReady ∉ funcs)
    (s : World proto × Nat) : (attempt (countedFd user c fd) funcs s).2.2 = s.2 := by
  refine attempt_induction (fun s' : World proto × Nat => s'.2 = s.2) (fun func hfunc s' hs' => ?_) rfl
  have hnot : emptyCall World.called s'.1 (s'.1.invoke user c func fd) = false := by
    rw [← Bool.not_eq_true, emptyCall_invoke]
    rintro ⟨rfl, -⟩
    exact h hfunc
  simp only [countedFd, counted, hnot]
  exact hs'

variable (user) in
/-- The handler of `READ_READY` runs first, and an exception of it ends the event. -/
theorem counted_event (h : Registered c w) (event : Event) (n : Nat) :
    (handleEvent (counted World.called (World.invoke user c)) (w.clients c).handlers event
      (w, n)).2.2 = n + if readsEmpty c w event then 1 else 0 := by
  obtain ⟨others, hfuncs, hothers⟩ := handlersOf_read h event
  rw [handleEvent_attempt (registered_over h), hfuncs]
  change (attempt (countedFd user c event.fd) _ (w, n)).2.2 = _
  by_cases hread : event.has .readReady = true ∧ ((w.clients c).handlers .readReady).isSome = true
  · rw [if_pos hread, List.singleton_append]
    have hiff : emptyCall World.called w (w.invoke user c .readReady event.fd) = true ↔
        readsEmpty c w event = true := by
      rw [emptyCall_invoke]
      simp only [readsEmpty, hread.1, hread.2, Bool.and_eq_true, decide_eq_true_eq,
        Option.isNone_iff_eq_none, and_true, true_and]
    have hcount : (countedFd user c event.fd .readReady (w, n)).2.2 =
        n + if readsEmpty c w event then 1 else 0 := by
      simp only [countedFd, counted, hiff]
    rcases act_cases (countedFd user c event.fd) .readReady (w, n) with ⟨s', hact⟩ | ⟨e, s', hact⟩
    all_goals rw [hact] at hcount
    · rw [attempt_ok hact, counted_others user event.fd hothers]
      exact hcount
    · rw [attempt_error hact]
      exact hcount
  · rw [if_neg hread, List.nil_append, counted_others user event.fd hothers]
    have hnot : readsEmpty c w event = false := by
      rw [← Bool.not_eq_true]
      simp only [readsEmpty, Bool.and_eq_true]
      tauto
    simp [hnot]

variable (user) in
/-- No handler stores or clears `on_read_ready`. -/
theorem invoke_onReadReady (func : ClientHandler) (fd : Fd) (w : World proto) :
    ((w.invoke user c func fd).2.clients c).onReadReady = (w.clients c).onReadReady := by
  by_cases h : func = .readReady
  · subst h
    unfold World.invoke
    split_ifs
    · simp only
      split <;> rfl
    · rfl
  · have hbeside : Beside c .onReadReady w (w.invoke user c func fd).2 := .invoke user h fd w
    exact hbeside.callback

variable (user) in
theorem readsEmpty_event (w : World proto) (event : Event) :
    readsEmpty c (handleEvent (World.invoke user c) (w.clients c).handlers event w).2 =
      readsEmpty c w := by
  have calm := calm_event user (c := c) w event
  have hreads : (((handleEvent (World.invoke user c) (w.clients c).handlers event w).2).clients
      c).onReadReady = (w.clients c).onReadReady :=
    handleEvent_induction (fun v : World proto => (v.clients c).onReadReady = (w.clients c).onReadReady)
      (fun _ func _ v hv => (invoke_onReadReady user func event.fd v).trans hv) rfl
  have hfd : (handleEvent (World.invoke user c) (w.clients c).handlers event w).2.getFd c =
      w.getFd c := calm.getFd c
  funext event'
  simp only [readsEmpty, hfd, calm.handlers, hreads]

/-- A batch invokes an empty function once for each event that makes the handler do so. -/
theorem counted_events (h : Registered c w) (events : List Event) (n : Nat) :
    (handleEvents (counted World.called (World.invoke user c)) (w.clients c).handlers events
      (w, n)).2.2 = n + events.countP (readsEmpty c w) := by
  induction events generalizing w n with
  | nil => rfl
  | cons event events ih =>
    let v := (handleEvent (World.invoke user c) (w.clients c).handlers event w).2
    have hview : (handleEvent (counted World.called (World.invoke user c)) (w.clients c).handlers
        event (w, n)).2.1 = v :=
      (congrArg Prod.snd (handleEvents_map (counted World.called (World.invoke user c)) Prod.fst
        (fun _ _ _ => rfl) [event] (w, n))).symm
    have hout : (handleEvent (counted World.called (World.invoke user c)) (w.clients c).handlers
        event (w, n)).2 = (v, n + if readsEmpty c w event then 1 else 0) :=
      Prod.ext hview (counted_event user h event n)
    have hsame : (v.clients c).handlers = (w.clients c).handlers :=
      (calm_event user w event).handlers c
    have hrest := ih (registered_congr h hsame) (n + if readsEmpty c w event then 1 else 0)
    have hreads : readsEmpty c v = readsEmpty c w := readsEmpty_event user w event
    rw [hsame, hreads] at hrest
    have hcons : (handleEvents (counted World.called (World.invoke user c)) (w.clients c).handlers
        (event :: events) (w, n)).2 =
          (handleEvents (counted World.called (World.invoke user c)) (w.clients c).handlers events
            (handleEvent (counted World.called (World.invoke user c)) (w.clients c).handlers event
              (w, n)).2).2 := rfl
    rw [hcons, hout, hrest, List.countP_cons]
    omega

theorem emptyCalls_iff (h : Registered c w) (events : List Event) :
    emptyCalls World.called (World.invoke user c) (w.clients c).handlers events w = 0 ↔
      ∀ event ∈ events, readsEmpty c w event = false := by
  rw [emptyCalls, counted_events h, Nat.zero_add, List.countP_eq_zero]
  simp

/-! ### The run of a client -/

variable {s : Reader proto}

/-- The handler of `READ_READY` is there while the client is up, and the callback is what was stored
last. -/
structure Reads (c : ClientId) (s : Reader proto) : Prop where
  statics : OwnStatics s.world c
  handlers : Registered c s.world
  up : s.up = true → AllRegistered c s.world
  down : s.up = false → (s.world.clients c).handlers .readReady = none
  stored : (s.world.clients c).onReadReady = s.stored.bind fun frame => frame.onReadReady

theorem noEmpty_iff (h : Reads c s) (op : LifeOp) : s.NoEmpty user c op ↔ s.ReadsStored c op := by
  cases op with
  | destroy => exact Iff.rfl
  | call op =>
    cases op with
    | proceed events =>
      rw [Reader.NoEmpty, emptyCalls_iff h.handlers, Reader.ReadsStored]
      have hstored : (s.world.clients c).onReadReady.isNone = false ↔
          ∃ frame ∈ s.stored, frame.onReadReady.isSome := by
        rw [h.stored]
        cases s.stored with
        | none => simp
        | some frame => cases hframe : frame.onReadReady <;> simp [hframe]
      rw [← hstored]
      cases hup : s.up with
      | false =>
        refine iff_of_true (fun event _ => ?_) fun hcontra => by cases hcontra
        simp [readsEmpty, h.down hup]
      | true =>
        have hread := h.up hup (.readReady, .readReady) (by decide)
        simp only [readsEmpty, hread]
        grind
    | _ => exact Iff.rfl

theorem proceed_onReadReady (w : World proto) (events : List Event) :
    ((w.proceed user c events).2.clients c).onReadReady = (w.clients c).onReadReady := by
  refine proceed_induction
    (fun v : World proto => (v.clients c).onReadReady = (w.clients c).onReadReady) ?_ ?_ rfl
  · intro event _ v hv
    exact handleEvent_induction
      (fun v : World proto => (v.clients c).onReadReady = (w.clients c).onReadReady)
      (fun _ func _ u hu => (invoke_onReadReady user func event.fd u).trans hu) hv
  · intro func hfunc missed v hv
    obtain ⟨f, -, rfl⟩ := Option.mem_map.mp hfunc
    exact hv

/-- A call that leaves the handlers and the callback. -/
theorem Reads.same (h : Reads c s) {w : World proto} (statics : OwnStatics w c)
    (handlers : (w.clients c).handlers = (s.world.clients c).handlers)
    (stored : (w.clients c).onReadReady = (s.world.clients c).onReadReady) :
    Reads c { s with world := w } :=
  ⟨statics, registered_congr h.handlers handlers,
    fun hup => allRegistered_congr (h.up hup) handlers,
    fun hdown => (congrFun handlers _).trans (h.down hdown), stored.trans h.stored⟩

variable (pton) (user) in
theorem Reads.start (h : Reads c s) {op : ClientOp} (hop : op.isStart = true) :
    let r := s.world.act pton user c op
    Reads c ⟨r.2, s.up || r.1, s.stored⟩ := by
  intro r
  have hstatics : OwnStatics r.2 c := ownStatics_act h.statics op
  have quiet : ∀ events, op ≠ .proceed events := by
    rintro events rfl
    cases hop
  have refused : ∀ args ans dead, op = .connect args ans dead → r.1 = false := by
    rintro args ans dead rfl
    cases hop
  have hstored : (r.2.clients c).onReadReady = (s.world.clients c).onReadReady :=
    act_callback pton s.world quiet refused .onReadReady
  cases hr : r.1 with
  | false =>
    have hsame : (r.2.clients c).handlers = (s.world.clients c).handlers :=
      start_keeps pton user hop hr
    rw [Bool.or_false]
    exact h.same hstatics hsame hstored
  | true =>
    have hall : AllRegistered c r.2 := start_allRegistered h.handlers hop hr
    rw [Bool.or_true]
    exact {
      statics := hstatics
      handlers := registered_act pton user h.handlers op
      up := fun _ => hall
      down := fun hdown => nomatch hdown
      stored := hstored.trans h.stored }

variable (pton) (user) in
theorem Reads.connect (h : Reads c s) (args : ConnectArgs) (ans : Answer) (dead : ConnectArgs) :
    let r := s.world.act pton user c (.connect args ans dead)
    Reads c ⟨r.2, s.up,
      if r.1 then some (if s.world.statics.isNone then args else dead) else s.stored⟩ := by
  intro r
  have hstatics : OwnStatics r.2 c := ownStatics_act h.statics (.connect args ans dead)
  have hsame : (r.2.clients c).handlers = (s.world.clients c).handlers :=
    World.connect_handlers s.world c c args ans dead
  cases hr : r.1 with
  | false =>
    have hstored : (r.2.clients c).onReadReady = (s.world.clients c).onReadReady :=
      act_callback pton s.world (by simp) (fun _ _ _ _ => hr) .onReadReady
    exact h.same hstatics hsame hstored
  | true =>
    have hstored := connect_stores pton hr .onReadReady
    rw [h.statics.getD] at hstored
    exact {
      statics := hstatics
      handlers := registered_congr h.handlers hsame
      up := fun hup => allRegistered_congr (h.up hup) hsame
      down := fun hdown => (congrFun hsame _).trans (h.down hdown)
      stored := hstored }

variable (pton) (user) in
theorem Reads.stop (h : Reads c s) :
    Reads c ⟨(s.world.act pton user c .stop).2, false, s.stored⟩ where
  statics := by
    have hstatics : OwnStatics (s.world.act pton user c .stop).2 c := ownStatics_act h.statics .stop
    exact hstatics
  handlers := registered_act pton user h.handlers .stop
  up hup := nomatch hup
  down _ := by
    have hstop : ((s.world.stop c).clients c).handlers .readReady = none := by
      rw [stop_handlers, Handlers.removeAll_apply, if_pos (by decide)]
    exact hstop
  stored := by
    have hstored : ((s.world.act pton user c .stop).2.clients c).onReadReady =
        (s.world.clients c).onReadReady :=
      act_callback pton s.world (by simp) (by simp) .onReadReady
    exact hstored.trans h.stored

theorem reads_next (h : Reads c s) {op : LifeOp} {s' : Reader proto}
    (hstep : s.next pton user c op = some s') : Reads c s' := by
  cases op with
  | destroy => cases hstep
  | call op =>
    cases op with
    | start ans added =>
      cases hstep
      have hop : (ClientOp.start ans added).isStart = true := rfl
      exact h.start pton user hop
    | startLocal address port ans bound added =>
      cases hstep
      have hop : (ClientOp.startLocal address port ans bound added).isStart = true := rfl
      exact h.start pton user hop
    | connect args ans dead =>
      cases hstep
      exact h.connect pton user args ans dead
    | stop =>
      cases hstep
      exact h.stop pton user
    | proceed events =>
      have heq : (s.world.act pton user c (.proceed events)).2 =
          (s.world.proceed user c events).2 := World.act_proceed s.world events
      have hproceed := h.same (ownStatics_act h.statics (.proceed events))
        (by rw [heq]; exact (World.Calm.proceed user c s.world events).handlers c)
        (by rw [heq]; exact proceed_onReadReady s.world events)
      cases hstep
      exact hproceed

end

/-! ### The handlers of a server -/

section

variable {pton} {suser : ServerUser} {new : Fd} {added : Bool} {h : Host proto}

/-- Both functions are set, and neither is an empty one. -/
def Server.Provided (s : Server proto) : Prop :=
  (∃ func, s.onConn = some (some func)) ∧ ∃ func, s.eraseActiveSocket = some (some func)

/-- A call of a function of the user shows. -/
theorem emptyCall_call {h' : Host proto} {action : Action} (call : action.isCall = true)
    (before : h.called ≤ h'.called) : emptyCall Host.called h (h'.call suser action) = false := by
  have hmore : (h'.call suser action).2.called = h'.called + 1 := by
    rw [Host.called, Host.call_trace, List.countP_cons, if_pos call]
    rfl
  unfold emptyCall
  split
  · rw [decide_eq_false_iff_not, hmore]
    omega
  · rfl

theorem addSocket_called (h : Host proto) (fd : Fd) (op : SockOp) (added : Bool) :
    (h.addSocket fd op added).called = h.called := by
  cases added <;> simp [Host.addSocket, Host.called, Action.isCall]

variable (suser new added) in
theorem emptyCall_host (provided : h.server.Provided) (func : ServerHandler) (fd : Fd) :
    emptyCall Host.called h (h.invoke suser new added func fd) = false := by
  obtain ⟨⟨onConn, hconn⟩, ⟨erase, herase⟩⟩ := provided
  unfold Host.invoke
  cases func with
  | erase =>
    have hset : (h.delSocket fd).server.eraseActiveSocket = some (some erase) := herase
    simp only [hset]
    exact emptyCall_call (by split <;> rfl) le_rfl
  | readReady =>
    simp only
    split_ifs
    · simp only [hconn]
      exact emptyCall_call rfl le_rfl
    · split
      · rename_i sock _
        rcases Host.accept_cases h sock new with
          ⟨conn, got, k, queue, haccept, -⟩ | ⟨k, queue, haccept, -⟩
        · simp only [haccept]
          split
          · have hset : (({ h with kernel := k, queue := queue } : Host proto).addSocket
                conn.impl.handle .read added).server.onConn = some (some onConn) := by
              rw [Host.addSocket_server]
              exact hconn
            have hcalled := addSocket_called ({ h with kernel := k, queue := queue } : Host proto)
              conn.impl.handle .read added
            simp only [Host.handOver, hset]
            exact emptyCall_call rfl hcalled.ge
          · rfl
        · simp only [haccept]
          rfl
      · rfl
    · rfl

/-- No handler of a server that holds both functions invokes an empty one. -/
theorem emptyCalls_host (provided : h.server.Provided) (table : Handlers ServerHandler)
    (events : List Event) :
    emptyCalls Host.called (Host.invoke suser new added) table events h = 0 := by
  have keep (func : ServerHandler) (fd : Fd) (s : Host proto × Nat)
      (hs : s.1.server = h.server ∧ s.2 = 0) :
      let out := (counted Host.called (Host.invoke suser new added) func fd s).2
      out.1.server = h.server ∧ out.2 = 0 := by
    have hcalm := emptyCall_host suser new added (hs.1 ▸ provided) func fd
    refine ⟨(Host.invoke_server suser new added func fd s.1).trans hs.1, ?_⟩
    simp only [counted, hcalm, hs.2]
    rfl
  let Inv := fun s : Host proto × Nat => s.1.server = h.server ∧ s.2 = 0
  have hall : Inv (handleEvents (counted Host.called (Host.invoke suser new added)) table events
      (h, 0)).2 :=
    handleEvents_induction Inv (fun event _ s hs => handleEvent_induction Inv
      (fun _ func _ s hs => keep func event.fd s hs) hs) ⟨rfl, rfl⟩
  exact hall.2

/-- Without handlers nothing is invoked. -/
theorem emptyCalls_noHandlers {H σ : Type} (calls : σ → Nat)
    (invoke : H → Fd → σ → Except Exn Unit × σ) (events : List Event) (s : σ) :
    emptyCalls calls invoke Handlers.empty events s = 0 := by
  let Inv := fun s : σ × Nat => s.2 = 0
  have hall : Inv (handleEvents (counted calls invoke) Handlers.empty events (s, 0)).2 :=
    handleEvents_induction Inv (fun event _ s hs => handleEvent_induction Inv
      (fun _ _ hfunc => by cases hfunc) hs) rfl
  exact hall

/-! ### The run of a server -/

/-- The server is what its current `start` made of it, with functions that are not empty. -/
structure Staffed (s : Service proto) : Prop where
  made : s.Made
  full : ∀ current ∈ s.current, current.onConn.isSome ∧ current.erase.isSome

variable {s : Service proto}

theorem Staffed.provided (h : Staffed s) (hcurrent : s.current.isSome) : s.host.server.Provided := by
  obtain ⟨current, hcurrent⟩ := Option.isSome_iff_exists.mp hcurrent
  obtain ⟨honConn, herase⟩ := h.full current hcurrent
  have made := h.made
  unfold Service.Made at made
  rw [hcurrent] at made
  obtain ⟨state, -, -, hserver⟩ := made
  obtain ⟨onConn, honConn⟩ := Option.isSome_iff_exists.mp honConn
  obtain ⟨erase, herase⟩ := Option.isSome_iff_exists.mp herase
  rw [hserver]
  exact ⟨⟨onConn, by simp [honConn]⟩, ⟨erase, wrapErase_eq_some.mpr herase⟩⟩

/-- Whether a call of `m_erase_active_socket` finds it set is whether a `start` is current. -/
theorem Staffed.callErase (h : Staffed s) (fd : Fd) :
    emptyCall Host.called s.host (s.host.callErase suser fd) = false ↔ s.current.isSome := by
  cases hcurrent : s.current with
  | none =>
    have made := h.made
    unfold Service.Made at made
    rw [hcurrent] at made
    rw [Host.callErase, made]
    simp [Server.fresh, emptyCall]
  | some current =>
    obtain ⟨-, ⟨func, hfunc⟩⟩ := h.provided (by simp [hcurrent])
    refine iff_of_true ?_ rfl
    simp only [Host.callErase, hfunc]
    exact emptyCall_call (by split <;> rfl) le_rfl

theorem service_noEmpty_iff (h : Staffed s) (op : FullCall) :
    s.NoEmpty suser op ↔ s.StopsCurrent op := by
  obtain ⟨op, full⟩ := op
  cases op with
  | stop => exact h.callErase s.host.getFd
  | proceed new added events =>
    refine iff_of_true ?_ trivial
    cases hcurrent : s.current with
    | none =>
      have made := h.made
      unfold Service.Made at made
      rw [hcurrent] at made
      have hempty : s.host.server.handlers = .empty := by rw [made]; rfl
      simp only [Service.NoEmpty, hempty]
      exact emptyCalls_noHandlers _ _ events s.host
    | some current => exact emptyCalls_host (h.provided (by simp [hcurrent])) _ events
  | destroy =>
    refine iff_of_true (fun hset => (h.callErase (-1)).mpr ?_) trivial
    cases hcurrent : s.current with
    | none =>
      have made := h.made
      unfold Service.Made at made
      rw [hcurrent] at made
      rw [made] at hset
      cases hset
    | some current => rfl
  | _ => exact Iff.rfl

theorem staffed_next (h : Staffed s) {op : FullCall} {s' : Service proto}
    (hstep : s.nextFull pton suser op = some s') : Staffed s' := by
  obtain ⟨op, full⟩ := op
  refine ⟨made_next h.made hstep, ?_⟩
  have started {h' : Host proto} {b added : Bool} {onConn erase : Option Callback}
      (hfull : onConn.isSome ∧ erase.isSome) :
      ∀ current ∈ (s.started h' b added onConn erase).current,
        current.onConn.isSome ∧ current.erase.isSome := by
    cases b with
    | true =>
      rintro current ⟨⟩
      exact hfull
    | false => exact h.full
  unfold Service.nextFull at hstep
  cases op with
  | start args ans bound listened added =>
    by_cases based : proto.isConnectionless = false
    · simp only [Service.next, dif_pos based, Option.some.injEq] at hstep
      rw [← hstep]
      exact started full
    · simp [Service.next, based] at hstep
  | startConnectionless address port onConn onClose ans bound added =>
    by_cases connectionless : proto.isConnectionless = true
    · simp only [Service.next, dif_pos connectionless, Option.some.injEq] at hstep
      rw [← hstep]
      exact started full
    · simp [Service.next, connectionless] at hstep
  | stop =>
    obtain ⟨out, -, rfl⟩ := Option.map_eq_some_iff.mp hstep
    intro current hcurrent
    cases hcurrent
  | destroy => cases hstep
  | _ =>
    cases hstep
    exact h.full

end

/-- In every run of a client no handler invokes an empty function, exactly when the client gets
`READ_READY` for its own descriptor only after a `connect` has stored a callback for it.  In every
run of a server that gets only functions that are not empty none is invoked, exactly when `stop` is
called only while a `start` is current. -/
theorem noEmptyCall_run (af : ClientId → Int) (unhandled : ClientId → Option Callback)
    (ops : List LifeOp) (suser : ServerUser) (saf : Int) (sunhandled : Option Callback)
    (sops : List FullCall) :
    let reader : Reader proto := Reader.initial af unhandled
    let service : Service proto := Service.initial saf sunhandled
    (Along (Reader.next pton user c) (Reader.NoEmpty user c) reader ops ↔
      Along (Reader.next pton user c) (Reader.ReadsStored c) reader ops) ∧
    (Along (Service.nextFull pton suser) (Service.NoEmpty suser) service sops ↔
      Along (Service.nextFull pton suser) Service.StopsCurrent service sops) := by
  intro reader service
  have idle : Reads c reader :=
    { statics := Or.inl rfl
      handlers := fun _ _ hfunc => nomatch hfunc
      up := fun hup => nomatch hup
      down := fun _ => rfl
      stored := rfl }
  have fresh : Staffed service :=
    ⟨made_initial saf sunhandled, fun current hcurrent => nomatch hcurrent⟩
  exact ⟨along_iff (fun _ op h => noEmpty_iff h op) (fun _ _ _ h _ hstep => reads_next h hstep)
      idle ops,
    along_iff (fun _ op h => service_noEmpty_iff h op) (fun _ _ _ h _ hstep => staffed_next h hstep)
      fresh sops⟩

/-- A datagram arrives at a bound UDP client. -/
def datagramFirst : List LifeOp :=
  [.call (.startLocal [49, 50, 55, 46, 48, 46, 48, 46, 49] 80 (.ok 3) (.ok ()) true),
    .call (.proceed [⟨3, .readReady⟩])]

theorem datagramFirst_callsEmpty :
    ¬Along (Reader.next loopbackPton (fun _ => .ok ()) 0) (Reader.NoEmpty (fun _ => .ok ()) 0)
      (Reader.initial (fun _ => 2) fun _ => none : Reader udp) datagramFirst := by
  intro h
  have hcount := (h.2 _ rfl).1
  exact absurd hcount (by unfold Reader.NoEmpty; decide)

end TypedSockets.Endpoint
