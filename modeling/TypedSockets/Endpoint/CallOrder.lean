import TypedSockets.Endpoint.Handlers
import TypedSockets.Endpoint.OnConnect

/-! The order of the callbacks of one connection.  It is the order in which the types of an event
are tried and not the one of a connection: `READ_READY` comes before `WRITE_READY`, and no handler
asks what was called before. -/

namespace TypedSockets.Endpoint

open TypedSockets.Socket TypedSockets.Epoll TypedSockets.Lib

variable {proto : Proto} (pton : InetPton) (user : UserCode) (c : ClientId)

/-! ### The order -/

/-- What was called for a connection. -/
inductive Phase where
  | opening
  | opened
  | closed
  deriving DecidableEq

/-- `on_connect`, then `on_read_ready` any number of times, then `on_disconnect`. -/
def Phase.next : Phase → Role → Option Phase
  | opening, .onConnect => some opened
  | opened, .onReadReady => some opened
  | opened, .onDisconnect => some closed
  | _, _ => none

/-- The phase that callbacks in order lead to. -/
def phase (roles : List Role) : Option Phase := roles.foldlM Phase.next .opening

def InOrder (roles : List Role) : Prop := (phase roles).isSome

instance (roles : List Role) : Decidable (InOrder roles) :=
  inferInstanceAs (Decidable ((phase roles).isSome = true))

theorem phase_append (rs rs' : List Role) :
    phase (rs ++ rs') = (phase rs).bind fun p => rs'.foldlM Phase.next p := by
  simp [phase, List.foldlM_append]

theorem InOrder.of_append {rs rs' : List Role} (h : InOrder (rs ++ rs')) : InOrder rs := by
  rw [InOrder, phase_append] at h
  cases hp : phase rs with
  | none => simp [hp] at h
  | some p => simp [InOrder, hp]

/-! ### Runs -/

/-- The callback of the client that an invocation is. -/
def roleOf : Invocation → Option Role
  | .callback i role _ => if i = c then some role else none
  | .unhandled _ _ _ => none

/-- The callbacks of the client since `m` functions of the user were called, oldest first. -/
def rolesSince (m : Nat) (w : World proto) : List Role :=
  (w.trace.take (w.trace.length - m)).reverse.filterMap (roleOf c)

/-- A client, and how many functions of the user had been called when the last `connect` returned
true, up to the next `connect` or `stop`. -/
structure Talk (proto : Proto) where
  world : World proto
  since : Option Nat

namespace Talk

def initial (af : ClientId → Int) (unhandled : ClientId → Option Callback) : Talk proto :=
  ⟨.initial af unhandled, none⟩

def next (s : Talk proto) (op : ClientOp) : Option (Talk proto) :=
  let (b, w) := s.world.act pton user c op
  some (match op with
    | .connect _ _ _ => ⟨w, if b then some w.trace.length else none⟩
    | .stop => ⟨w, none⟩
    | _ => ⟨w, s.since⟩)

/-- The callbacks of the connection are in order. -/
def Ordered (s : Talk proto) : Prop := ∀ m ∈ s.since, InOrder (rolesSince c m s.world)

end Talk

/-- The callback that `READ_READY` of the event calls. -/
def readCall (w : World proto) (event : Event) : List Invocation :=
  if event.has .readReady then
    ((w.clients c).onReadReady.map (Invocation.callback c .onReadReady)).toList
  else []

/-- The callback that `WRITE_READY` of the event calls. -/
def connectCall (w : World proto) (event : Event) : List Invocation :=
  if event.has .writeReady then
    ((w.clients c).onConnect.map (Invocation.callback c .onConnect)).toList
  else []

/-- The callback that the types of the event that end a connection call. -/
def disconnectCall (w : World proto) (event : Event) : List Invocation :=
  if event.terminates then
    ((w.clients c).onDisconnect.map (Invocation.callback c .onDisconnect)).toList
  else []

/-- The event gets to `on_connect`, and it throws. -/
def connectThrows (w : World proto) (event : Event) : Bool :=
  (connectCall c w event).any fun inv => !(user (inv :: (readCall c w event ++ w.trace))).isOk

/-- An event of the own descriptor gets to each callback that is set in its turn: to `on_read_ready`
after `on_connect` and before `on_disconnect`, to `on_connect` first, and to `on_disconnect` after
`on_connect`.  A callback that throws keeps the event from those after it. -/
def InTurn (m : Nat) (w : World proto) (event : Event) : Prop :=
  event.fd = w.getFd c →
    (event.has .readReady = true → (w.clients c).onReadReady.isSome →
      phase (rolesSince c m w) = some .opened) ∧
    (readThrows user c w event = false → event.has .writeReady = true →
      (w.clients c).onConnect.isSome → phase (rolesSince c m w) = some .opening) ∧
    (readThrows user c w event = false → connectThrows user c w event = false →
      event.terminates = true → (w.clients c).onDisconnect.isSome →
      phase (rolesSince c m w) = some .opened ∨
        event.has .writeReady = true ∧ (w.clients c).onConnect.isSome)

/-- The events of a batch come in their turn. -/
def Talk.EventsInTurn (s : Talk proto) : ClientOp → Prop
  | .proceed events =>
    ∀ m ∈ s.since, Along (eventStep user c) (InTurn user c m) s.world events
  | _ => True

/-! ### One event -/

section

variable {user} {c} {w : World proto}

variable (user) in
/-- `READ_READY` calls its callback, and ends the event when it throws. -/
theorem attempt_read (h : AllRegistered c w) {event : Event} (hfd : event.fd = w.getFd c) :
    let out := attempt (onFd user c event.fd)
      (if event.has .readReady then [ClientHandler.readReady] else []) w
    out.2 = { w with trace := readCall c w event ++ w.trace } ∧
      out.1.isSome = readThrows user c w event := by
  have hread := h (.readReady, .readReady) (by decide)
  by_cases hhas : event.has .readReady = true
  · cases hcb : (w.clients c).onReadReady with
    | none => simp [attempt, World.invoke, hfd, hhas, hcb, readCall, readThrows, hread]
    | some func =>
      cases huser : user (.callback c .onReadReady func :: w.trace) <;>
        simp [attempt, World.invoke, World.call, hfd, hhas, hcb, huser, readCall, readThrows, hread]
  · simp [hhas, readCall, readThrows]

variable (user) in
/-- `WRITE_READY` calls `on_connect` when it is set, and ends the event when that throws. -/
theorem attempt_write {event : Event} (hfd : event.fd = w.getFd c) :
    let out := attempt (onFd user c event.fd)
      (if event.has .writeReady then [ClientHandler.writeReady] else []) w
    out.2.trace = connectCall c w event ++ w.trace ∧ out.2.getFd c = w.getFd c ∧
      (out.2.clients c).onDisconnect = (w.clients c).onDisconnect ∧
      out.1.isSome = (connectCall c w event).any fun inv => !(user (inv :: w.trace)).isOk := by
  by_cases hhas : event.has .writeReady = true
  · cases hcb : (w.clients c).onConnect with
    | none => simp [attempt, World.invoke, hfd, hhas, hcb, connectCall]
    | some func =>
      cases huser : user (.callback c .onConnect func :: w.trace) <;>
        simp [attempt, World.invoke, World.callOnce, World.call, World.getFd, hfd, hhas, hcb, huser,
          connectCall, Except.isOk, Except.toBool, World.update]
  · simp [hhas, connectCall]

/-- The callback for the end of the connection is called once, however often the handler runs. -/
theorem attempt_erase {fd : Fd} (hfd : fd = w.getFd c) (n : Nat) :
    (attempt (onFd user c fd) (List.replicate n .erase) w).2.trace =
      (if n = 0 then [] else
        ((w.clients c).onDisconnect.map (Invocation.callback c .onDisconnect)).toList) ++
          w.trace := by
  induction n generalizing w with
  | zero => rfl
  | succ n ih =>
    have hdel : fd = (w.delSocket c fd).getFd c := hfd
    rw [List.replicate_succ]
    cases hcb : (w.clients c).onDisconnect with
    | none =>
      have hnone : ((w.delSocket c fd).clients c).onDisconnect = none := hcb
      have hact : onFd user c fd .erase w = (.ok (), w.delSocket c fd) := by
        simp only [World.invoke, if_pos hfd, hnone]
      rw [attempt_ok hact, ih hdel, hnone]
      cases n <;> rfl
    | some func =>
      have hsome : ((w.delSocket c fd).clients c).onDisconnect = some func := hcb
      let inv := Invocation.callback c .onDisconnect func
      cases huser : user (inv :: w.trace) with
      | error e =>
        have hact : onFd user c fd .erase w =
            (.error e, { w.delSocket c fd with trace := inv :: w.trace }) := by
          simp only [World.invoke, if_pos hfd, hsome, World.callOnce, World.call]
          rw [show (w.delSocket c fd).trace = w.trace from rfl, huser]
        rw [attempt_error hact]
        rfl
      | ok =>
        -- the field is cleared, and so the handler does nothing when it runs again
        let called : World proto := ({ w.delSocket c fd with trace := inv :: w.trace }).update c
          fun cl => { cl with onDisconnect := none }
        have hact : onFd user c fd .erase w = (.ok (), called) := by
          simp only [World.invoke, if_pos hfd, hsome, World.callOnce, World.call]
          rw [show (w.delSocket c fd).trace = w.trace from rfl, huser]
        have hfd' : fd = called.getFd c := by
          rw [hfd]
          simp [called, World.getFd, World.delSocket]
        have hnone : (called.clients c).onDisconnect = none := by simp [called]
        rw [attempt_ok hact, ih hfd', hnone]
        cases n <;> rfl

theorem attempt_endings {event : Event} (hfd : event.fd = w.getFd c) :
    (attempt (onFd user c event.fd)
      ((EventType.terminations.filter event.has).map fun _ => ClientHandler.erase) w).2.trace =
        disconnectCall c w event ++ w.trace := by
  have hends := event_terminates_iff event
  rw [List.map_const', attempt_erase hfd, disconnectCall]
  by_cases h : event.terminates = true
  · rw [if_neg (hends.mp h), if_pos h]
  · rw [if_pos (not_not.mp (hends.not.mp h)), if_neg h]

variable (user) in
/-- The callbacks of an event of the own descriptor, latest first. -/
theorem event_trace (h : Registered c w) (hall : AllRegistered c w) {event : Event}
    (hfd : event.fd = w.getFd c) :
    (handleEvent (World.invoke user c) (w.clients c).handlers event w).2.trace =
      (if readThrows user c w event then [] else
        (if connectThrows user c w event then [] else disconnectCall c w event) ++
          connectCall c w event) ++ (readCall c w event ++ w.trace) := by
  rw [handleEvent_run h, handlersOf_cbs hall, attempt_append]
  obtain ⟨hread, hreadThrows⟩ := attempt_read user hall hfd
  rcases hout : attempt (onFd user c event.fd)
    (if event.has .readReady then [ClientHandler.readReady] else []) w with ⟨_ | e, u⟩
  all_goals
    rw [hout] at hread hreadThrows
    obtain rfl : u = _ := hread
  · have hreads : readThrows user c w event = false := hreadThrows.symm
    rw [hreads, if_neg Bool.false_ne_true]
    simp only
    rw [attempt_append]
    let read : World proto := { w with trace := readCall c w event ++ w.trace }
    have hfd' : event.fd = read.getFd c := hfd
    obtain ⟨hwrite, hsame, hdisconnect, hwriteThrows⟩ := attempt_write user hfd'
    rcases hout2 : attempt (onFd user c event.fd)
      (if event.has .writeReady then [ClientHandler.writeReady] else []) read with ⟨_ | e, v⟩
    all_goals
      rw [hout2] at hwrite hsame hdisconnect hwriteThrows
    · have hconnects : connectThrows user c w event = false := hwriteThrows.symm
      rw [hconnects, if_neg Bool.false_ne_true]
      simp only
      have hends : disconnectCall c v event = disconnectCall c w event := by
        unfold disconnectCall
        rw [show (v.clients c).onDisconnect = (w.clients c).onDisconnect from hdisconnect]
      rw [attempt_endings (hfd'.trans hsame.symm), hends, List.append_assoc]
      exact congrArg _ hwrite
    · have hconnects : connectThrows user c w event = true := hwriteThrows.symm
      rw [hconnects, if_pos rfl]
      exact hwrite
  · have hreads : readThrows user c w event = true := hreadThrows.symm
    rw [hreads, if_pos rfl]
    rfl

theorem rolesSince_append {m : Nat} {w' : World proto} {called : List Invocation}
    (hm : m ≤ w.trace.length) (h : w'.trace = called ++ w.trace) :
    rolesSince c m w' = rolesSince c m w ++ called.reverse.filterMap (roleOf c) := by
  have hlength : w'.trace.length - m = called.length + (w.trace.length - m) := by
    rw [h, List.length_append]
    omega
  rw [rolesSince, rolesSince, hlength, h, List.take_length_add_append, List.reverse_append,
    List.filterMap_append]

variable (c) in
theorem filterMap_call (has : Bool) (role : Role) (func : Option Callback) :
    (if has then (func.map (Invocation.callback c role)).toList else []).filterMap (roleOf c) =
      if has && func.isSome then [role] else [] := by
  cases has <;> cases func <;> simp [roleOf]

/-- The callbacks of an event are in order after those before exactly when each comes in its
turn. -/
theorem foldlM_next (p : Phase) (read connect disconnect readThrows connectThrows : Bool) :
    (((if read then [Role.onReadReady] else []) ++
        if readThrows then [] else
          (if connect then [Role.onConnect] else []) ++
            if connectThrows then [] else
              if disconnect then [Role.onDisconnect] else []).foldlM Phase.next p).isSome ↔
      (read = true → p = .opened) ∧ (readThrows = false → connect = true → p = .opening) ∧
        (readThrows = false → connectThrows = false → disconnect = true →
          p = .opened ∨ connect = true) := by
  revert disconnect readThrows connectThrows
  cases p <;> cases read <;> cases connect <;> decide

theorem event_roles {m : Nat} (h : Registered c w) (hall : AllRegistered c w)
    (hm : m ≤ w.trace.length) {event : Event} (hfd : event.fd = w.getFd c) :
    rolesSince c m (handleEvent (World.invoke user c) (w.clients c).handlers event w).2 =
      rolesSince c m w ++
        ((if event.has .readReady && (w.clients c).onReadReady.isSome then [Role.onReadReady]
            else []) ++
          if readThrows user c w event then [] else
            (if event.has .writeReady && (w.clients c).onConnect.isSome then [Role.onConnect]
              else []) ++
              if connectThrows user c w event then [] else
                if event.terminates && (w.clients c).onDisconnect.isSome then [Role.onDisconnect]
                else []) := by
  have htrace := event_trace user h hall hfd
  rw [← List.append_assoc] at htrace
  rw [rolesSince_append hm htrace]
  congr 1
  have hread := filterMap_call c (event.has .readReady) .onReadReady (w.clients c).onReadReady
  have hconnect := filterMap_call c (event.has .writeReady) .onConnect (w.clients c).onConnect
  have hdisconnect := filterMap_call c event.terminates .onDisconnect
    (w.clients c).onDisconnect
  have single (b : Bool) (role : Role) :
      (if b then [role] else []).reverse = if b then [role] else [] := by
    cases b <;> rfl
  rw [List.filterMap_reverse, List.filterMap_append]
  simp only [readCall, connectCall, disconnectCall]
  rw [hread, List.reverse_append, single]
  congr 1
  cases readThrows user c w event with
  | true => rfl
  | false =>
    simp only [Bool.false_eq_true, ↓reduceIte]
    rw [List.filterMap_append, hconnect, List.reverse_append, single]
    congr 1
    cases connectThrows user c w event with
    | true => rfl
    | false =>
      simp only [Bool.false_eq_true, ↓reduceIte]
      rw [hdisconnect, single]

/-- After an event the callbacks are in order exactly when the event came in its turn. -/
theorem inOrder_event {m : Nat} (h : Registered c w) (hall : AllRegistered c w)
    (hm : m ≤ w.trace.length) (hin : InOrder (rolesSince c m w)) (event : Event) :
    InOrder (rolesSince c m
        (handleEvent (World.invoke user c) (w.clients c).handlers event w).2) ↔
      InTurn user c m w event := by
  by_cases hfd : event.fd = w.getFd c
  · obtain ⟨p, hp⟩ := Option.isSome_iff_exists.mp hin
    rw [InOrder, event_roles h hall hm hfd, phase_append, hp, Option.bind_some, foldlM_next]
    simp only [InTurn, hfd, true_implies, hp, Option.some.injEq, Bool.and_eq_true, and_imp]
  · have hsame : (handleEvent (World.invoke user c) (w.clients c).handlers event w).2 = w := by
      rw [handleEvent_run h, attempt_other hfd]
    rw [hsame]
    exact iff_of_true hin fun hown => absurd hown hfd

theorem rolesSince_suffix {m : Nat} {w' : World proto} (hm : m ≤ w.trace.length)
    (h : w.trace <:+ w'.trace) : ∃ roles, rolesSince c m w' = rolesSince c m w ++ roles := by
  obtain ⟨called, hcalled⟩ := h
  exact ⟨_, rolesSince_append hm hcalled.symm⟩

theorem invoke_suffix (func : ClientHandler) (fd : Fd) (w : World proto) :
    w.trace <:+ (w.invoke user c func fd).2.trace := by
  have called (w : World proto) (inv : Invocation) : w.trace <:+ (w.call user inv).2.trace :=
    ⟨[inv], rfl⟩
  have calledOnce (w : World proto) (inv : Invocation) (clear : Client proto → Client proto) :
      w.trace <:+ (w.callOnce user c inv clear).2.trace := by
    rcases World.callOnce_cases user w c inv clear with h | h <;> rw [h] <;> exact called w inv
  unfold World.invoke
  split_ifs
  · cases func with
    | erase =>
      simp only
      split
      · exact calledOnce (w.delSocket c fd) _ _
      · exact List.suffix_rfl
    | readReady =>
      simp only
      split
      · exact called w _
      · exact List.suffix_rfl
    | writeReady =>
      simp only
      split
      · exact calledOnce w _ _
      · exact List.suffix_rfl
  · exact List.suffix_rfl

theorem event_suffix (table : Handlers ClientHandler) (event : Event) (w : World proto) :
    w.trace <:+ (handleEvent (World.invoke user c) table event w).2.trace :=
  handleEvent_induction (fun v : World proto => w.trace <:+ v.trace)
    (fun _ func _ v hv => hv.trans (invoke_suffix func event.fd v)) List.suffix_rfl

variable (user c) in
theorem events_suffix (table : Handlers ClientHandler) (events : List Event) (w : World proto) :
    w.trace <:+ (handleEvents (World.invoke user c) table events w).2.trace :=
  handleEvents_induction (fun v : World proto => w.trace <:+ v.trace)
    (fun event _ v hv => hv.trans (event_suffix table event v)) List.suffix_rfl

/-- The same over the events of a batch: callbacks that are out of order stay so. -/
theorem inOrder_events {m : Nat} (h : Registered c w) (hall : AllRegistered c w)
    (hm : m ≤ w.trace.length) (hin : InOrder (rolesSince c m w)) (events : List Event) :
    InOrder (rolesSince c m
        (handleEvents (World.invoke user c) (w.clients c).handlers events w).2) ↔
      Along (eventStep user c) (InTurn user c m) w events := by
  induction events generalizing w with
  | nil => exact iff_of_true hin trivial
  | cons event events ih =>
    let v := (handleEvent (World.invoke user c) (w.clients c).handlers event w).2
    have hone : InOrder (rolesSince c m v) ↔ InTurn user c m w event :=
      inOrder_event h hall hm hin event
    have hsame : (v.clients c).handlers = (w.clients c).handlers :=
      (calm_event user w event).handlers c
    have hv : m ≤ v.trace.length := hm.trans (event_suffix _ event w).length_le
    have hrest (hfirst : InOrder (rolesSince c m v)) :=
      ih (registered_congr h hsame) (fun cb hcb => hsame ▸ hall cb hcb) hv hfirst
    rw [hsame] at hrest
    rw [along_cons, ← hone]
    simp only [eventStep, Option.some.injEq, forall_eq']
    constructor
    · intro hend
      obtain ⟨roles, hroles⟩ := rolesSince_suffix (c := c) hv
        (events_suffix user c (w.clients c).handlers events v)
      have hfirst : InOrder (rolesSince c m v) := by
        apply InOrder.of_append
        rw [← hroles]
        exact hend
      exact ⟨hfirst, (hrest hfirst).mp hend⟩
    · rintro ⟨hfirst, hothers⟩
      exact (hrest hfirst).mpr hothers

variable (user c) in
theorem proceed_suffix (w : World proto) (events : List Event) :
    w.trace <:+ (w.proceed user c events).2.trace := by
  have hgrow := events_suffix user c (w.clients c).handlers events w
  rcases proceed_cases user c w events with heq | ⟨func, missed, heq⟩
  · rw [heq]
    exact hgrow
  · rw [heq]
    exact hgrow.trans (List.suffix_cons _ _)

/-- What `m_unhandled` is told is no callback of the connection. -/
theorem inOrder_proceed {m : Nat} (h : Registered c w) (hall : AllRegistered c w)
    (hm : m ≤ w.trace.length) (hin : InOrder (rolesSince c m w)) (events : List Event) :
    InOrder (rolesSince c m (w.proceed user c events).2) ↔
      Along (eventStep user c) (InTurn user c m) w events := by
  rw [← inOrder_events h hall hm hin]
  rcases proceed_cases user c w events with heq | ⟨func, missed, heq⟩
  · rw [heq]
  · have hgrow := events_suffix user c (w.clients c).handlers events w
    have hlength := hm.trans hgrow.length_le
    have htrace : (w.proceed user c events).2.trace = [.unhandled c func missed] ++
        (handleEvents (World.invoke user c) (w.clients c).handlers events w).2.trace := by
      rw [heq]
      rfl
    have hnone : [Invocation.unhandled c func missed].reverse.filterMap (roleOf c) = [] := rfl
    rw [rolesSince_append hlength htrace, hnone, List.append_nil]

/-! ### Runs -/

theorem cbs_unique {tp : EventType} {func func' : ClientHandler} (h : (tp, func) ∈ World.cbs)
    (h' : (tp, func') ∈ World.cbs) : func = func' := by
  simp only [World.cbs, List.mem_cons, Prod.mk.injEq, List.not_mem_nil, or_false] at h h'
  rcases h with ⟨rfl, rfl⟩ | ⟨rfl, rfl⟩ | ⟨rfl, rfl⟩ | ⟨rfl, rfl⟩ | ⟨rfl, rfl⟩ | ⟨rfl, rfl⟩ <;>
    rcases h' with ⟨h', rfl⟩ | ⟨h', rfl⟩ | ⟨h', rfl⟩ | ⟨h', rfl⟩ | ⟨h', rfl⟩ | ⟨h', rfl⟩ <;>
      first | rfl | exact absurd h' (by decide)

/-- `register_cbs` leaves every type with its handler. -/
theorem allRegistered_registerCbs (h : Registered c w) : AllRegistered c (w.registerCbs c) := by
  intro cb hcb
  have hsome : ((w.registerCbs c).clients c).handlers cb.1 |>.isSome := by
    simpa [World.registerCbs] using Handlers.addAll_isSome hcb (w.clients c).handlers
  obtain ⟨func, hfunc⟩ := Option.isSome_iff_exists.mp hsome
  rw [hfunc, cbs_unique (registered_registerCbs h cb.1 func hfunc) hcb]

theorem allRegistered_congr {w' : World proto} (h : AllRegistered c w)
    (same : (w'.clients c).handlers = (w.clients c).handlers) : AllRegistered c w' :=
  fun cb hcb => same ▸ h cb hcb

theorem allRegistered_started (h : Registered c w) (k : Kernel) (fd : Fd) (added : Bool)
    (new : ClientState proto) :
    AllRegistered c (((({ w with kernel := k } : World proto).registerCbs c).addSocket c fd .readWrite
      added).setState c new) := by
  have hcbs : AllRegistered c (({ w with kernel := k } : World proto).registerCbs c) :=
    allRegistered_registerCbs h
  refine allRegistered_congr hcbs ?_
  cases added <;> simp [World.addSocket]

/-- A `start` registers every handler, or leaves the client as it was. -/
theorem start_cases (h : Registered c w) (ans : Except Errno Fd) (added : Bool) :
    AllRegistered c (w.start c ans added).2 ∨
      (w.start c ans added).2.clients c = w.clients c := by
  unfold World.start
  split_ifs
  · split
    · exact Or.inl (allRegistered_started h _ _ added _)
    · exact Or.inr rfl
  · exact Or.inr rfl

theorem startLocal_cases (h : Registered c w) (address : List UInt8) (port : UInt64)
    (ans : Except Errno Fd) (bound : Answer) (added : Bool) :
    AllRegistered c (w.startLocal pton c address port ans bound added).2 ∨
      (w.startLocal pton c address port ans bound added).2.clients c = w.clients c := by
  unfold World.startLocal
  split_ifs
  · split
    · split
      · exact Or.inl (allRegistered_started h _ _ added _)
      · exact Or.inr rfl
    · exact Or.inr rfl
  · exact Or.inr rfl

/-- A client without a socket refuses `connect`. -/
theorem connect_idle (hidle : (w.clients c).state = .idle none) (args : ConnectArgs) (ans : Answer)
    (dead : ConnectArgs) : w.connect pton c args ans dead =
      (false, { w with statics := some (w.statics.getD c) }) := by
  simp [World.connect, hidle]

/-- A client whose handlers are registered while it has a socket, and whose callbacks came in
order. -/
structure Talking (c : ClientId) (s : Talk proto) : Prop where
  handlers : Registered c s.world
  started : (s.world.clients c).state ≠ .idle none → AllRegistered c s.world
  since : ∀ m ∈ s.since, m ≤ s.world.trace.length ∧ AllRegistered c s.world
  ordered : s.Ordered c

variable {s : Talk proto}

/-- A step that calls nothing and leaves the handlers registered. -/
theorem Talking.quiet (h : Talking c s) {w : World proto} (handlers : Registered c w)
    (cases : AllRegistered c w ∨ w.clients c = s.world.clients c)
    (trace : w.trace = s.world.trace) : Talking c { s with world := w } := by
  refine ⟨handlers, fun hst => ?_, fun m hm => ?_, fun m hm => ?_⟩
  · rcases cases with hall | hsame
    · exact hall
    · rw [hsame] at hst
      exact allRegistered_congr (h.started hst) (by rw [hsame])
  · obtain ⟨hle, hall⟩ := h.since m hm
    refine ⟨trace ▸ hle, ?_⟩
    rcases cases with hnew | hsame
    · exact hnew
    · exact allRegistered_congr hall (by rw [hsame])
  · have hin := h.ordered m hm
    rw [rolesSince] at hin ⊢
    rw [trace]
    exact hin

theorem talking_connect (h : Talking c s) (args : ConnectArgs) (ans : Answer) (dead : ConnectArgs) :
    let r := s.world.connect pton c args ans dead
    Talking c ⟨r.2, if r.1 then some r.2.trace.length else none⟩ := by
  intro r
  have hall (hst : (s.world.clients c).state ≠ .idle none) : AllRegistered c r.2 :=
    allRegistered_congr (h.started hst) (World.connect_handlers s.world c c args ans dead)
  by_cases hidle : (s.world.clients c).state = .idle none
  · have hr : r = _ := connect_idle pton hidle args ans dead
    rw [hr]
    refine ⟨h.handlers, fun hst => absurd hidle hst, ?_, ?_⟩ <;> intro m hm <;> cases hm
  · have hhandlers : (r.2.clients c).handlers = (s.world.clients c).handlers :=
      World.connect_handlers s.world c c args ans dead
    refine ⟨registered_congr h.handlers hhandlers, fun _ => hall hidle, ?_, ?_⟩
    all_goals
      intro m hm
      have hm : (if r.1 then some r.2.trace.length else none) = some m := hm
      split_ifs at hm
      cases hm
    · exact ⟨le_rfl, hall hidle⟩
    · simp [InOrder, rolesSince, phase]

theorem talking_stop (h : Talking c s) : Talking c ⟨s.world.stop c, none⟩ := by
  have hstate : ((s.world.stop c).clients c).state = .idle none := by
    simp [World.stop, World.unregisterCbs]
  refine ⟨registered_unregisterCbs (registered_setState h.handlers (.idle none)),
    fun hst => absurd hstate hst, ?_, ?_⟩ <;> intro m hm <;> cases hm

variable (user) in
theorem talking_proceed (h : Talking c s) {events : List Event}
    (hturn : s.EventsInTurn user c (.proceed events)) :
    Talking c { s with world := (s.world.proceed user c events).2 } := by
  have calm := World.Calm.proceed user c s.world events
  have hsame := calm.handlers c
  refine ⟨registered_congr h.handlers hsame, fun hst => ?_, fun m hm => ?_, fun m hm => ?_⟩
  · rw [calm.state] at hst
    exact allRegistered_congr (h.started hst) hsame
  · obtain ⟨hle, hall⟩ := h.since m hm
    exact ⟨hle.trans (proceed_suffix user c s.world events).length_le, allRegistered_congr hall hsame⟩
  · obtain ⟨hle, hall⟩ := h.since m hm
    exact (inOrder_proceed h.handlers hall hle (h.ordered m hm) events).mpr (hturn m hm)

theorem talking_next (h : Talking c s) {op : ClientOp} {s' : Talk proto}
    (hturn : s.EventsInTurn user c op) (hstep : s.next pton user c op = some s') :
    Talking c s' := by
  cases hstep
  cases op with
  | start ans added =>
    have htrace : (s.world.act pton user c (.start ans added)).2.trace = s.world.trace :=
      act_trace pton user s.world (by simp)
    exact h.quiet (registered_act pton user h.handlers (.start ans added))
      (start_cases h.handlers ans added) htrace
  | startLocal address port ans bound added =>
    have htrace : (s.world.act pton user c
        (.startLocal address port ans bound added)).2.trace = s.world.trace :=
      act_trace pton user s.world (by simp)
    exact h.quiet (registered_act pton user h.handlers (.startLocal address port ans bound added))
      (startLocal_cases pton h.handlers address port ans bound added) htrace
  | connect args ans dead => exact talking_connect pton h args ans dead
  | stop => exact talking_stop h
  | proceed events =>
    have hproceed := talking_proceed user h hturn
    have heq : (s.world.act pton user c (.proceed events)).2 = (s.world.proceed user c events).2 :=
      World.act_proceed s.world events
    rw [← heq] at hproceed
    exact hproceed

theorem ordered_iff (h : Talking c s) (op : ClientOp) :
    (∀ s', s.next pton user c op = some s' → s'.Ordered c) ↔ s.EventsInTurn user c op := by
  constructor
  · intro hnext
    cases op with
    | proceed events =>
      intro m hm
      obtain ⟨hle, hall⟩ := h.since m hm
      have hin : InOrder (rolesSince c m (s.world.act pton user c (.proceed events)).2) :=
        hnext _ rfl m hm
      rw [World.act_proceed] at hin
      exact (inOrder_proceed h.handlers hall hle (h.ordered m hm) events).mp hin
    | _ => trivial
  · exact fun hturn s' hstep => (talking_next pton h hturn hstep).ordered

end

theorem talking_initial (af : ClientId → Int) (unhandled : ClientId → Option Callback) :
    Talking c (Talk.initial af unhandled : Talk proto) := by
  refine ⟨?_, fun hst => absurd rfl hst, ?_, ?_⟩
  · intro tp func hfunc
    cases hfunc
  all_goals
    intro m hm
    cases hm

/-- In every state of a run the callbacks of the connection are in order exactly when every event of
the run comes in its turn. -/
theorem callOrder_run (af : ClientId → Int) (unhandled : ClientId → Option Callback)
    (ops : List ClientOp) :
    let initial : Talk proto := Talk.initial af unhandled
    Always (Talk.next pton user c) (Talk.Ordered c) initial ops ↔
      Along (Talk.next pton user c) (Talk.EventsInTurn user c) initial ops :=
  always_iff (fun _ h => h.ordered) (fun _ op h => ordered_iff pton h op)
    (fun _ _ _ h => talking_next pton h) (talking_initial c af unhandled) ops

/-- The connection is established and has data before the first event is taken. -/
def earlyRead : List ClientOp :=
  [.start (.ok 3) true, .connect (loopbackArgs 80 1) (.ok ()) (loopbackArgs 80 1),
    .proceed [⟨3, .readReady ||| .writeReady⟩]]

/-- `on_read_ready` is called before `on_connect`. -/
theorem earlyRead_not_inOrder :
    ¬Always (Talk.next loopbackPton (fun _ => .ok ()) 0) (Talk.Ordered 0)
      (Talk.initial (fun _ => 2) fun _ => none : Talk tcp) earlyRead := by
  intro h
  have hin := h.last rfl 0 rfl
  exact absurd hin (by decide)

end TypedSockets.Endpoint
