import TypedSockets.Endpoint.Observer
import TypedSockets.Lib.Attempt
import TypedSockets.Lib.Run

/-! Handlers that throw.  An event makes its handlers run up to the first one that throws, and
counts as handled when the first of them returns. -/

namespace TypedSockets.Endpoint

open TypedSockets.Socket TypedSockets.Epoll TypedSockets.Lib

section Table

variable {H : Type} (table : Handlers H)

/-- A table with handlers for the six types only. -/
def OverSingles : Prop := ∀ tp func, table tp = some func → tp ∈ EventType.singles

/-- The handlers that the types lead to. -/
def lookups (event : Event) (tps : List EventType) : List H :=
  tps.filterMap fun tp => table (event.type &&& tp)

/-- The handlers of the types that an event carries, in the order of the dispatch. -/
def handlersOf (event : Event) : List H :=
  dispatchOrder.filterMap fun tp => if event.has tp then table tp else none

/-- One of the types that the event carries has a handler. -/
def hasHandler (event : Event) : Bool :=
  EventType.singles.any fun tp => event.has tp && (table tp).isSome

variable {table}

theorem OverSingles.none (single : OverSingles table) : table EventType.none = Option.none := by
  by_contra h
  obtain ⟨func, hfunc⟩ := Option.ne_none_iff_exists'.mp h
  exact absurd (single _ func hfunc) (by decide)

/-- A type that an event does not carry is looked up as `NONE`. -/
theorem lookup_mask (free : table EventType.none = Option.none) {event : Event} {tp : EventType}
    (htp : tp ∈ EventType.singles) :
    table (event.type &&& tp) = if event.has tp then table tp else Option.none := by
  rw [mask_single htp, Event.has]
  by_cases h : event.type &&& tp = 0
  · rw [if_neg (not_not.mpr h), if_neg (by simp [h])]
    exact free
  · rw [if_pos h, if_pos (decide_eq_true h)]

theorem dispatchOrder_singles {tp : EventType} : tp ∈ dispatchOrder ↔ tp ∈ EventType.singles := by
  simp only [dispatchOrder, EventType.singles, List.mem_cons, List.not_mem_nil, or_false]
  tauto

theorem lookups_eq (single : OverSingles table) (event : Event) :
    lookups table event dispatchOrder = handlersOf table event :=
  List.filterMap_congr fun _ htp => lookup_mask single.none (dispatchOrder_singles.mp htp)

/-- The handlers when the types that end a connection share one. -/
theorem handlersOf_split {erase : H} (h : ∀ tp ∈ EventType.terminations, table tp = some erase)
    (event : Event) :
    handlersOf table event =
      (if event.has .readReady then (table .readReady).toList else []) ++
        ((if event.has .writeReady then (table .writeReady).toList else []) ++
          (EventType.terminations.filter event.has).map fun _ => erase) := by
  have hendings : EventType.terminations.filterMap
      (fun tp => if event.has tp then table tp else none) =
        (EventType.terminations.filter event.has).map fun _ => erase := by
    rw [← List.filterMap_eq_map, List.filterMap_filter]
    refine List.filterMap_congr fun tp htp => ?_
    rw [h tp htp]
    rfl
  have one : ∀ tp, [tp].filterMap (fun tp => if event.has tp then table tp else none) =
      if event.has tp then (table tp).toList else [] := by
    intro tp
    rw [List.filterMap_cons, List.filterMap_nil]
    cases event.has tp <;> cases table tp <;> rfl
  rw [← hendings, ← one, ← one, ← List.filterMap_append, ← List.filterMap_append]
  rfl

theorem event_terminates_iff (event : Event) :
    event.terminates = true ↔ (EventType.terminations.filter event.has).length ≠ 0 := by
  simp [Event.terminates, List.filter_eq_nil_iff]

theorem handlersOf_ne_nil (event : Event) : handlersOf table event ≠ [] ↔ hasHandler table event := by
  rw [hasHandler, List.any_eq_true, Ne, handlersOf, List.filterMap_eq_nil_iff]
  constructor
  · intro h
    simp only [not_forall] at h
    obtain ⟨tp, htp, hfound⟩ := h
    refine ⟨tp, dispatchOrder_singles.mp htp, ?_⟩
    split_ifs at hfound with hhas
    · simpa [hhas, Option.isSome_iff_ne_none] using hfound
    · exact absurd rfl hfound
  · rintro ⟨tp, htp, hfound⟩ hnone
    obtain ⟨hhas, hsome⟩ := (Bool.and_eq_true ..).mp hfound
    have hlook := hnone tp (dispatchOrder_singles.mpr htp)
    rw [if_pos hhas] at hlook
    rw [hlook] at hsome
    cases hsome

end Table

section Dispatch

variable {H σ E : Type} {invoke : H → Fd → σ → Except E Unit × σ} {table : Handlers H}

/-- The types of an event make their handlers run up to the first one that throws. -/
theorem handleEventTypes_attempt (event : Event) (tps : List EventType) (found : Bool) (s : σ) :
    let run := fun func => invoke func event.fd
    let funcs := lookups table event tps
    handleEventTypes invoke table event tps found s =
      ((found || firstSucceeds run funcs s, (attempt run funcs s).1), (attempt run funcs s).2) := by
  intro run
  induction tps generalizing found s with
  | nil => simp [handleEventTypes, lookups, firstSucceeds]
  | cons tp tps ih =>
    rw [handleEventTypes_cons, handleEventType]
    cases hfunc : table (event.type &&& tp) with
    | none =>
      have hsame : lookups table event (tp :: tps) = lookups table event tps := by
        simp [lookups, hfunc]
      simp only [hsame, ih, Bool.or_false]
    | some func =>
      have hcons : lookups table event (tp :: tps) = func :: lookups table event tps := by
        simp [lookups, hfunc]
      rw [hcons]
      rcases act_cases run func s with ⟨s', h⟩ | ⟨e, s', h⟩
      · have hinvoke : invoke func event.fd s = (.ok (), s') := h
        simp [hinvoke, ih, attempt_ok h, firstSucceeds, h, Except.isOk, Except.toBool]
      · have hinvoke : invoke func event.fd s = (.error e, s') := h
        simp [hinvoke, attempt_error h, firstSucceeds, h, Except.isOk, Except.toBool]

theorem handleEvent_attempt (single : OverSingles table) (event : Event) (s : σ) :
    handleEvent invoke table event s =
      ((firstSucceeds (fun func => invoke func event.fd) (handlersOf table event) s,
        (attempt (fun func => invoke func event.fd) (handlersOf table event) s).1),
        (attempt (fun func => invoke func event.fd) (handlersOf table event) s).2) := by
  rw [handleEvent, handleEventTypes_attempt, lookups_eq single]
  simp

section

variable (invoke)

/-- The handlers with a log of their calls. -/
def recorded (func : H) (fd : Fd) (s : σ × List (H × Fd)) : Except E Unit × σ × List (H × Fd) :=
  logged (fun func => invoke func fd) (fun func => (func, fd)) func s

/-- The calls of handlers that `handle_event` makes for an event. -/
def invoked (table : Handlers H) (event : Event) (s : σ) : List (H × Fd) :=
  (handleEvent (recorded invoke) table event (s, [])).2.2

/-- The events that `proceed` gives to `m_unhandled`, call by call. -/
def reportedUnhandled (table : Handlers H) (events : List Event) (s : σ) : List (List Event) :=
  (proceed (E := E)
    (fun func fd (s : σ × List (List Event)) =>
      ((invoke func fd s.1).1, (invoke func fd s.1).2, s.2))
    table (some fun missed s => (.ok (), s.1, s.2 ++ [missed])) events (s, [])).2.2

/-- One event of a batch. -/
def dispatch (table : Handlers H) (s : σ) (event : Event) : Option σ :=
  some (handleEvent invoke table event s).2

end

/-- Every handler of an event is called exactly when none of them throws before the last one. -/
theorem invoked_iff (single : OverSingles table) (event : Event) (s : σ) :
    invoked invoke table event s = (handlersOf table event).map (fun func => (func, event.fd)) ↔
      (attempt (fun func => invoke func event.fd) (handlersOf table event).dropLast s).1 = none := by
  have hlog : (handleEvent (recorded invoke) table event (s, [])).2.2 =
      (attempted (fun func => invoke func event.fd) (handlersOf table event) s).map
        fun func => (func, event.fd) := by
    have hrun : attempt (fun func => recorded invoke func event.fd) (handlersOf table event)
        (s, []) = (_, _, [] ++ (attempted (fun func => invoke func event.fd)
          (handlersOf table event) s).map fun func => (func, event.fd)) :=
      attempt_logged _ _ s []
    rw [handleEvent_attempt single, hrun, List.nil_append]
  rw [← attempted_eq_iff, invoked, hlog]
  exact (List.map_injective_iff.mpr fun _ _ h => congrArg Prod.fst h).eq_iff

/-- Handlers that agree with others under a view of the state dispatch like them. -/
theorem handleEvents_map {τ : Type} (invoke' : H → Fd → τ → Except E Unit × τ) (view : τ → σ)
    (agree : ∀ func fd t,
      invoke func fd (view t) = ((invoke' func fd t).1, view (invoke' func fd t).2))
    (events : List Event) (t : τ) :
    handleEvents invoke table events (view t) =
      ((handleEvents invoke' table events t).1, view (handleEvents invoke' table events t).2) := by
  have one : ∀ event t, handleEvent invoke table event (view t) =
      ((handleEvent invoke' table event t).1, view (handleEvent invoke' table event t).2) := by
    intro event t
    have hagree := fun func => agree func event.fd
    rw [handleEvent, handleEvent, handleEventTypes_attempt, handleEventTypes_attempt,
      attempt_map hagree, firstSucceeds_map hagree]
  induction events generalizing t with
  | nil => rfl
  | cons event events ih => simp only [handleEvents, one, ih]

/-- And so they do in `proceed`, when what is called for the unhandled events agrees as well. -/
theorem proceed_map {τ : Type} {invoke' : H → Fd → τ → Except E Unit × τ} (view : τ → σ)
    (agree : ∀ func fd t,
      invoke func fd (view t) = ((invoke' func fd t).1, view (invoke' func fd t).2))
    {unhandled : Option (List Event → σ → Except E Unit × σ)}
    {unhandled' : Option (List Event → τ → Except E Unit × τ)}
    (agrees : ∀ missed t, handleUnhandled unhandled missed (view t) =
      ((handleUnhandled unhandled' missed t).1, view (handleUnhandled unhandled' missed t).2))
    (events : List Event) (t : τ) :
    proceed invoke table unhandled events (view t) =
      ((proceed invoke' table unhandled' events t).1,
        view (proceed invoke' table unhandled' events t).2) := by
  simp only [proceed, handleEvents_map invoke' view agree events t, agrees]
  split_ifs <;> rfl

theorem handleEvents_missed (event : Event) (events : List Event) (s : σ) :
    (handleEvents invoke table (event :: events) s).1.1 =
      if (handleEvent invoke table event s).1.1 then
        (handleEvents invoke table events (handleEvent invoke table event s).2).1.1
      else event :: (handleEvents invoke table events (handleEvent invoke table event s).2).1.1 :=
  rfl

theorem reportedUnhandled_eq (events : List Event) (s : σ) :
    reportedUnhandled invoke table events s = [(handleEvents invoke table events s).1.1] := by
  let beside : H → Fd → σ × List (List Event) → Except E Unit × σ × List (List Event) :=
    fun func fd s => ((invoke func fd s.1).1, (invoke func fd s.1).2, s.2)
  have hmissed : (handleEvents beside table events (s, [])).1 =
      (handleEvents invoke table events s).1 :=
    (congrArg Prod.fst
      (handleEvents_map beside Prod.fst (fun _ _ _ => rfl) events (s, []))).symm
  have hlog : (handleEvents beside table events (s, [])).2.2 = [] := by
    refine handleEvents_induction (fun out : σ × List (List Event) => out.2 = []) ?_ rfl
    intro event _ out hout
    exact handleEvent_induction (fun out : σ × List (List Event) => out.2 = []) (fun _ _ _ _ h => h) hout
  have hproceed : reportedUnhandled invoke table events s =
      (handleEvents beside table events (s, [])).2.2 ++
        [(handleEvents beside table events (s, [])).1.1] := by
    rw [reportedUnhandled, proceed_snd, handleUnhandled_some]
  rw [hproceed, hlog, hmissed, List.nil_append]

theorem firstSucceeds_hasHandler (single : OverSingles table) {event : Event} {s : σ}
    (h : (handleEvent invoke table event s).1.1 = true) : hasHandler table event = true := by
  rw [handleEvent_attempt single] at h
  rw [← handlersOf_ne_nil]
  rintro hnone
  simp [hnone, firstSucceeds] at h

variable (invoke) in
/-- The events without a handler are among those that are not found to be handled. -/
theorem filter_sublist_missed (single : OverSingles table) (events : List Event) (s : σ) :
    (events.filter fun event => !hasHandler table event).Sublist
      (handleEvents invoke table events s).1.1 := by
  induction events generalizing s with
  | nil => exact List.Sublist.slnil
  | cons event events ih =>
    have rest := ih (handleEvent invoke table event s).2
    rw [handleEvents_missed, List.filter_cons]
    by_cases hfound : (handleEvent invoke table event s).1.1 = true
    · rw [if_pos hfound, firstSucceeds_hasHandler single hfound]
      exact rest
    · rw [if_neg hfound]
      split
      · exact rest.cons_cons event
      · exact rest.cons event

/-- `m_unhandled` gets exactly the events without a handler exactly when the first handler of each
event returns. -/
theorem reportedUnhandled_iff (single : OverSingles table) (events : List Event) (s : σ) :
    reportedUnhandled invoke table events s =
        [events.filter fun event => !hasHandler table event] ↔
      Along (dispatch invoke table) (fun s event => hasHandler table event →
        firstSucceeds (fun func => invoke func event.fd) (handlersOf table event) s) s events := by
  rw [reportedUnhandled_eq, List.singleton_inj]
  induction events generalizing s with
  | nil => exact iff_of_true rfl trivial
  | cons event events ih =>
    have hfirst : (handleEvent invoke table event s).1.1 =
        firstSucceeds (fun func => invoke func event.fd) (handlersOf table event) s := by
      rw [handleEvent_attempt single]
    have hrest := ih (handleEvent invoke table event s).2
    rw [handleEvents_missed, List.filter_cons, along_cons, ← hfirst]
    simp only [dispatch, Option.some.injEq, forall_eq']
    by_cases hhas : hasHandler table event = true
    · by_cases hfound : (handleEvent invoke table event s).1.1 = true
      · simpa [hhas, hfound] using hrest
      · -- the event is reported although it has a handler, and so the list is too long
        refine iff_of_false ?_ fun h => hfound (h.1 hhas)
        intro heq
        have hsub := (filter_sublist_missed invoke single events
          (handleEvent invoke table event s).2).length_le
        have hlength := congrArg List.length heq
        simp [hhas, hfound] at hlength
        omega
    · have hfound : ¬(handleEvent invoke table event s).1.1 = true :=
        fun h => hhas (firstSucceeds_hasHandler single h)
      simpa [hhas, hfound] using hrest

end Dispatch

/-! ### A handler of `READ_READY` that throws -/

/-- Every type has a handler, named like the type. -/
def ownHandlers : Handlers EventType := fun tp => if tp ∈ EventType.singles then some tp else none

theorem ownHandlers_over : OverSingles ownHandlers := by
  intro tp func h
  unfold ownHandlers at h
  split_ifs at h with hmem
  exact hmem

def throwOnRead (func : EventType) (_ : Fd) (s : Unit) : Except Unit Unit × Unit :=
  (if func = .readReady then .error () else .ok (), s)

def readHangup : Event := ⟨3, .readReady ||| .hangup⟩

theorem invoked_iff_readHangup :
    invoked throwOnRead ownHandlers readHangup () =
        (handlersOf ownHandlers readHangup).map (fun func => (func, readHangup.fd)) ↔
      (attempt (fun func => throwOnRead func readHangup.fd)
        (handlersOf ownHandlers readHangup).dropLast ()).1 = none :=
  invoked_iff ownHandlers_over readHangup ()

/-- The handler of `HANGUP` is not called. -/
theorem throw_skips_hangup :
    invoked throwOnRead ownHandlers readHangup () ≠
      (handlersOf ownHandlers readHangup).map fun func => (func, readHangup.fd) := by
  decide

theorem reportedUnhandled_iff_readHangup :
    reportedUnhandled throwOnRead ownHandlers [readHangup] () =
        [[readHangup].filter fun event => !hasHandler ownHandlers event] ↔
      Along (dispatch throwOnRead ownHandlers) (fun s event => hasHandler ownHandlers event →
        firstSucceeds (fun func => throwOnRead func event.fd) (handlersOf ownHandlers event) s) ()
        [readHangup] :=
  reportedUnhandled_iff ownHandlers_over [readHangup] ()

/-- The event is given to `m_unhandled` after its handler threw. -/
theorem throw_reports_unhandled :
    reportedUnhandled throwOnRead ownHandlers [readHangup] () ≠
      [[readHangup].filter fun event => !hasHandler ownHandlers event] := by
  decide

end TypedSockets.Endpoint
