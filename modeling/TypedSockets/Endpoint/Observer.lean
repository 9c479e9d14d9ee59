import Mathlib.Logic.Function.Basic
import TypedSockets.Epoll.Event

/-! `event_observer_t`: the table of handlers and the dispatch of a batch of events.  A handler may
change the state and may throw. -/

namespace TypedSockets.Endpoint

open TypedSockets.Socket TypedSockets.Epoll

/-- `m_handlers`. -/
abbrev Handlers (H : Type) := EventType → Option H

namespace Handlers

variable {H : Type}

def empty : Handlers H := fun _ => none

/-- `event_observer_t::add`.  `emplace` keeps a handler that is already there. -/
def add (t : Handlers H) (event : EventType) (func : H) : Bool × Handlers H :=
  match t event with
  | some _ => (false, t)
  | none => (true, Function.update t event (some func))

/-- `event_observer_t::remove`. -/
def remove (t : Handlers H) (event : EventType) : Bool × Handlers H :=
  ((t event).isSome, Function.update t event none)

theorem add_apply (t : Handlers H) (event tp : EventType) (func : H) :
    (t.add event func).2 tp = if tp = event then (t event).or (some func) else t tp := by
  unfold Handlers.add
  split
  · rename_i old h
    by_cases htp : tp = event
    · simp [htp, h]
    · simp [htp]
  · rename_i h
    by_cases htp : tp = event
    · simp [htp, h]
    · simp [htp]

theorem remove_apply (t : Handlers H) (event tp : EventType) :
    (t.remove event).2 tp = if tp = event then none else t tp := by
  by_cases htp : tp = event <;> simp [Handlers.remove, htp]

theorem addAll_mem (entries : List (EventType × H)) {t : Handlers H} {tp : EventType}
    {func : H} (h : entries.foldl (fun t cb => (t.add cb.1 cb.2).2) t tp = some func) :
    t tp = some func ∨ (tp, func) ∈ entries := by
  induction entries generalizing t with
  | nil => exact Or.inl h
  | cons cb entries ih =>
    rcases ih h with hadd | hmem
    · have hadd : (t.add cb.1 cb.2).2 tp = some func := hadd
      rw [Handlers.add_apply] at hadd
      split_ifs at hadd with htp
      · rcases Option.or_eq_some_iff.mp hadd with hold | ⟨-, hnew⟩
        · exact Or.inl (htp ▸ hold)
        · cases hnew
          exact Or.inr (by simp [htp])
      · exact Or.inl hadd
    · exact Or.inr (List.mem_cons_of_mem cb hmem)

/-- A handler that is already there stays. -/
theorem addAll_old (entries : List (EventType × H)) {t : Handlers H} {tp : EventType} {func : H}
    (h : t tp = some func) :
    entries.foldl (fun t cb => (t.add cb.1 cb.2).2) t tp = some func := by
  induction entries generalizing t with
  | nil => exact h
  | cons cb entries ih =>
    have hadd : (t.add cb.1 cb.2).2 tp = some func := by
      rw [Handlers.add_apply]
      split_ifs with htp
      · rw [← htp, h, Option.some_or]
      · exact h
    exact ih hadd

theorem addAll_isSome {entries : List (EventType × H)} {tp : EventType} {func : H}
    (h : (tp, func) ∈ entries) (t : Handlers H) :
    (entries.foldl (fun t cb => (t.add cb.1 cb.2).2) t tp).isSome := by
  induction entries generalizing t with
  | nil => cases h
  | cons cb entries ih =>
    rcases List.mem_cons.mp h with rfl | htail
    · have hadd : ∃ func', (t.add tp func).2 tp = some func' := by
        rw [Handlers.add_apply, if_pos rfl]
        cases t tp <;> simp
      obtain ⟨func', hadd⟩ := hadd
      exact Option.isSome_iff_exists.mpr ⟨func', addAll_old entries hadd⟩
    · exact ih htail _

theorem removeAll_apply (tps : List EventType) (t : Handlers H) (tp : EventType) :
    tps.foldl (fun t tp => (t.remove tp).2) t tp = if tp ∈ tps then none else t tp := by
  induction tps generalizing t with
  | nil => rfl
  | cons tp' tps ih =>
    rw [List.foldl_cons, ih, Handlers.remove_apply]
    by_cases h : tp = tp' <;> simp [h]

theorem removeAll_mem (tps : List EventType) {t : Handlers H} {tp : EventType}
    {func : H} (h : tps.foldl (fun t tp => (t.remove tp).2) t tp = some func) :
    t tp = some func := by
  rw [removeAll_apply] at h
  split_ifs at h
  exact h

end Handlers

section Dispatch

variable {H σ E : Type} (invoke : H → Fd → σ → Except E Unit × σ) (table : Handlers H)

/-- `handle_event(event, tp)`.  Without the bit of `tp` the key that it looks up is `NONE`. -/
def handleEventType (event : Event) (tp : EventType) (s : σ) : Except E Bool × σ :=
  match table (event.type &&& tp) with
  | none => (.ok false, s)
  | some func =>
    match invoke func event.fd s with
    | (.ok (), s) => (.ok true, s)
    | (.error e, s) => (.error e, s)

theorem handleEventType_snd (event : Event) (tp : EventType) (s : σ) :
    (handleEventType invoke table event tp s).2 =
      ((table (event.type &&& tp)).map fun func => (invoke func event.fd s).2).getD s := by
  unfold handleEventType
  cases table (event.type &&& tp) with
  | none => rfl
  | some func =>
    simp only [Option.map_some, Option.getD_some]
    rcases invoke func event.fd s with ⟨_ | _, s'⟩ <;> rfl

/-- The types in the order in which `handle_event` tries them. -/
def dispatchOrder : List EventType :=
  [.readReady, .writeReady, .exception, .hangup, .error, .peerClosed]

/-- The `try` block of `handle_event`: an exception keeps what was found before it and skips the
types after it. -/
def handleEventTypes (event : Event) : List EventType → Bool → σ → (Bool × Option E) × σ
  | [], found, s => ((found, none), s)
  | tp :: tps, found, s =>
    match handleEventType invoke table event tp s with
    | (.ok handled, s) => handleEventTypes event tps (found || handled) s
    | (.error e, s) => ((found, some e), s)

theorem handleEventTypes_cons (event : Event) (tp : EventType) (tps : List EventType)
    (found : Bool) (s : σ) :
    handleEventTypes invoke table event (tp :: tps) found s =
      match handleEventType invoke table event tp s with
      | (.ok handled, s) => handleEventTypes invoke table event tps (found || handled) s
      | (.error e, s) => ((found, some e), s) := rfl

/-- `handle_event(event)`. -/
def handleEvent (event : Event) (s : σ) : (Bool × Option E) × σ :=
  handleEventTypes invoke table event dispatchOrder false s

/-- The loop of `proceed`: the unhandled events and the exceptions. -/
def handleEvents : List Event → σ → (List Event × List E) × σ
  | [], s => (([], []), s)
  | event :: events, s =>
    let ((found, exception), s) := handleEvent invoke table event s
    let ((unhandled, exceptions), s) := handleEvents events s
    ((if found then unhandled else event :: unhandled, exception.toList ++ exceptions), s)

theorem handleEvents_append (events events' : List Event) (s : σ) :
    (handleEvents invoke table (events ++ events') s).2 =
      (handleEvents invoke table events' (handleEvents invoke table events s).2).2 := by
  induction events generalizing s with
  | nil => rfl
  | cons event events ih => exact ih _

/-- `handle_unhandled`: the callback `m_unhandled`, when it is set. -/
def handleUnhandled (unhandled : Option (List Event → σ → Except E Unit × σ))
    (events : List Event) (s : σ) : Option E × σ :=
  match unhandled with
  | none => (none, s)
  | some func =>
    match func events s with
    | (.ok (), s) => (none, s)
    | (.error e, s) => (some e, s)

@[simp] theorem handleUnhandled_none (events : List Event) (s : σ) :
    (handleUnhandled (none : Option (List Event → σ → Except E Unit × σ)) events s).2 = s := rfl

@[simp] theorem handleUnhandled_some (func : List Event → σ → Except E Unit × σ)
    (events : List Event) (s : σ) :
    (handleUnhandled (some func) events s).2 = (func events s).2 := by
  simp only [handleUnhandled]
  rcases func events s with ⟨_ | _, s'⟩ <;> rfl

/-- `event_observer_t::proceed`, on the events that the poll returns: its result, or the exceptions
of the `proceed_exception` that it throws. -/
def proceed (unhandled : Option (List Event → σ → Except E Unit × σ)) (events : List Event)
    (s : σ) : Except (List E) Bool × σ :=
  let ((missed, exceptions), s) := handleEvents invoke table events s
  let (exception, s) := handleUnhandled unhandled missed s
  let exceptions := exceptions ++ exception.toList
  if exceptions.isEmpty then (.ok !events.isEmpty, s) else (.error exceptions, s)

theorem proceed_snd (unhandled : Option (List Event → σ → Except E Unit × σ))
    (events : List Event) (s : σ) :
    (proceed invoke table unhandled events s).2 =
      (handleUnhandled unhandled (handleEvents invoke table events s).1.1
        (handleEvents invoke table events s).2).2 := by
  unfold proceed
  simp only
  split_ifs <;> rfl

variable {invoke} {table}

/-- What every handler that is looked up for some types keeps, trying these types keeps. -/
theorem handleEventTypes_induction (Inv : σ → Prop) {event : Event} {tps : List EventType}
    (keep : ∀ tp ∈ tps, ∀ func, table (event.type &&& tp) = some func →
      ∀ s, Inv s → Inv (invoke func event.fd s).2) (found : Bool) {s : σ} (h : Inv s) :
    Inv (handleEventTypes invoke table event tps found s).2 := by
  induction tps generalizing found s with
  | nil => exact h
  | cons tp tps ih =>
    have one : Inv (handleEventType invoke table event tp s).2 := by
      rw [handleEventType_snd]
      cases hfunc : table (event.type &&& tp) with
      | none => exact h
      | some func => exact keep tp List.mem_cons_self func hfunc s h
    rw [handleEventTypes_cons]
    rcases hstep : handleEventType invoke table event tp s with ⟨_ | handled, s'⟩ <;>
      rw [hstep] at one
    · exact one
    · exact ih (fun t ht => keep t (List.mem_cons_of_mem tp ht)) _ one

/-- What every handler that is looked up for an event keeps, the event keeps. -/
theorem handleEvent_induction (Inv : σ → Prop) {event : Event}
    (keep : ∀ tp func, table (event.type &&& tp) = some func →
      ∀ s, Inv s → Inv (invoke func event.fd s).2) {s : σ} (h : Inv s) :
    Inv (handleEvent invoke table event s).2 :=
  handleEventTypes_induction Inv (fun tp _ => keep tp) false h

/-- What every event keeps, the loop of `proceed` keeps. -/
theorem handleEvents_induction (Inv : σ → Prop) {events : List Event}
    (keep : ∀ event ∈ events, ∀ s, Inv s → Inv (handleEvent invoke table event s).2) {s : σ}
    (h : Inv s) : Inv (handleEvents invoke table events s).2 := by
  induction events generalizing s with
  | nil => exact h
  | cons event events ih =>
    have one := keep event List.mem_cons_self s h
    exact ih (fun e he => keep e (List.mem_cons_of_mem event he)) one

/-- What every event and the callback for unhandled events keep, `proceed` keeps. -/
theorem proceed_induction (Inv : σ → Prop) {events : List Event}
    {unhandled : Option (List Event → σ → Except E Unit × σ)}
    (keep : ∀ event ∈ events, ∀ s, Inv s → Inv (handleEvent invoke table event s).2)
    (keepUnhandled : ∀ func ∈ unhandled, ∀ missed s, Inv s → Inv (func missed s).2) {s : σ}
    (h : Inv s) : Inv (proceed invoke table unhandled events s).2 := by
  have all := handleEvents_induction Inv keep h
  rw [proceed_snd]
  cases unhandled with
  | none => exact all
  | some func =>
    rw [handleUnhandled_some]
    exact keepUnhandled func rfl _ _ all

end Dispatch

end TypedSockets.Endpoint
