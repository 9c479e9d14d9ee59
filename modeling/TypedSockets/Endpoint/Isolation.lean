import TypedSockets.Endpoint.Throwing

/-! What one event does to the others of its batch.  The handlers of each event are called as if it
were alone, and every exception is collected. -/

namespace TypedSockets.Endpoint

open TypedSockets.Socket TypedSockets.Epoll TypedSockets.Lib

/-- A call that `proceed` makes. -/
inductive Call (H : Type) where
  | handler (func : H) (fd : Fd)
  | unhandled (events : List Event)

section

variable {H σ E : Type} (invoke : H → Fd → σ → Except E Unit × σ) (table : Handlers H)
  (unhandled : Option (List Event → σ → Except E Unit × σ))

/-- The handlers with a log of all calls. -/
def loggedHandler (func : H) (fd : Fd) (s : σ × List (Call H)) :
    Except E Unit × σ × List (Call H) :=
  logged (fun func => invoke func fd) (fun func => .handler func fd) func s

/-- The calls that `proceed` makes, in order. -/
def calls (events : List Event) (s : σ) : List (Call H) :=
  (proceed (loggedHandler invoke) table (unhandled.map fun func => logged func .unhandled) events
    (s, [])).2.2

/-- The handlers of one event on their own, one after the other up to the first that throws: its
exception, and the state after them. -/
def ownRun (event : Event) (s : σ) : Option E × σ :=
  attempt (fun func => invoke func event.fd) (lookups table event dispatchOrder) s

/-- The first handler of the event returns. -/
def firstReturns (event : Event) (s : σ) : Bool :=
  firstSucceeds (fun func => invoke func event.fd) (lookups table event dispatchOrder) s

/-- Which of the handlers of the event throws, by its number. -/
def failureOf (event : Event) (s : σ) : Option Nat :=
  failedAt (fun func => invoke func event.fd) (lookups table event dispatchOrder) s

/-- The handlers that are called for an event when the one with the number throws. -/
def calledFor (event : Event) (failure : Option Nat) : List (H × Fd) :=
  let funcs := lookups table event dispatchOrder
  (funcs.take ((failure.map (· + 1)).getD funcs.length)).map fun func => (func, event.fd)

/-- The events of a batch, each with the state that the handlers of those before it leave. -/
def passes : List Event → σ → List (Event × σ)
  | [], _ => []
  | event :: events, s => (event, s) :: passes events (ownRun invoke table event s).2

/-- The state that the handlers of a batch leave. -/
def stateAfter (events : List Event) (s : σ) : σ :=
  events.foldl (fun s event => (ownRun invoke table event s).2) s

/-- The events without a handler, and those whose first handler throws. -/
def missed (events : List Event) (s : σ) : List Event :=
  ((passes invoke table events s).filter fun pass =>
    !firstReturns invoke table pass.1 pass.2).map Prod.fst

/-- The first handler of the event throws. -/
def firstThrows (event : Event) (s : σ) : Bool :=
  (handlersOf table event).head?.any fun func => !(invoke func event.fd s).1.isOk

/-- The events of a batch whose first handler throws. -/
def firstThrown (events : List Event) (s : σ) : List Event :=
  ((passes invoke table events s).filter fun pass =>
    firstThrows invoke table pass.1 pass.2).map Prod.fst

/-- What a function threw. -/
def thrown : Except E Unit → Option E
  | .ok () => none
  | .error e => some e

/-- The exceptions that the functions of the user throw: one for each event with a handler that
throws, and that of `m_unhandled`. -/
def exceptionsOf (events : List Event) (s : σ) : List E :=
  (passes invoke table events s).filterMap (fun pass => (ownRun invoke table pass.1 pass.2).1) ++
    (unhandled.bind fun func =>
      thrown (func (missed invoke table events s) (stateAfter invoke table events s)).1).toList

end

section

variable {H σ E : Type} {invoke : H → Fd → σ → Except E Unit × σ} {table : Handlers H}

theorem passes_events (events : List Event) (s : σ) :
    (passes invoke table events s).map Prod.fst = events := by
  induction events generalizing s with
  | nil => rfl
  | cons event events ih => rw [passes, List.map_cons, ih]

/-- `handle_event` runs the handlers of its event. -/
theorem handleEvent_ownRun (event : Event) (s : σ) :
    handleEvent invoke table event s =
      ((firstReturns invoke table event s, (ownRun invoke table event s).1),
        (ownRun invoke table event s).2) := by
  rw [handleEvent, handleEventTypes_attempt, Bool.false_or]
  rfl

/-- The loop of `proceed`, in terms of the handlers. -/
theorem handleEvents_ownRun (events : List Event) (s : σ) :
    handleEvents invoke table events s =
      ((missed invoke table events s,
        (passes invoke table events s).filterMap fun pass =>
          (ownRun invoke table pass.1 pass.2).1), stateAfter invoke table events s) := by
  induction events generalizing s with
  | nil => rfl
  | cons event events ih =>
    simp only [handleEvents, handleEvent_ownRun, ih, missed, passes, List.filter_cons,
      List.filterMap_cons]
    refine Prod.ext (Prod.ext ?_ ?_) rfl
    · cases firstReturns invoke table event s <;> rfl
    · cases (ownRun invoke table event s).1 <;> rfl

theorem reportedUnhandled_missed (events : List Event) (s : σ) :
    reportedUnhandled invoke table events s = [missed invoke table events s] := by
  rw [reportedUnhandled_eq, handleEvents_ownRun]

/-- Where each event has a handler, an event is missed because its first handler throws. -/
theorem missed_found (single : OverSingles table) {events : List Event}
    (found : ∀ event ∈ events, handlersOf table event ≠ []) (s : σ) :
    missed invoke table events s = firstThrown invoke table events s := by
  rw [missed, firstThrown]
  congr 1
  refine List.filter_congr fun pass hpass => ?_
  have hevents : (passes invoke table events s).map Prod.fst = events := passes_events events s
  have hmem : pass.1 ∈ events := hevents ▸ List.mem_map_of_mem hpass
  rw [firstReturns, lookups_eq single, firstThrows]
  cases hfuncs : handlersOf table pass.1 with
  | nil => exact absurd hfuncs (found pass.1 hmem)
  | cons func funcs => rfl

theorem handleUnhandled_thrown (unhandled : Option (List Event → σ → Except E Unit × σ))
    (events : List Event) (s : σ) :
    (handleUnhandled unhandled events s).1 =
      unhandled.bind fun func => thrown (func events s).1 := by
  cases unhandled with
  | none => rfl
  | some func =>
    rw [handleUnhandled, Option.bind_some]
    rcases func events s with ⟨_ | ⟨⟨⟩⟩, s'⟩ <;> rfl

/-- `m_unhandled` with a log. -/
theorem handleUnhandled_logged (unhandled : Option (List Event → σ → Except E Unit × σ))
    (missed : List Event) (t : σ × List (Call H)) :
    handleUnhandled unhandled missed t.1 =
      ((handleUnhandled (unhandled.map fun func => logged func .unhandled) missed t).1,
        (handleUnhandled (unhandled.map fun func => logged func .unhandled) missed t).2.1) := by
  cases unhandled with
  | none => rfl
  | some func =>
    simp only [handleUnhandled, Option.map_some, logged]
    rcases func missed t.1 with ⟨_ | _, s'⟩ <;> rfl

theorem invoked_eq (event : Event) (s : σ) :
    invoked invoke table event s =
      (attempted (fun func => invoke func event.fd) (lookups table event dispatchOrder) s).map
        fun func => (func, event.fd) := by
  have hrun : attempt (fun func => recorded invoke func event.fd) (lookups table event dispatchOrder)
      (s, []) = (_, _, [] ++ (attempted (fun func => invoke func event.fd)
        (lookups table event dispatchOrder) s).map fun func => (func, event.fd)) :=
    attempt_logged _ _ s []
  rw [invoked, handleEvent_ownRun, ownRun, hrun, List.nil_append]

/-- Which handlers are called for an event depends on the table, its bits and its own failure. -/
theorem invoked_calledFor (event : Event) (s : σ) :
    invoked invoke table event s = calledFor table event (failureOf invoke table event s) := by
  rw [invoked_eq, attempted_eq_take]
  rfl

/-- The log of one event. -/
theorem handleEvent_logged (event : Event) (s : σ) (log : List (Call H)) :
    handleEvent (loggedHandler invoke) table event (s, log) =
      ((handleEvent invoke table event s).1, (handleEvent invoke table event s).2,
        log ++ (invoked invoke table event s).map fun call => .handler call.1 call.2) := by
  have hrun : ownRun (loggedHandler invoke) table event (s, log) = _ :=
    attempt_logged (fun func => Call.handler func event.fd) _ s log
  have hfirst : firstReturns (loggedHandler invoke) table event (s, log) =
      firstReturns invoke table event s := by
    rw [firstReturns, firstReturns]
    cases lookups table event dispatchOrder <;> rfl
  rw [handleEvent_ownRun, hrun, hfirst, handleEvent_ownRun, invoked_eq, List.map_map]
  rfl

theorem handleEvents_logged (events : List Event) (s : σ) (log : List (Call H)) :
    handleEvents (loggedHandler invoke) table events (s, log) =
      ((handleEvents invoke table events s).1, (handleEvents invoke table events s).2,
        log ++ (passes invoke table events s).flatMap fun pass =>
          (invoked invoke table pass.1 pass.2).map fun call => .handler call.1 call.2) := by
  induction events generalizing s log with
  | nil => simp [handleEvents, passes]
  | cons event events ih =>
    have hstate : (handleEvent invoke table event s).2 = (ownRun invoke table event s).2 := by
      rw [handleEvent_ownRun]
    simp only [handleEvents, handleEvent_logged, ih, passes, hstate, List.flatMap_cons,
      List.append_assoc]

/-- `proceed` calls the handlers of every event, and then `m_unhandled`. -/
theorem calls_eq (unhandled : Option (List Event → σ → Except E Unit × σ)) (events : List Event)
    (s : σ) :
    calls invoke table unhandled events s =
      (passes invoke table events s).flatMap (fun pass =>
          (invoked invoke table pass.1 pass.2).map fun call => .handler call.1 call.2) ++
        (unhandled.map fun _ => .unhandled (missed invoke table events s)).toList := by
  rw [calls, proceed_snd, handleEvents_logged, handleEvents_ownRun, List.nil_append]
  cases unhandled with
  | none => simp
  | some func =>
    rw [Option.map_some, handleUnhandled_some]
    rfl

theorem proceed_result (unhandled : Option (List Event → σ → Except E Unit × σ))
    (events : List Event) (s : σ) :
    (proceed invoke table unhandled events s).1 =
      if (exceptionsOf invoke table unhandled events s).isEmpty then .ok !events.isEmpty
      else .error (exceptionsOf invoke table unhandled events s) := by
  rw [exceptionsOf, ← handleUnhandled_thrown, proceed, handleEvents_ownRun]
  simp only
  split_ifs <;> rfl

end

/-- `proceed` passes over every event of a batch, and the handlers that it calls for one depend on
the table, the event and the failure of its own handlers.  Then it calls `m_unhandled`.  It throws
when one of these functions threw, and gives the exception of each event with a handler that threw,
in their order, and after them that of `m_unhandled`. -/
theorem proceed_isolated {H σ E : Type} (invoke : H → Fd → σ → Except E Unit × σ)
    (table : Handlers H) (unhandled : Option (List Event → σ → Except E Unit × σ))
    (events : List Event) (s : σ) :
    (passes invoke table events s).map Prod.fst = events ∧
    calls invoke table unhandled events s =
      (passes invoke table events s).flatMap (fun pass =>
          (calledFor table pass.1 (failureOf invoke table pass.1 pass.2)).map
            fun call => .handler call.1 call.2) ++
        (unhandled.map fun _ => .unhandled (missed invoke table events s)).toList ∧
    (∀ event s, (failureOf invoke table event s).isSome =
      (ownRun invoke table event s).1.isSome) ∧
    (proceed invoke table unhandled events s).1 =
      if (exceptionsOf invoke table unhandled events s).isEmpty then .ok !events.isEmpty
      else .error (exceptionsOf invoke table unhandled events s) := by
  refine ⟨passes_events events s, ?_, fun event s => failedAt_isSome _ s,
    proceed_result unhandled events s⟩
  rw [calls_eq]
  simp only [invoked_calledFor]

end TypedSockets.Endpoint
