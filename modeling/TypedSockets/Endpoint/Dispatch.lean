import TypedSockets.Endpoint.Observer

/-! Dispatch of raw epoll reports.  With handlers that do not throw, a batch makes exactly the calls
that the flags and the table of handlers ask for, in order. -/

namespace TypedSockets.Endpoint

open TypedSockets.Socket TypedSockets.Epoll EpollFlags

/-! ### From flags to event types -/

/-- The flags and their event types, in the order of the dispatch. -/
def flagOrder : List (EpollFlags × EventType) :=
  [(epollIn, .readReady), (epollOut, .writeReady), (epollPri, .exception), (epollHup, .hangup),
    (epollErr, .error), (epollRdHup, .peerClosed)]

theorem flagOrder_types : flagOrder.map Prod.snd = dispatchOrder := rfl

/-- The event type as a function of the six flags. -/
def typeOfBits (inn out pri hup err rdHup : Bool) : EventType :=
  let ret := EventType.none
  let ret := if inn then ret ||| EventType.readReady else ret
  let ret := if out then ret ||| EventType.writeReady else ret
  let ret := if pri then ret ||| EventType.exception else ret
  let ret := if hup then ret ||| EventType.hangup else ret
  let ret := if err then ret ||| EventType.error else ret
  if rdHup then ret ||| EventType.peerClosed else ret

theorem eventTypeFromFlags_eq (flags : EpollFlags) :
    eventTypeFromFlags flags =
      typeOfBits (flags &&& epollIn ≠ 0) (flags &&& epollOut ≠ 0) (flags &&& epollPri ≠ 0)
        (flags &&& epollHup ≠ 0) (flags &&& epollErr ≠ 0) (flags &&& epollRdHup ≠ 0) := by
  simp [eventTypeFromFlags, typeOfBits]

theorem typeOfBits_mask (inn out pri hup err rdHup : Bool) :
    typeOfBits inn out pri hup err rdHup &&& .readReady = (if inn then .readReady else .none) ∧
    typeOfBits inn out pri hup err rdHup &&& .writeReady = (if out then .writeReady else .none) ∧
    typeOfBits inn out pri hup err rdHup &&& .exception = (if pri then .exception else .none) ∧
    typeOfBits inn out pri hup err rdHup &&& .hangup = (if hup then .hangup else .none) ∧
    typeOfBits inn out pri hup err rdHup &&& .error = (if err then .error else .none) ∧
    typeOfBits inn out pri hup err rdHup &&& .peerClosed =
      (if rdHup then .peerClosed else .none) := by
  revert inn out pri hup err rdHup
  decide

/-- An event carries a type exactly when the report has its flag. -/
theorem eventTypeFromFlags_mask (flags : EpollFlags) {flag : EpollFlags} {tp : EventType}
    (h : (flag, tp) ∈ flagOrder) :
    eventTypeFromFlags flags &&& tp = if flags &&& flag ≠ 0 then tp else EventType.none := by
  rw [eventTypeFromFlags_eq]
  obtain ⟨hin, hout, hpri, hhup, herr, hrd⟩ := typeOfBits_mask (flags &&& epollIn ≠ 0)
    (flags &&& epollOut ≠ 0) (flags &&& epollPri ≠ 0) (flags &&& epollHup ≠ 0)
    (flags &&& epollErr ≠ 0) (flags &&& epollRdHup ≠ 0)
  simp only [flagOrder, List.mem_cons, Prod.mk.injEq, List.not_mem_nil, or_false] at h
  rcases h with ⟨rfl, rfl⟩ | ⟨rfl, rfl⟩ | ⟨rfl, rfl⟩ | ⟨rfl, rfl⟩ | ⟨rfl, rfl⟩ | ⟨rfl, rfl⟩
  · simpa using hin
  · simpa using hout
  · simpa using hpri
  · simpa using hhup
  · simpa using herr
  · simpa using hrd

/-! ### The table of handlers -/

section Table

variable {H : Type}

/-- A call of `add` or `remove` on one of the six types. -/
inductive TableOp (H : Type) where
  | add (tp : {tp // tp ∈ EventType.singles}) (func : H)
  | remove (tp : {tp // tp ∈ EventType.singles})

namespace TableOp

def apply (t : Handlers H) : TableOp H → Handlers H
  | add tp func => (t.add tp func).2
  | remove tp => (t.remove tp).2

def removes (tp : EventType) : TableOp H → Bool
  | add _ _ => false
  | remove tp' => tp = tp'

def added? (tp : EventType) : TableOp H → Option H
  | add tp' func => if tp = tp' then some func else none
  | remove _ => none

/-- The table that a history of calls leaves. -/
def tableAfter (ops : List (TableOp H)) : Handlers H := ops.foldl apply .empty

/-- The first handler added for the type since its last removal. -/
def firstAdded (ops : List (TableOp H)) : Handlers H := fun tp =>
  (ops.reverse.takeWhile fun op => !op.removes tp).reverse.findSome? (added? tp)

theorem apply_eq (t : Handlers H) (op : TableOp H) (tp : EventType) :
    op.apply t tp = if op.removes tp then none else (t tp).or (op.added? tp) := by
  cases op with
  | add tp' func =>
    rw [apply, Handlers.add_apply]
    by_cases h : tp = tp' <;> simp [removes, added?, h]
  | remove tp' =>
    rw [apply, Handlers.remove_apply]
    by_cases h : tp = tp' <;> simp [removes, added?, h]

theorem firstAdded_append (ops : List (TableOp H)) (op : TableOp H) (tp : EventType) :
    firstAdded (ops ++ [op]) tp =
      if op.removes tp then none else (firstAdded ops tp).or (op.added? tp) := by
  by_cases h : op.removes tp = true
  · simp [firstAdded, h]
  · simp [firstAdded, h, List.findSome?_append, Option.or]

theorem tableAfter_eq (ops : List (TableOp H)) : tableAfter ops = firstAdded ops := by
  induction ops using List.reverseRecOn with
  | nil => rfl
  | append_singleton ops op ih =>
    funext tp
    rw [firstAdded_append, ← ih, ← apply_eq]
    simp [tableAfter]

/-- No handler is registered for `NONE`. -/
theorem firstAdded_none (ops : List (TableOp H)) : firstAdded ops EventType.none = none := by
  unfold firstAdded
  rw [List.findSome?_eq_none_iff]
  intro op _
  cases op with
  | add tp func =>
    have hne : EventType.none ≠ tp.1 := by
      rintro h
      exact absurd (h ▸ tp.2) (by decide)
    simp [added?, hne]
  | remove tp => rfl

end TableOp

/-- The call that a report asks for under one flag. -/
def callOf (table : Handlers H) (raw : RawEvent) (entry : EpollFlags × EventType) :
    Option (H × Fd) :=
  if raw.flags &&& entry.1 ≠ 0 then (table entry.2).map fun func => (func, raw.fd) else none

/-- The calls that a report asks for: the handlers in the table whose flag is set. -/
def callsOf (table : Handlers H) (raw : RawEvent) : List (H × Fd) :=
  flagOrder.filterMap (callOf table raw)

end Table

/-! ### The batch -/

section Batch

variable {H σ E : Type} (act : H → Fd → σ → σ) (table : Handlers H)

/-- A handler that does not throw. -/
def total (func : H) (fd : Fd) (s : σ) : Except E Unit × σ := (.ok (), act func fd s)

/-- The state after a list of calls. -/
def callAll (calls : List (H × Fd)) (s : σ) : σ :=
  calls.foldl (fun s call => act call.1 call.2 s) s

theorem handleEventType_total (event : Event) (tp : EventType) (s : σ) :
    handleEventType (E := E) (total act) table event tp s =
      (.ok (table (event.type &&& tp)).isSome,
        callAll act ((table (event.type &&& tp)).map fun func => (func, event.fd)).toList s) := by
  unfold handleEventType
  cases table (event.type &&& tp) <;> rfl

theorem lookup_eq (raw : RawEvent) {entry : EpollFlags × EventType} (h : entry ∈ flagOrder)
    (free : table EventType.none = none) :
    (table (raw.toEvent.type &&& entry.2)).map (fun func => (func, raw.fd)) =
      callOf table raw entry := by
  have hmask : raw.toEvent.type &&& entry.2 =
      if raw.flags &&& entry.1 ≠ 0 then entry.2 else EventType.none :=
    eventTypeFromFlags_mask raw.flags h
  rw [hmask, callOf]
  split_ifs
  · rfl
  · rw [free, Option.map_none]

theorem handleEventTypes_total {raw : RawEvent} (free : table EventType.none = none)
    (entries : List (EpollFlags × EventType)) (h : ∀ entry ∈ entries, entry ∈ flagOrder)
    (found : Bool) (s : σ) :
    handleEventTypes (E := E) (total act) table raw.toEvent (entries.map Prod.snd) found s =
      ((found || !(entries.filterMap (callOf table raw)).isEmpty, none),
        callAll act (entries.filterMap (callOf table raw)) s) := by
  induction entries generalizing found s with
  | nil => simp [handleEventTypes, callAll]
  | cons entry entries ih =>
    have hlook := lookup_eq table raw (h entry List.mem_cons_self) free
    rw [List.map_cons, handleEventTypes, handleEventType_total]
    have hfd : raw.toEvent.fd = raw.fd := rfl
    rw [hfd, hlook]
    have hsome : (table (raw.toEvent.type &&& entry.2)).isSome = (callOf table raw entry).isSome := by
      rw [← hlook, Option.isSome_map]
    rw [hsome]
    simp only
    rw [ih fun e he => h e (List.mem_cons_of_mem entry he)]
    cases hcall : callOf table raw entry with
    | none => simp [hcall, callAll]
    | some call => simp [hcall, callAll]

/-- One event makes the calls that its report asks for, and is unhandled when there are none. -/
theorem handleEvent_total (raw : RawEvent) (free : table EventType.none = none) (s : σ) :
    handleEvent (E := E) (total act) table raw.toEvent s =
      ((!(callsOf table raw).isEmpty, none), callAll act (callsOf table raw) s) := by
  rw [handleEvent, ← flagOrder_types,
    handleEventTypes_total act table free flagOrder (fun _ h => h) false s]
  rfl

theorem handleEvents_total (raw : List RawEvent) (free : table EventType.none = none) (s : σ) :
    handleEvents (E := E) (total act) table (EpollT.proceed raw) s =
      (((raw.filter fun r => (callsOf table r).isEmpty).map RawEvent.toEvent, []),
        callAll act (raw.flatMap (callsOf table)) s) := by
  induction raw generalizing s with
  | nil => rfl
  | cons r raw ih =>
    rw [EpollT.proceed, List.map_cons, handleEvents, handleEvent_total act table r free s]
    simp only
    rw [show raw.map RawEvent.toEvent = EpollT.proceed raw from rfl, ih]
    cases h : (callsOf table r).isEmpty <;> simp [h, callAll]

end Batch

/-- A batch makes exactly the calls that its reports ask for, event by event and in the order of the
flags, where a type has the first handler added since its last removal; then the callback for
unhandled events gets the events without a call, and the result says whether there were events. -/
theorem proceed_exact {H σ E : Type} (act : H → Fd → σ → σ) (ops : List (TableOp H))
    (unhandled : Option (List Event → σ → σ)) (raw : List RawEvent) (s : σ) :
    proceed (E := E) (total act) (TableOp.tableAfter ops)
        (unhandled.map fun func events s => (.ok (), func events s)) (EpollT.proceed raw) s =
      let calls := callsOf (TableOp.firstAdded ops)
      let called := callAll act (raw.flatMap calls) s
      let missed := (raw.filter fun r => (calls r).isEmpty).map RawEvent.toEvent
      (.ok (raw ≠ []), (unhandled.map fun func => func missed called).getD called) := by
  rw [TableOp.tableAfter_eq, proceed,
    handleEvents_total act _ raw (TableOp.firstAdded_none ops) s]
  cases unhandled <;> cases raw <;> simp [handleUnhandled, EpollT.proceed]

end TypedSockets.Endpoint
