import Mathlib.Data.List.Infix

/-! Actions that may fail, one after the other up to the first failure. -/

namespace TypedSockets.Lib

variable {α σ τ E : Type*} (act : α → σ → Except E Unit × σ)

/-- The failure that ended the actions, if one did, and the state after them. -/
def attempt : List α → σ → Option E × σ
  | [], s => (none, s)
  | a :: as, s =>
    match act a s with
    | (.ok (), s) => attempt as s
    | (.error e, s) => (some e, s)

/-- The actions that are begun: those before the first failure, and the one that fails. -/
def attempted : List α → σ → List α
  | [], _ => []
  | a :: as, s =>
    a :: match act a s with
      | (.ok (), s) => attempted as s
      | (.error _, _) => []

/-- The place of the action that fails, when one does. -/
def failedAt : List α → σ → Option Nat
  | [], _ => none
  | a :: as, s =>
    match act a s with
    | (.ok (), s) => (failedAt as s).map (· + 1)
    | (.error _, _) => some 0

/-- The first action does not fail. -/
def firstSucceeds : List α → σ → Bool
  | [], _ => false
  | a :: _, s => (act a s).1.isOk

/-- The actions with a log, where each of them that is begun has its entry. -/
def logged (entry : α → τ) (a : α) (s : σ × List τ) : Except E Unit × σ × List τ :=
  ((act a s.1).1, (act a s.1).2, s.2 ++ [entry a])

theorem act_cases (a : α) (s : σ) :
    (∃ s', act a s = (.ok (), s')) ∨ ∃ e s', act a s = (.error e, s') := by
  rcases act a s with ⟨e | ⟨⟨⟩⟩, s'⟩
  · exact Or.inr ⟨e, s', rfl⟩
  · exact Or.inl ⟨s', rfl⟩

variable {act}

@[simp] theorem attempt_nil (s : σ) : attempt act [] s = (none, s) := rfl

@[simp] theorem attempted_nil (s : σ) : attempted act [] s = [] := rfl

theorem attempt_ok {a : α} {s s' : σ} (h : act a s = (.ok (), s')) (as : List α) :
    attempt act (a :: as) s = attempt act as s' := by
  rw [attempt, h]

theorem attempt_error {a : α} {s s' : σ} {e : E} (h : act a s = (.error e, s')) (as : List α) :
    attempt act (a :: as) s = (some e, s') := by
  rw [attempt, h]

theorem attempted_ok {a : α} {s s' : σ} (h : act a s = (.ok (), s')) (as : List α) :
    attempted act (a :: as) s = a :: attempted act as s' := by
  rw [attempted, h]

theorem attempted_error {a : α} {s s' : σ} {e : E} (h : act a s = (.error e, s'))
    (as : List α) : attempted act (a :: as) s = [a] := by
  rw [attempted, h]

theorem failedAt_ok {a : α} {s s' : σ} (h : act a s = (.ok (), s')) (as : List α) :
    failedAt act (a :: as) s = (failedAt act as s').map (· + 1) := by
  rw [failedAt, h]

theorem failedAt_error {a : α} {s s' : σ} {e : E} (h : act a s = (.error e, s'))
    (as : List α) : failedAt act (a :: as) s = some 0 := by
  rw [failedAt, h]

/-- There is a failure exactly when there is a place of one. -/
theorem failedAt_isSome (as : List α) (s : σ) :
    (failedAt act as s).isSome = (attempt act as s).1.isSome := by
  induction as generalizing s with
  | nil => rfl
  | cons a as ih =>
    rcases act_cases act a s with ⟨s', h⟩ | ⟨e, s', h⟩
    · rw [failedAt_ok h, attempt_ok h, Option.isSome_map, ih]
    · rw [failedAt_error h, attempt_error h]
      rfl

/-- Which actions are begun depends on the place of the failure alone. -/
theorem attempted_eq_take (as : List α) (s : σ) :
    attempted act as s = as.take (((failedAt act as s).map (· + 1)).getD as.length) := by
  induction as generalizing s with
  | nil => rfl
  | cons a as ih =>
    rcases act_cases act a s with ⟨s', h⟩ | ⟨e, s', h⟩
    · rw [attempted_ok h, failedAt_ok h, ih s']
      cases failedAt act as s' <;> rfl
    · rw [attempted_error h, failedAt_error h]
      rfl

theorem attempt_append (as bs : List α) (s : σ) :
    attempt act (as ++ bs) s =
      match attempt act as s with
      | (none, s') => attempt act bs s'
      | (some e, s') => (some e, s') := by
  induction as generalizing s with
  | nil => rfl
  | cons a as ih =>
    rcases act_cases act a s with ⟨s', h⟩ | ⟨e, s', h⟩
    · rw [List.cons_append, attempt_ok h, attempt_ok h, ih]
    · rw [List.cons_append, attempt_error h, attempt_error h]

/-- All actions are begun exactly when none before the last one fails. -/
theorem attempted_eq_iff (as : List α) (s : σ) :
    attempted act as s = as ↔ (attempt act as.dropLast s).1 = none := by
  induction as generalizing s with
  | nil => simp
  | cons a as ih =>
    cases as with
    | nil =>
      rcases act_cases act a s with ⟨s', h⟩ | ⟨e, s', h⟩
      · simp [attempted_ok h]
      · simp [attempted_error h]
    | cons b as =>
      rcases act_cases act a s with ⟨s', h⟩ | ⟨e, s', h⟩
      · rw [attempted_ok h, List.dropLast_cons_cons, attempt_ok h, ← ih s']
        simp
      · rw [attempted_error h, List.dropLast_cons_cons, attempt_error h]
        simp

/-- What every action keeps, the attempt keeps. -/
theorem attempt_induction (Inv : σ → Prop) {as : List α}
    (keep : ∀ a ∈ as, ∀ s, Inv s → Inv (act a s).2) {s : σ} (h : Inv s) :
    Inv (attempt act as s).2 := by
  induction as generalizing s with
  | nil => exact h
  | cons a as ih =>
    have one := keep a List.mem_cons_self s h
    have rest := fun b hb => keep b (List.mem_cons_of_mem a hb)
    rcases act_cases act a s with ⟨s', hact⟩ | ⟨e, s', hact⟩
    · rw [hact] at one
      rw [attempt_ok hact]
      exact ih rest one
    · rw [hact] at one
      rw [attempt_error hact]
      exact one

/-- Actions that agree with others under a view of the state make the same attempt. -/
theorem attempt_map {act' : α → τ → Except E Unit × τ} {view : τ → σ}
    (agree : ∀ a t, act a (view t) = ((act' a t).1, view (act' a t).2)) (as : List α) (t : τ) :
    attempt act as (view t) = ((attempt act' as t).1, view (attempt act' as t).2) := by
  induction as generalizing t with
  | nil => rfl
  | cons a as ih =>
    have hagree := agree a t
    rcases act_cases act' a t with ⟨t', h⟩ | ⟨e, t', h⟩
    · rw [h] at hagree
      rw [attempt_ok h, attempt_ok hagree, ih]
    · rw [h] at hagree
      rw [attempt_error h, attempt_error hagree]

theorem firstSucceeds_map {act' : α → τ → Except E Unit × τ} {view : τ → σ}
    (agree : ∀ a t, act a (view t) = ((act' a t).1, view (act' a t).2)) (as : List α) (t : τ) :
    firstSucceeds act as (view t) = firstSucceeds act' as t := by
  cases as with
  | nil => rfl
  | cons a as => rw [firstSucceeds, firstSucceeds, agree]

/-- The log of the actions is that of those begun. -/
theorem attempt_logged (entry : α → τ) (as : List α) (s : σ) (log : List τ) :
    attempt (logged act entry) as (s, log) =
      ((attempt act as s).1, (attempt act as s).2, log ++ (attempted act as s).map entry) := by
  induction as generalizing s log with
  | nil => simp
  | cons a as ih =>
    rcases act_cases act a s with ⟨s', h⟩ | ⟨e, s', h⟩
    · have hlog : logged act entry a (s, log) = (.ok (), s', log ++ [entry a]) := by
        simp [logged, h]
      rw [attempt_ok hlog, attempt_ok h, attempted_ok h, ih]
      simp
    · have hlog : logged act entry a (s, log) = (.error e, s', log ++ [entry a]) := by
        simp [logged, h]
      rw [attempt_error hlog, attempt_error h, attempted_error h]
      simp

end TypedSockets.Lib
