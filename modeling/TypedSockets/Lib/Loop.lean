import Mathlib.Logic.Function.Iterate

/-! The loop `do { body } while (again)`.  `doWhile` runs it with a bound on the rounds; `Ends` says
that some bound is enough and gives the last state, so a loop that never ends ends in no state. -/

namespace TypedSockets.Lib

variable {σ : Type*} (body : σ → σ) (again : σ → Bool)

/-- The loop in at most `fuel` rounds, and `none` when the rounds run out. -/
def doWhile : Nat → σ → Option σ
  | 0, _ => none
  | fuel + 1, s => if again (body s) then doWhile fuel (body s) else some (body s)

/-- The loop from `s` ends, in the state `s'`. -/
def Ends (s s' : σ) : Prop := ∃ fuel, doWhile body again fuel s = some s'

/-- The loop from `s` ends. -/
def Terminates (s : σ) : Prop := ∃ s', Ends body again s s'

variable {body again}

theorem ends_stop {s : σ} (h : again (body s) = false) : Ends body again s (body s) :=
  ⟨1, by simp [doWhile, h]⟩

theorem ends_stop_iff {s s' : σ} (h : again (body s) = false) :
    Ends body again s s' ↔ s' = body s := by
  constructor
  · rintro ⟨fuel, hrun⟩
    cases fuel with
    | zero => simp [doWhile] at hrun
    | succ fuel => simpa [doWhile, h, eq_comm] using hrun
  · rintro rfl
    exact ends_stop h

theorem ends_again_iff {s s' : σ} (h : again (body s) = true) :
    Ends body again s s' ↔ Ends body again (body s) s' := by
  constructor
  · rintro ⟨fuel, hrun⟩
    cases fuel with
    | zero => simp [doWhile] at hrun
    | succ fuel => exact ⟨fuel, by simpa [doWhile, h] using hrun⟩
  · rintro ⟨fuel, hrun⟩
    exact ⟨fuel + 1, by simpa [doWhile, h] using hrun⟩

theorem terminates_stop {s : σ} (h : again (body s) = false) : Terminates body again s :=
  ⟨body s, ends_stop h⟩

theorem terminates_again_iff {s : σ} (h : again (body s) = true) :
    Terminates body again s ↔ Terminates body again (body s) :=
  exists_congr fun _ => ends_again_iff h

/-- A loop has at most one last state. -/
theorem Ends.unique {s t u : σ} (ht : Ends body again s t) (hu : Ends body again s u) : t = u := by
  obtain ⟨fuel, hrun⟩ := ht
  induction fuel generalizing s with
  | zero => simp [doWhile] at hrun
  | succ fuel ih =>
    cases h : again (body s) with
    | false =>
      rw [ends_stop_iff h] at hu
      simp [doWhile, h] at hrun
      rw [hu, hrun]
    | true =>
      rw [ends_again_iff h] at hu
      exact ih hu (by simpa [doWhile, h] using hrun)

/-- The last round of a loop whose rounds keep an invariant. -/
theorem doWhile_last (Inv : σ → Prop) (keep : ∀ s, Inv s → Inv (body s)) {fuel : Nat}
    {s s' : σ} (hrun : doWhile body again fuel s = some s') (h : Inv s) :
    ∃ u, Inv u ∧ body u = s' ∧ again s' = false := by
  induction fuel generalizing s with
  | zero => cases hrun
  | succ fuel ih =>
    rw [doWhile] at hrun
    split at hrun
    · exact ih hrun (keep s h)
    · rename_i hagain
      cases hrun
      exact ⟨s, h, rfl, by simpa using hagain⟩

/-- What every round keeps, the loop keeps. -/
theorem doWhile_induction (Inv : σ → Prop) (keep : ∀ s, Inv s → Inv (body s)) {fuel : Nat}
    {s s' : σ} (hrun : doWhile body again fuel s = some s') (h : Inv s) : Inv s' := by
  obtain ⟨u, hu, rfl, -⟩ := doWhile_last Inv keep hrun h
  exact keep u hu

section Map

variable {τ : Type*} {body' : τ → τ} {again' : τ → Bool} {f : σ → τ}

/-- A loop that a function maps onto another one, round by round, runs like it. -/
theorem doWhile_map (round : ∀ s, f (body s) = body' (f s)) (asks : ∀ s, again s = again' (f s))
    (fuel : Nat) (s : σ) :
    (doWhile body again fuel s).map f = doWhile body' again' fuel (f s) := by
  induction fuel generalizing s with
  | zero => rfl
  | succ fuel ih =>
    rw [doWhile, doWhile, ← round, ← asks, ← ih]
    split <;> rfl

theorem Ends.map (round : ∀ s, f (body s) = body' (f s)) (asks : ∀ s, again s = again' (f s))
    {s t : σ} (h : Ends body again s t) : Ends body' again' (f s) (f t) := by
  obtain ⟨fuel, hrun⟩ := h
  exact ⟨fuel, by rw [← doWhile_map round asks, hrun, Option.map_some]⟩

theorem terminates_map_iff (round : ∀ s, f (body s) = body' (f s))
    (asks : ∀ s, again s = again' (f s)) {s : σ} :
    Terminates body again s ↔ Terminates body' again' (f s) := by
  constructor
  · rintro ⟨t, h⟩
    exact ⟨f t, h.map round asks⟩
  · rintro ⟨u, fuel, hrun⟩
    rw [← doWhile_map round asks] at hrun
    obtain ⟨t, ht, -⟩ := Option.map_eq_some_iff.mp hrun
    exact ⟨t, fuel, ht⟩

end Map

/-- A loop whose every round keeps an invariant and asks for another round never ends. -/
theorem not_terminates (Inv : σ → Prop) (keep : ∀ s, Inv s → Inv (body s))
    (loops : ∀ s, Inv s → again (body s) = true) {s : σ} (h : Inv s) :
    ¬Terminates body again s := by
  rintro ⟨s', fuel, hrun⟩
  induction fuel generalizing s with
  | zero => simp [doWhile] at hrun
  | succ fuel ih => exact ih (keep s h) (by simpa [doWhile, loops s h] using hrun)

end TypedSockets.Lib
