import Mathlib.Data.Set.Insert

/-! Resources and the owners that hold them.  An owner holds at most one resource; a resource is
leaked when it is open and no owner holds it. -/

namespace TypedSockets.Lib

/-- The open resources, and the resource that each owner holds. -/
@[ext] structure Owners (ι ρ : Type*) where
  opened : Set ρ
  holds : ι → Option ρ

namespace Owners

variable {ι ρ : Type*}

/-- Only open resources are held, and none is held twice. -/
structure Exclusive (t : Owners ι ρ) : Prop where
  sound : ∀ i r, t.holds i = some r → r ∈ t.opened
  unique : ∀ i j r, t.holds i = some r → t.holds j = some r → i = j

/-- Every open resource is held. -/
def Covered (t : Owners ι ρ) : Prop := ∀ r ∈ t.opened, ∃ i, t.holds i = some r

variable [DecidableEq ι]

/-- Owner `i` opens `r`. -/
def acquire (t : Owners ι ρ) (i : ι) (r : ρ) : Owners ι ρ :=
  ⟨insert r t.opened, Function.update t.holds i (some r)⟩

/-- Owner `j` takes over what `i` holds, in the place of what it held. -/
def move (t : Owners ι ρ) (i j : ι) : Owners ι ρ :=
  ⟨t.opened, Function.update (Function.update t.holds j (t.holds i)) i none⟩

/-- Owner `i` closes what it holds. -/
def release (t : Owners ι ρ) (i : ι) : Owners ι ρ :=
  ⟨{r | r ∈ t.opened ∧ t.holds i ≠ some r}, Function.update t.holds i none⟩

/-- The changes that leak nothing: nothing is moved onto an owner that holds a resource. -/
inductive Handover : Owners ι ρ → Owners ι ρ → Prop
  | refl (t) : Handover t t
  | acquire {t i r} : r ∉ t.opened → t.holds i = none → Handover t (t.acquire i r)
  | move {t i j} : i ≠ j → t.holds j = none → Handover t (t.move i j)
  | release {t i} : Handover t (t.release i)
  | trans {t u v} : Handover t u → Handover u v → Handover t v

theorem Exclusive.acquire {t : Owners ι ρ} (h : t.Exclusive) {i : ι} {r : ρ}
    (fresh : r ∉ t.opened) : (t.acquire i r).Exclusive := by
  have held : ∀ j, t.holds j ≠ some r := fun j hj => fresh (h.sound j r hj)
  constructor
  · intro j s hj
    by_cases hji : j = i
    · subst hji
      simp [Owners.acquire] at hj
      simp [Owners.acquire, hj]
    · simp [Owners.acquire, hji] at hj
      exact Or.inr (h.sound j s hj)
  · intro j k s hj hk
    by_cases hji : j = i <;> by_cases hki : k = i <;>
      simp [Owners.acquire, hji, hki] at hj hk
    · rw [hji, hki]
    · exact absurd (hj ▸ hk) (held k)
    · exact absurd (hk ▸ hj) (held j)
    · exact h.unique j k s hj hk

/-- A move keeps the resources apart, also when it leaks one. -/
theorem Exclusive.move {t : Owners ι ρ} (h : t.Exclusive) {i j : ι} (hij : i ≠ j) :
    (t.move i j).Exclusive := by
  -- after the move, an owner holds what it held before, and `j` what `i` held
  have before : ∀ k r, (t.move i j).holds k = some r →
      k ≠ i ∧ (k = j ∧ t.holds i = some r ∨ k ≠ j ∧ t.holds k = some r) := by
    intro k r hk
    by_cases hki : k = i
    · simp [Owners.move, hki] at hk
    · by_cases hkj : k = j
      · subst hkj
        simp [Owners.move, hki] at hk
        exact ⟨hki, Or.inl ⟨rfl, hk⟩⟩
      · simp [Owners.move, hki, hkj] at hk
        exact ⟨hki, Or.inr ⟨hkj, hk⟩⟩
  constructor
  · intro k r hk
    rcases before k r hk with ⟨-, ⟨-, hr⟩ | ⟨-, hr⟩⟩
    · exact h.sound i r hr
    · exact h.sound k r hr
  · intro k l r hk hl
    obtain ⟨hki, hk⟩ := before k r hk
    obtain ⟨hli, hl⟩ := before l r hl
    rcases hk with ⟨hkj, hk⟩ | ⟨hkj, hk⟩ <;> rcases hl with ⟨hlj, hl⟩ | ⟨hlj, hl⟩
    · rw [hkj, hlj]
    · exact absurd (h.unique l i r hl hk) hli
    · exact absurd (h.unique k i r hk hl) hki
    · exact h.unique k l r hk hl

theorem Exclusive.release {t : Owners ι ρ} (h : t.Exclusive) (i : ι) :
    (t.release i).Exclusive := by
  have before : ∀ k r, (t.release i).holds k = some r → k ≠ i ∧ t.holds k = some r := by
    intro k r hk
    by_cases hki : k = i
    · simp [Owners.release, hki] at hk
    · simp [Owners.release, hki] at hk
      exact ⟨hki, hk⟩
  constructor
  · intro k r hk
    obtain ⟨hki, hk⟩ := before k r hk
    exact ⟨h.sound k r hk, fun hi => hki (h.unique k i r hk hi)⟩
  · intro k l r hk hl
    exact h.unique k l r (before k r hk).2 (before l r hl).2

theorem Handover.exclusive {t u : Owners ι ρ} (h : Handover t u) (ht : t.Exclusive) :
    u.Exclusive := by
  induction h with
  | refl => exact ht
  | acquire fresh _ => exact ht.acquire fresh
  | move hij _ => exact ht.move hij
  | release => exact ht.release _
  | trans _ _ ih1 ih2 => exact ih2 (ih1 ht)

theorem Handover.covered {t u : Owners ι ρ} (h : Handover t u) (ht : t.Covered) : u.Covered := by
  induction h with
  | refl => exact ht
  | @acquire t i r fresh free =>
    rintro s (rfl | hs)
    · exact ⟨i, by simp [Owners.acquire]⟩
    · obtain ⟨j, hj⟩ := ht s hs
      have hji : j ≠ i := fun hji => by simp [hji, free] at hj
      exact ⟨j, by simp [Owners.acquire, hji, hj]⟩
  | @move t i j hij free =>
    intro r hr
    obtain ⟨k, hk⟩ := ht r hr
    by_cases hki : k = i
    · subst hki
      exact ⟨j, by simp [Owners.move, hij.symm, hk]⟩
    · have hkj : k ≠ j := fun hkj => by simp [hkj, free] at hk
      exact ⟨k, by simp [Owners.move, hki, hkj, hk]⟩
  | @release t i =>
    rintro r ⟨hr, hri⟩
    obtain ⟨k, hk⟩ := ht r hr
    have hki : k ≠ i := fun hki => hri (hki ▸ hk)
    exact ⟨k, by simp [Owners.release, hki, hk]⟩
  | trans _ _ ih1 ih2 => exact ih2 (ih1 ht)

/-- A move onto an owner that holds a resource leaks it. -/
theorem Exclusive.not_covered_move {t : Owners ι ρ} (h : t.Exclusive) {i j : ι} (hij : i ≠ j)
    {r : ρ} (hj : t.holds j = some r) : ¬(t.move i j).Covered := by
  intro hc
  obtain ⟨k, hk⟩ := hc r (h.sound j r hj)
  by_cases hki : k = i
  · simp [Owners.move, hki] at hk
  · by_cases hkj : k = j
    · subst hkj
      simp [Owners.move, hki] at hk
      exact hij (h.unique i k r hk hj)
    · simp [Owners.move, hki, hkj] at hk
      exact hkj (h.unique k j r hk hj)

omit [DecidableEq ι] in
/-- Once no owner holds anything, nothing is open. -/
theorem Covered.closed {t : Owners ι ρ} (h : t.Covered) (free : ∀ i, t.holds i = none) (r : ρ) :
    r ∉ t.opened := by
  intro hr
  obtain ⟨i, hi⟩ := h r hr
  simp [free i] at hi

end Owners

end TypedSockets.Lib
