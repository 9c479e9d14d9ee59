import Mathlib.Data.List.Infix

/-! Runs of a deterministic system.  A label carries everything that the environment decides, so a
step is a partial function of the state and the label; a label without an outcome ends the run. -/

namespace TypedSockets.Lib

variable {σ α : Type*} (step : σ → α → Option σ)

/-- The state after the labels `as`, when each of them has an outcome. -/
def exec : σ → List α → Option σ
  | s, [] => some s
  | s, a :: as => (step s a).bind fun s' => exec s' as

/-- `P` holds of every step that the labels `as` make from `s`, with the state before the step. -/
def Along (P : σ → α → Prop) : σ → List α → Prop
  | _, [] => True
  | s, a :: as => P s a ∧ ∀ s', step s a = some s' → Along P s' as

/-- `P` holds in every state that the labels `as` reach from `s`, `s` included. -/
def Always (P : σ → Prop) (s : σ) (as : List α) : Prop :=
  ∀ pre, pre <+: as → ∀ s', exec step s pre = some s' → P s'

variable {step}

@[simp] theorem exec_nil (s : σ) : exec step s [] = some s := rfl

@[simp] theorem exec_cons (s : σ) (a : α) (as : List α) :
    exec step s (a :: as) = (step s a).bind fun s' => exec step s' as := rfl

/-- A run and one more step. -/
theorem exec_concat (s : σ) (as : List α) (a : α) :
    exec step s (as ++ [a]) = (exec step s as).bind fun s' => step s' a := by
  induction as generalizing s with
  | nil => simp
  | cons b as ih =>
    rw [List.cons_append, exec_cons, exec_cons, Option.bind_assoc]
    exact congrArg _ (funext ih)

/-- Steps that always have an outcome are a fold. -/
theorem exec_some (f : σ → α → σ) (s : σ) (as : List α) :
    exec (fun s a => some (f s a)) s as = some (as.foldl f s) := by
  induction as generalizing s with
  | nil => rfl
  | cons a as ih => exact ih (f s a)

@[simp] theorem along_nil {P : σ → α → Prop} (s : σ) : Along step P s [] ↔ True := Iff.rfl

@[simp] theorem along_cons {P : σ → α → Prop} (s : σ) (a : α) (as : List α) :
    Along step P s (a :: as) ↔ P s a ∧ ∀ s', step s a = some s' → Along step P s' as := Iff.rfl

/-- A run of finitely many labels can be followed. -/
instance decidableAlong (P : σ → α → Prop) [∀ s a, Decidable (P s a)] :
    ∀ (s : σ) (as : List α), Decidable (Along step P s as)
  | _, [] => isTrue trivial
  | s, a :: as =>
    have (s' : σ) : Decidable (Along step P s' as) := decidableAlong P s' as
    inferInstanceAs (Decidable (P s a ∧ ∀ s' ∈ step s a, Along step P s' as))

theorem always_nil {P : σ → Prop} {s : σ} : Always step P s [] ↔ P s := by
  constructor
  · intro h
    exact h [] (List.prefix_refl []) s rfl
  · intro h pre hpre s' hrun
    obtain rfl := List.prefix_nil.mp hpre
    cases hrun
    exact h

theorem always_cons {P : σ → Prop} {s : σ} {a : α} {as : List α} :
    Always step P s (a :: as) ↔ P s ∧ ∀ s', step s a = some s' → Always step P s' as := by
  constructor
  · intro h
    refine ⟨h [] List.nil_prefix s rfl, fun s' hs pre hpre t hrun => ?_⟩
    exact h (a :: pre) (List.prefix_cons_inj a |>.mpr hpre) t (by simp [hs, hrun])
  · rintro ⟨hs, hrest⟩ pre hpre t hrun
    cases pre with
    | nil => cases hrun; exact hs
    | cons b pre =>
      obtain ⟨rfl, htail⟩ := List.cons_prefix_cons.mp hpre
      obtain ⟨s', hstep, hrun⟩ := Option.bind_eq_some_iff.mp hrun
      exact hrest s' hstep pre htail t hrun

/-- A step property and the condition under which each step has it agree along every run, when the
condition keeps an invariant under which the two agree step by step. -/
theorem along_iff {Inv : σ → Prop} {Good Cond : σ → α → Prop}
    (good : ∀ s a, Inv s → (Good s a ↔ Cond s a))
    (keep : ∀ s a s', Inv s → Cond s a → step s a = some s' → Inv s')
    {s : σ} (h : Inv s) (as : List α) : Along step Good s as ↔ Along step Cond s as := by
  induction as generalizing s with
  | nil => exact Iff.rfl
  | cons a as ih =>
    rw [along_cons, along_cons]
    constructor
    · rintro ⟨hg, hrest⟩
      have hc := (good s a h).mp hg
      exact ⟨hc, fun s' hs => (ih (keep s a s' h hc hs)).mp (hrest s' hs)⟩
    · rintro ⟨hc, hrest⟩
      exact ⟨(good s a h).mpr hc, fun s' hs => (ih (keep s a s' h hc hs)).mpr (hrest s' hs)⟩

theorem along_and {P Q : σ → α → Prop} {s : σ} {as : List α} :
    Along step (fun s a => P s a ∧ Q s a) s as ↔ Along step P s as ∧ Along step Q s as := by
  induction as generalizing s with
  | nil => simp
  | cons a as ih =>
    simp only [along_cons, ih]
    constructor
    · rintro ⟨⟨hp, hq⟩, hrest⟩
      exact ⟨⟨hp, fun s' hs => (hrest s' hs).1⟩, hq, fun s' hs => (hrest s' hs).2⟩
    · rintro ⟨⟨hp, hrestp⟩, hq, hrestq⟩
      exact ⟨⟨hp, hq⟩, fun s' hs => ⟨hrestp s' hs, hrestq s' hs⟩⟩

theorem Along.mono {P Q : σ → α → Prop} (h : ∀ s a, P s a → Q s a) {s : σ} {as : List α}
    (hp : Along step P s as) : Along step Q s as := by
  induction as generalizing s with
  | nil => trivial
  | cons a as ih => exact ⟨h s a hp.1, fun s' hs => ih (hp.2 s' hs)⟩

/-- What holds of every label holds along every run. -/
theorem along_of_mem {P : α → Prop} {as : List α} (h : ∀ a ∈ as, P a) (s : σ) :
    Along step (fun _ a => P a) s as := by
  induction as generalizing s with
  | nil => trivial
  | cons a as ih =>
    exact ⟨h a List.mem_cons_self, fun s' _ => ih (fun b hb => h b (List.mem_cons_of_mem a hb)) s'⟩

theorem along_congr {P Q : σ → α → Prop} (h : ∀ s a, P s a ↔ Q s a) (s : σ) (as : List α) :
    Along step P s as ↔ Along step Q s as :=
  ⟨Along.mono fun s a => (h s a).mp, Along.mono fun s a => (h s a).mpr⟩

/-- What holds of every step holds of the last step of every run that the labels make. -/
theorem along_iff_prefix {P : σ → α → Prop} {s : σ} {as : List α} :
    Along step P s as ↔
      ∀ pre a s', pre ++ [a] <+: as → exec step s pre = some s' → P s' a := by
  induction as generalizing s with
  | nil => simp
  | cons a as ih =>
    rw [along_cons]
    constructor
    · rintro ⟨hfirst, hrest⟩ pre b t hpre hrun
      cases pre with
      | nil =>
        cases hrun
        obtain ⟨rfl, -⟩ := List.cons_prefix_cons.mp hpre
        exact hfirst
      | cons c pre =>
        obtain ⟨rfl, htail⟩ := List.cons_prefix_cons.mp hpre
        obtain ⟨s', hstep, hrun⟩ := Option.bind_eq_some_iff.mp hrun
        exact ih.mp (hrest s' hstep) pre b t htail hrun
    · intro h
      refine ⟨h [] a s (List.prefix_append [a] as) rfl, fun s' hstep => ih.mpr ?_⟩
      intro pre b t hpre hrun
      exact h (a :: pre) b t (List.cons_prefix_cons.mpr ⟨rfl, hpre⟩) (by simp [hstep, hrun])

/-- An invariant that every step under the condition keeps holds in every state reached. -/
theorem Always.of_along {Inv : σ → Prop} {Cond : σ → α → Prop}
    (keep : ∀ s a s', Inv s → Cond s a → step s a = some s' → Inv s')
    {s : σ} (h : Inv s) {as : List α} (hc : Along step Cond s as) : Always step Inv s as := by
  induction as generalizing s with
  | nil => exact always_nil.mpr h
  | cons a as ih =>
    exact always_cons.mpr ⟨h, fun s' hs => ih (keep s a s' h hc.1 hs) (hc.2 s' hs)⟩

/-- An invariant that every step keeps holds in every state reached, and so does of every step what
follows from it. -/
theorem Always.of_inv {Inv : σ → Prop} (keep : ∀ s a s', Inv s → step s a = some s' → Inv s')
    {s : σ} (h : Inv s) (as : List α) : Always step Inv s as := by
  induction as generalizing s with
  | nil => exact always_nil.mpr h
  | cons a as ih => exact always_cons.mpr ⟨h, fun s' hs => ih (keep s a s' h hs)⟩

theorem Along.of_inv {Inv : σ → Prop} {P : σ → α → Prop}
    (keep : ∀ s a s', Inv s → step s a = some s' → Inv s') (good : ∀ s a, Inv s → P s a)
    {s : σ} (h : Inv s) (as : List α) : Along step P s as := by
  induction as generalizing s with
  | nil => trivial
  | cons a as ih => exact ⟨good s a h, fun s' hs => ih (keep s a s' h hs)⟩

/-- The same where only the steps under the condition keep the invariant. -/
theorem Along.of_along {Inv : σ → Prop} {Cond P : σ → α → Prop}
    (keep : ∀ s a s', Inv s → Cond s a → step s a = some s' → Inv s')
    (good : ∀ s a, Inv s → Cond s a → P s a) {s : σ} (h : Inv s) {as : List α}
    (hc : Along step Cond s as) : Along step P s as := by
  induction as generalizing s with
  | nil => trivial
  | cons a as ih =>
    exact ⟨good s a h hc.1, fun s' hs => ih (keep s a s' h hc.1 hs) (hc.2 s' hs)⟩

/-- `P` holds in every state reached exactly when it holds at the start and after every step. -/
theorem always_iff_along {P : σ → Prop} {s : σ} {as : List α} :
    Always step P s as ↔
      P s ∧ Along step (fun s a => ∀ s', step s a = some s' → P s') s as := by
  induction as generalizing s with
  | nil => simp [always_nil]
  | cons a as ih =>
    rw [always_cons, along_cons]
    constructor
    · rintro ⟨hs, hrest⟩
      exact ⟨hs, fun s' h => (ih.mp (hrest s' h)).1, fun s' h => (ih.mp (hrest s' h)).2⟩
    · rintro ⟨hs, hnext, hrest⟩
      exact ⟨hs, fun s' h => ih.mpr ⟨hnext s' h, hrest s' h⟩⟩

/-- A state property holds in every state reached exactly when every step meets its condition. -/
theorem always_iff {P Inv : σ → Prop} {Cond : σ → α → Prop}
    (start : ∀ s, Inv s → P s)
    (good : ∀ s a, Inv s → ((∀ s', step s a = some s' → P s') ↔ Cond s a))
    (keep : ∀ s a s', Inv s → Cond s a → step s a = some s' → Inv s')
    {s : σ} (h : Inv s) (as : List α) : Always step P s as ↔ Along step Cond s as := by
  rw [always_iff_along, along_iff good keep h as]
  exact and_iff_right (start s h)

theorem Always.mono {P Q : σ → Prop} (h : ∀ s, P s → Q s) {s : σ} {as : List α}
    (hp : Always step P s as) : Always step Q s as :=
  fun pre hpre s' hrun => h s' (hp pre hpre s' hrun)

/-- The last state of a run satisfies what every state of the run satisfies. -/
theorem Always.last {P : σ → Prop} {s s' : σ} {as : List α} (h : Always step P s as)
    (hrun : exec step s as = some s') : P s' :=
  h as (List.prefix_refl as) s' hrun

end TypedSockets.Lib
