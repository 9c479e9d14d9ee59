import Mathlib.Data.List.Basic
import Mathlib.Data.UInt
import Mathlib.Tactic.IntervalCases

/-! Numerals: strings of ASCII digits in a base up to 16, their values, and the numeral without
leading zeros that is printed for a number. -/

namespace TypedSockets.Lib

/-- The value of a digit; the letters of either case count from ten. -/
def digit? (c : UInt8) : Option Nat :=
  if 48 ≤ c ∧ c ≤ 57 then some (c.toNat - 48)
  else if 97 ≤ c ∧ c ≤ 102 then some (c.toNat - 87)
  else if 65 ≤ c ∧ c ≤ 70 then some (c.toNat - 55)
  else none

def IsDigit (b : Nat) (c : UInt8) : Prop := ∃ d ∈ digit? c, d < b

instance (b : Nat) (c : UInt8) : Decidable (IsDigit b c) :=
  match h : digit? c with
  | none => isFalse fun ⟨d, hd, _⟩ => by rw [h] at hd; cases hd
  | some d => decidable_of_iff (d < b) (by simp [IsDigit, h])

/-- A string of digits that is not empty. -/
def IsNumeral (b : Nat) (s : List UInt8) : Prop := s ≠ [] ∧ ∀ c ∈ s, IsDigit b c

instance (b : Nat) (s : List UInt8) : Decidable (IsNumeral b s) :=
  inferInstanceAs (Decidable (_ ∧ _))

/-- The value of a numeral. -/
def value (b : Nat) (s : List UInt8) : Nat := s.foldl (fun n c => b * n + (digit? c).getD 0) 0

/-- The digit of a number below 16. -/
def digitByte (d : Nat) : UInt8 := UInt8.ofNat (Nat.digitChar d).toNat

/-- The numeral of a number. -/
def numeral (b n : Nat) : List UInt8 := (Nat.toDigits b n).map fun c => UInt8.ofNat c.toNat

theorem value_append (b : Nat) (s : List UInt8) (c : UInt8) :
    value b (s ++ [c]) = b * value b s + (digit? c).getD 0 := by
  simp [value]

theorem digit?_digitByte {d : Nat} (h : d < 16) : digit? (digitByte d) = some d := by
  interval_cases d <;> rfl

theorem isDigit_digitByte {b d : Nat} (hd : d < b) (hb : b ≤ 16) : IsDigit b (digitByte d) :=
  ⟨d, digit?_digitByte (by omega), hd⟩

theorem digitByte_eq_zero {d : Nat} (h : d < 16) : digitByte d = 48 ↔ d = 0 := by
  interval_cases d <;> decide

section

variable {b : Nat}

theorem numeral_of_lt {n : Nat} (h : n < b) : numeral b n = [digitByte n] := by
  rw [numeral, Nat.toDigits_of_lt_base h]
  rfl

theorem numeral_of_le {n : Nat} (hb : 1 < b) (h : b ≤ n) :
    numeral b n = numeral b (n / b) ++ [digitByte (n % b)] := by
  rw [numeral, Nat.toDigits_of_base_le hb h, List.map_append]
  rfl

theorem numeral_ne_nil (n : Nat) : numeral b n ≠ [] := by
  simp [numeral]

/-- A numeral is read back as its number. -/
theorem value_numeral (hb : 1 < b) (h16 : b ≤ 16) (n : Nat) : value b (numeral b n) = n := by
  induction n using Nat.strong_induction_on with
  | _ n ih =>
    by_cases h : n < b
    · rw [numeral_of_lt h]
      simp [value, digit?_digitByte (show n < 16 by omega)]
    · have hpos : 0 < n := by omega
      rw [numeral_of_le hb (by omega), value_append, ih _ (Nat.div_lt_self hpos hb),
        digit?_digitByte (Nat.lt_of_lt_of_le (Nat.mod_lt n (by omega)) h16), Option.getD_some]
      exact Nat.div_add_mod n b

theorem isNumeral_numeral (hb : 1 < b) (h16 : b ≤ 16) (n : Nat) : IsNumeral b (numeral b n) := by
  refine ⟨numeral_ne_nil n, ?_⟩
  induction n using Nat.strong_induction_on with
  | _ n ih =>
    by_cases h : n < b
    · rw [numeral_of_lt h]
      simpa using isDigit_digitByte h h16
    · have hpos : 0 < n := by omega
      rw [numeral_of_le hb (by omega)]
      intro c hc
      rcases List.mem_append.mp hc with hfirst | hlast
      · exact ih _ (Nat.div_lt_self hpos hb) c hfirst
      · rw [List.mem_singleton.mp hlast]
        exact isDigit_digitByte (Nat.mod_lt n (by omega)) h16

/-- Only the numeral of zero starts with a zero. -/
theorem head?_numeral (hb : 1 < b) (h16 : b ≤ 16) {n : Nat} (hn : 0 < n) :
    (numeral b n).head? ≠ some 48 := by
  induction n using Nat.strong_induction_on with
  | _ n ih =>
    by_cases h : n < b
    · rw [numeral_of_lt h, List.head?_cons]
      intro hzero
      have := (digitByte_eq_zero (by omega)).mp (Option.some.inj hzero)
      omega
    · rw [numeral_of_le hb (by omega), List.head?_append_of_ne_nil _ (numeral_ne_nil _)]
      exact ih _ (Nat.div_lt_self hn hb) (Nat.div_pos (by omega) (by omega))

theorem length_numeral_le (hb : 1 < b) {n k : Nat} (hk : 0 < k) (h : n < b ^ k) :
    (numeral b n).length ≤ k := by
  rw [numeral, List.length_map]
  exact (Nat.length_toDigits_le_iff hb hk).mpr h

end

/-- A byte that is no digit does not stand in a numeral. -/
theorem IsNumeral.not_mem {b : Nat} {s : List UInt8} (h : IsNumeral b s) {c : UInt8}
    (hc : digit? c = none) : c ∉ s := by
  intro hmem
  obtain ⟨d, hd, -⟩ := h.2 c hmem
  rw [hc] at hd
  cases hd

end TypedSockets.Lib
