import Mathlib.Data.Finset.Max
import TypedSockets.Lib.AddressText

/-! The canonical text of an Internet address: the longest run of zero words, and the first of
these, becomes the gap, and addresses that embed an IPv4 address end in a dotted quad. -/

namespace TypedSockets.Lib

def high (w : UInt16) : UInt8 := UInt8.ofNat (w.toNat / 256)

def low (w : UInt16) : UInt8 := UInt8.ofNat (w.toNat % 256)

def bytesOf (ws : List UInt16) : List UInt8 := ws.flatMap fun w => [high w, low w]

def quadText (octets : List UInt8) : List UInt8 :=
  joined 46 (octets.map fun octet => numeral 10 octet.toNat)

def groupText (w : UInt16) : List UInt8 := numeral 16 w.toNat

/-- The words from `base` on start with `len` zeros. -/
def ZeroRun (ws : List UInt16) (base len : Nat) : Prop :=
  (ws.drop base).take len = List.replicate len 0

/-- The first of the longest runs of zeros, which are not of a single word. -/
structure IsGap (ws : List UInt16) (base len : Nat) : Prop where
  run : ZeroRun ws base len
  two : 2 ≤ len
  longest : ∀ i n, ZeroRun ws i n → n ≤ len
  first : ∀ i, ZeroRun ws i len → base ≤ i

/-- The last two words are those of an embedded IPv4 address. -/
def Embeds (ws : List UInt16) (base len : Nat) : Prop :=
  base = 0 ∧ (len = 6 ∨ len = 5 ∧ ws[5]? = some 65535)

instance (ws : List UInt16) (base len : Nat) : Decidable (Embeds ws base len) :=
  inferInstanceAs (Decidable (_ ∧ _))

inductive IsCanonical (ws : List UInt16) : List UInt8 → Prop where
  | full (short : ∀ i n, ZeroRun ws i n → n < 2) : IsCanonical ws (joined 58 (ws.map groupText))
  | gap {base len : Nat} (best : IsGap ws base len) (plain : ¬Embeds ws base len) :
      IsCanonical ws (joined 58 ((ws.take base).map groupText) ++ [58, 58] ++
        joined 58 ((ws.drop (base + len)).map groupText))
  | embedded {base len : Nat} (best : IsGap ws base len) (embeds : Embeds ws base len) :
      IsCanonical ws ([58, 58] ++ joined 58
        (((ws.drop len).take (6 - len)).map groupText ++ [quadText (bytesOf (ws.drop 6))]))

/-! ### Canonical texts are texts -/

theorem word_high_low (w : UInt16) : word (high w) (low w) = w := by
  have hlt := w.toNat_lt
  apply UInt16.toNat_inj.mp
  simp only [word, high, low, UInt16.toNat_ofNat', UInt8.toNat_ofNat']
  omega

theorem wordsOf_bytesOf (ws : List UInt16) : wordsOf (bytesOf ws) = ws := by
  induction ws with
  | nil => rfl
  | cons w ws ih =>
    have hcons : bytesOf (w :: ws) = high w :: low w :: bytesOf ws := rfl
    rw [hcons, wordsOf, word_high_low, ih]

theorem length_bytesOf (ws : List UInt16) : (bytesOf ws).length = 2 * ws.length := by
  induction ws with
  | nil => rfl
  | cons w ws ih =>
    have hcons : bytesOf (w :: ws) = high w :: low w :: bytesOf ws := rfl
    rw [hcons, List.length_cons, List.length_cons, List.length_cons, ih]
    omega

theorem high_word (hi lo : UInt8) : high (word hi lo) = hi := by
  have hlow := lo.toNat_lt
  have hhigh := hi.toNat_lt
  apply UInt8.toNat_inj.mp
  simp only [word, high, UInt16.toNat_ofNat', UInt8.toNat_ofNat']
  omega

theorem low_word (hi lo : UInt8) : low (word hi lo) = lo := by
  have hlow := lo.toNat_lt
  apply UInt8.toNat_inj.mp
  simp only [word, low, UInt16.toNat_ofNat', UInt8.toNat_ofNat']
  omega

theorem bytesOf_wordsOf : ∀ {n : Nat} {bytes : List UInt8}, bytes.length = 2 * n →
    bytesOf (wordsOf bytes) = bytes
  | _, [], _ => rfl
  | 0, _ :: _, h => by simp at h
  | _ + 1, [_], h => by
    simp at h
    omega
  | n + 1, hi :: lo :: bytes, h => by
    have hcons : bytesOf (wordsOf (hi :: lo :: bytes)) =
        high (word hi lo) :: low (word hi lo) :: bytesOf (wordsOf bytes) := rfl
    have hrest : bytes.length = 2 * n := by
      simp only [List.length_cons] at h
      omega
    rw [hcons, high_word, low_word, bytesOf_wordsOf hrest]

theorem isOctet_numeral (octet : UInt8) : IsOctet (numeral 10 octet.toNat) octet where
  digits := isNumeral_numeral (by decide) (by decide) _
  short := length_numeral_le (by decide) (by decide)
    (Nat.lt_of_lt_of_le octet.toNat_lt (by decide))
  lead hzero := by
    by_cases h : octet.toNat = 0
    · rw [h]
      rfl
    · exact absurd hzero (head?_numeral (by decide) (by decide) (Nat.pos_of_ne_zero h))
  value_eq := value_numeral (by decide) (by decide) _

theorem isGroup_groupText (w : UInt16) : IsGroup (groupText w) w where
  digits := isNumeral_numeral (by decide) (by decide) _
  short := length_numeral_le (by decide) (by decide) w.toNat_lt
  value_eq := value_numeral (by decide) (by decide) _

theorem isQuad_quadText {octets : List UInt8} (h : octets.length = 4) :
    IsQuad (quadText octets) octets := by
  refine ⟨octets.map fun octet => numeral 10 octet.toNat, by rwa [List.length_map], ?_, rfl⟩
  exact List.forall₂_map_left_iff.mpr (List.forall₂_same.mpr fun octet _ => isOctet_numeral octet)

theorem forall₂_groupText (ws : List UInt16) : List.Forall₂ IsGroup (ws.map groupText) ws :=
  List.forall₂_map_left_iff.mpr (List.forall₂_same.mpr fun w _ => isGroup_groupText w)

/-- Groups before a tail. -/
theorem isTail_append (ws : List UInt16) {ps : List (List UInt8)} {vs : List UInt16}
    (h : IsTail ps vs) : IsTail (ws.map groupText ++ ps) (ws ++ vs) := by
  induction ws with
  | nil => exact h
  | cons w ws ih => exact .group (isGroup_groupText w) ih

theorem isTail_groupText (ws : List UInt16) : IsTail (ws.map groupText) ws := by
  simpa using isTail_append ws .nil

/-- The zeros of a run are the ones that the gap stands for. -/
theorem gapped_of_run {ws : List UInt16} (height : ws.length = 8) {base len : Nat}
    (run : ZeroRun ws base len) (hlen : 0 < len) :
    base + len ≤ 8 ∧ gapped (ws.take base) (ws.drop (base + len)) = ws := by
  have hlength := congrArg List.length run
  simp only [List.length_take, List.length_drop, List.length_replicate, height] at hlength
  have hfits : base + len ≤ 8 := by omega
  have hzeros : 8 - ((ws.take base).length + (ws.drop (base + len)).length) = len := by
    rw [List.length_take, List.length_drop, height]
    omega
  refine ⟨hfits, ?_⟩
  rw [gapped, hzeros, ← run, List.append_assoc, ← List.drop_drop, List.take_append_drop,
    List.take_append_drop]

theorem IsCanonical.isIpv6 {ws : List UInt16} {s : List UInt8} (h : IsCanonical ws s)
    (height : ws.length = 8) : IsIpv6 s ws := by
  cases h with
  | full _ => exact .full (isTail_groupText ws) height
  | @gap base len best _ =>
    have htwo := best.two
    obtain ⟨hfits, hgapped⟩ := gapped_of_run height best.run (by omega)
    have htext := IsIpv6.gap (forall₂_groupText (ws.take base))
      (isTail_groupText (ws.drop (base + len)))
      (by rw [List.length_take, List.length_drop, height]; omega)
    rwa [hgapped] at htext
  | @embedded base len best embeds =>
    have htwo := best.two
    obtain ⟨rfl, hlen⟩ := embeds
    obtain ⟨hfits, hgapped⟩ := gapped_of_run height best.run (by omega)
    have hsplit : ((ws.drop len).take (6 - len)) ++ ws.drop 6 = ws.drop len := by
      have hsix : ws.drop 6 = (ws.drop len).drop (6 - len) := by
        rw [List.drop_drop, show len + (6 - len) = 6 by omega]
      rw [hsix, List.take_append_drop]
    have hquad : IsQuad (quadText (bytesOf (ws.drop 6))) (bytesOf (ws.drop 6)) :=
      isQuad_quadText (by rw [length_bytesOf, List.length_drop, height])
    have htail := isTail_append ((ws.drop len).take (6 - len)) (.quad hquad)
    rw [wordsOf_bytesOf, hsplit] at htail
    have htext := IsIpv6.gap .nil htail (by rw [List.length_drop, height, List.length_nil]; omega)
    rw [Nat.zero_add, List.take_zero] at hgapped
    rwa [hgapped] at htext

/-! ### Printing -/

/-- The number of zeros from `base` on. -/
def zeroRun (ws : List UInt16) (base : Nat) : Nat := ((ws.drop base).takeWhile (· = 0)).length

/-- Where the gap starts. -/
def bestRun (ws : List UInt16) : Option Nat :=
  (List.range ws.length).find? fun i =>
    2 ≤ zeroRun ws i ∧ ∀ j ∈ List.range ws.length, zeroRun ws j ≤ zeroRun ws i

def ipv6Text (ws : List UInt16) : List UInt8 :=
  match bestRun ws with
  | none => joined 58 (ws.map groupText)
  | some base =>
    let len := zeroRun ws base
    if Embeds ws base len then
      [58, 58] ++ joined 58
        (((ws.drop len).take (6 - len)).map groupText ++ [quadText (bytesOf (ws.drop 6))])
    else
      joined 58 ((ws.take base).map groupText) ++ [58, 58] ++
        joined 58 ((ws.drop (base + len)).map groupText)

theorem take_eq_replicate_iff (ws : List UInt16) (n : Nat) :
    ws.take n = List.replicate n 0 ↔ n ≤ (ws.takeWhile (· = 0)).length := by
  induction ws generalizing n with
  | nil => cases n <;> simp [List.replicate_succ]
  | cons w ws ih =>
    cases n with
    | zero => simp
    | succ n =>
      rw [List.take_succ_cons, List.replicate_succ, List.cons.injEq, ih, List.takeWhile_cons]
      by_cases hw : w = 0
      · simp [hw]
      · simp [hw]

theorem zeroRun_iff {ws : List UInt16} {base len : Nat} :
    ZeroRun ws base len ↔ len ≤ zeroRun ws base := take_eq_replicate_iff _ _

theorem ZeroRun.lt {ws : List UInt16} {base len : Nat} (h : ZeroRun ws base len) (hlen : 0 < len) :
    base < ws.length := by
  have hlength := congrArg List.length h
  simp only [List.length_take, List.length_drop, List.length_replicate] at hlength
  omega

theorem bestRun_some {ws : List UInt16} {base : Nat} (h : bestRun ws = some base) :
    IsGap ws base (zeroRun ws base) := by
  obtain ⟨hbest, hbase, hfirst⟩ := List.find?_range_eq_some.mp h
  obtain ⟨htwo, hlongest⟩ := of_decide_eq_true hbest
  have hle : ∀ i n, ZeroRun ws i n → n ≤ zeroRun ws base := by
    intro i n hrun
    by_cases hn : 0 < n
    · exact Nat.le_trans (zeroRun_iff.mp hrun) (hlongest i (List.mem_range.mpr (hrun.lt hn)))
    · omega
  refine ⟨zeroRun_iff.mpr (Nat.le_refl _), htwo, hle, fun i hrun => ?_⟩
  by_contra hlt
  have hmost := zeroRun_iff.mp hrun
  have hnot := hfirst i (by omega)
  rw [Bool.not_eq_true', decide_eq_false_iff_not] at hnot
  exact hnot ⟨Nat.le_trans htwo hmost,
    fun j hj => Nat.le_trans (hlongest j hj) hmost⟩

theorem bestRun_none {ws : List UInt16} (h : bestRun ws = none) {i n : Nat} (run : ZeroRun ws i n) :
    n < 2 := by
  by_contra htwo
  have hi := run.lt (by omega)
  obtain ⟨best, hbest, hlongest⟩ :=
    (Finset.range ws.length).exists_max_image (zeroRun ws) ⟨i, Finset.mem_range.mpr hi⟩
  have hmost := hlongest i (Finset.mem_range.mpr hi)
  have hrun := zeroRun_iff.mp run
  have hnot := List.find?_eq_none.mp h best (List.mem_range.mpr (Finset.mem_range.mp hbest))
  rw [decide_eq_true_eq] at hnot
  exact hnot ⟨by omega, fun j hj => hlongest j (Finset.mem_range.mpr (List.mem_range.mp hj))⟩

theorem isCanonical_ipv6Text (ws : List UInt16) : IsCanonical ws (ipv6Text ws) := by
  rw [ipv6Text]
  split
  · rename_i hnone
    exact .full fun i n => bestRun_none hnone
  · rename_i base hbest
    have hgap := bestRun_some hbest
    dsimp only
    split_ifs with hembeds
    · exact .embedded hgap hembeds
    · exact .gap hgap hembeds

end TypedSockets.Lib
