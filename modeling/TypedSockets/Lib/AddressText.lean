import Mathlib.Data.List.Forall2
import TypedSockets.Lib.Digits

/-! The texts of Internet addresses: dotted quads, colon-separated groups with at most one gap, and
a parser that accepts exactly these. -/

namespace TypedSockets.Lib

/-! ### Grammar -/

/-- A decimal octet: up to three digits without leading zeros. -/
structure IsOctet (s : List UInt8) (octet : UInt8) : Prop where
  digits : IsNumeral 10 s
  short : s.length ≤ 3
  lead : s.head? = some 48 → s = [48]
  value_eq : value 10 s = octet.toNat

/-- A group: up to four hexadecimal digits. -/
structure IsGroup (s : List UInt8) (word : UInt16) : Prop where
  digits : IsNumeral 16 s
  short : s.length ≤ 4
  value_eq : value 16 s = word.toNat

/-- The pieces with a separator between them. -/
def joined (sep : UInt8) (pieces : List (List UInt8)) : List UInt8 := [sep].intercalate pieces

/-- `a.b.c.d` for four octets. -/
def IsQuad (s octets : List UInt8) : Prop :=
  ∃ pieces, pieces.length = 4 ∧ List.Forall₂ IsOctet pieces octets ∧ s = joined 46 pieces

/-- The word of two bytes, high byte first. -/
def word (hi lo : UInt8) : UInt16 := UInt16.ofNat (256 * hi.toNat + lo.toNat)

/-- Bytes in pairs. -/
def wordsOf : List UInt8 → List UInt16
  | hi :: lo :: bytes => word hi lo :: wordsOf bytes
  | _ => []

/-- Groups, the last two of which may be written as a dotted quad. -/
inductive IsTail : List (List UInt8) → List UInt16 → Prop where
  | nil : IsTail [] []
  | group {p : List UInt8} {w : UInt16} {ps : List (List UInt8)} {ws : List UInt16}
      (first : IsGroup p w) (rest : IsTail ps ws) : IsTail (p :: ps) (w :: ws)
  | quad {p octets : List UInt8} (last : IsQuad p octets) : IsTail [p] (wordsOf octets)

/-- The eight words that start with `us` and end with `vs`. -/
def gapped (us vs : List UInt16) : List UInt16 :=
  us ++ List.replicate (8 - (us.length + vs.length)) 0 ++ vs

/-- Eight groups, or fewer with one `::` for the zeros that are missing. -/
inductive IsIpv6 : List UInt8 → List UInt16 → Prop where
  | full {ps : List (List UInt8)} {ws : List UInt16} (groups : IsTail ps ws)
      (eight : ws.length = 8) : IsIpv6 (joined 58 ps) ws
  | gap {ls rs : List (List UInt8)} {us vs : List UInt16} (left : List.Forall₂ IsGroup ls us)
      (right : IsTail rs vs) (fewer : us.length + vs.length ≤ 7) :
      IsIpv6 (joined 58 ls ++ [58, 58] ++ joined 58 rs) (gapped us vs)

/-! ### Pieces -/

@[simp] theorem joined_nil (sep : UInt8) : joined sep [] = [] := rfl

theorem joined_cons (sep : UInt8) (p : List UInt8) {ps : List (List UInt8)} (h : ps ≠ []) :
    joined sep (p :: ps) = p ++ sep :: joined sep ps := by
  rw [joined, List.intercalate_cons_of_ne_nil h]
  simp [joined]

theorem joined_singleton (sep : UInt8) (p : List UInt8) : joined sep [p] = p :=
  List.intercalate_singleton

theorem mem_joined {sep c : UInt8} {ps : List (List UInt8)} (h : c ∈ joined sep ps) :
    c = sep ∨ ∃ p ∈ ps, c ∈ p := by
  induction ps with
  | nil => cases h
  | cons p ps ih =>
    by_cases hnil : ps = []
    · rw [hnil, joined_singleton] at h
      exact Or.inr ⟨p, List.mem_cons_self, h⟩
    · rw [joined_cons sep p hnil, List.mem_append, List.mem_cons] at h
      rcases h with hfirst | rfl | hrest
      · exact Or.inr ⟨p, List.mem_cons_self, hfirst⟩
      · exact Or.inl rfl
      · exact (ih hrest).imp_right fun ⟨q, hq, hc⟩ => ⟨q, List.mem_cons_of_mem _ hq, hc⟩

/-- Pieces of bounded length, with the separators counted. -/
theorem length_joined_le (sep : UInt8) {n : Nat} {ps : List (List UInt8)}
    (h : ∀ p ∈ ps, p.length ≤ n) : (joined sep ps).length ≤ (n + 1) * ps.length - 1 := by
  induction ps with
  | nil => simp
  | cons p ps ih =>
    obtain ⟨hfirst, hrest⟩ := List.forall_mem_cons.mp h
    by_cases hnil : ps = []
    · rw [hnil, joined_singleton]
      simpa using hfirst
    · have hpos := Nat.mul_pos (show 0 < n + 1 by omega) (List.length_pos_iff.mpr hnil)
      have htail := ih hrest
      rw [joined_cons sep p hnil, List.length_append, List.length_cons, List.length_cons,
        Nat.mul_succ]
      omega

theorem IsOctet.not_mem {s : List UInt8} {octet c : UInt8} (h : IsOctet s octet)
    (hc : digit? c = none) : c ∉ s := h.digits.not_mem hc

theorem IsGroup.not_mem {s : List UInt8} {w : UInt16} {c : UInt8} (h : IsGroup s w)
    (hc : digit? c = none) : c ∉ s := h.digits.not_mem hc

/-- What holds of the pieces of a related pair of lists. -/
theorem forall_left {α β : Type} {R : α → β → Prop} {P : α → Prop} (h : ∀ a b, R a b → P a)
    {as : List α} {bs : List β} (related : List.Forall₂ R as bs) : ∀ a ∈ as, P a := by
  induction related with
  | nil => simp
  | cons hfirst _ ih => exact List.forall_mem_cons.mpr ⟨h _ _ hfirst, ih⟩

section

variable {s octets : List UInt8}

theorem IsQuad.not_mem (h : IsQuad s octets) {c : UInt8} (hc : digit? c = none) (hdot : c ≠ 46) :
    c ∉ s := by
  obtain ⟨pieces, -, hoctets, rfl⟩ := h
  intro hmem
  obtain ⟨p, hp, hin⟩ := (mem_joined hmem).resolve_left hdot
  exact forall_left (P := (c ∉ ·)) (fun _ _ hoctet => hoctet.not_mem hc) hoctets p hp hin

theorem IsQuad.length_le (h : IsQuad s octets) : s.length ≤ 15 := by
  obtain ⟨pieces, hfour, hoctets, rfl⟩ := h
  have hbound := length_joined_le 46 (n := 3)
    (forall_left (fun _ _ hoctet => hoctet.short) hoctets)
  omega

theorem IsQuad.length_octets (h : IsQuad s octets) : octets.length = 4 := by
  obtain ⟨pieces, hfour, hoctets, -⟩ := h
  rw [← hoctets.length_eq, hfour]

theorem IsQuad.dot_mem (h : IsQuad s octets) : (46 : UInt8) ∈ s := by
  obtain ⟨pieces, hfour, -, rfl⟩ := h
  match pieces, hfour with
  | p :: q :: ps, _ =>
    rw [joined_cons 46 p (by simp)]
    simp

theorem IsQuad.ne_nil (h : IsQuad s octets) : s ≠ [] := List.ne_nil_of_mem h.dot_mem

end

/-- A piece between colons. -/
def IsPiece (p : List UInt8) : Prop := p ≠ [] ∧ (58 : UInt8) ∉ p

theorem IsGroup.isPiece {p : List UInt8} {w : UInt16} (h : IsGroup p w) : IsPiece p :=
  ⟨h.digits.1, h.not_mem rfl⟩

theorem IsQuad.isPiece {p octets : List UInt8} (h : IsQuad p octets) : IsPiece p :=
  ⟨h.ne_nil, h.not_mem rfl (by decide)⟩

section

variable {ps : List (List UInt8)} {ws : List UInt16}

theorem IsTail.isPiece (h : IsTail ps ws) : ∀ p ∈ ps, IsPiece p := by
  induction h with
  | nil => simp
  | group first _ ih => exact List.forall_mem_cons.mpr ⟨first.isPiece, ih⟩
  | quad last => simpa using last.isPiece

theorem IsTail.not_mem (h : IsTail ps ws) {c : UInt8} (hc : digit? c = none) (hdot : c ≠ 46) :
    ∀ p ∈ ps, c ∉ p := by
  induction h with
  | nil => simp
  | group first _ ih => exact List.forall_mem_cons.mpr ⟨first.not_mem hc, ih⟩
  | quad last => simpa using last.not_mem hc hdot

theorem wordsOf_length {octets : List UInt8} (h : octets.length = 4) :
    (wordsOf octets).length = 2 := by
  match octets, h with
  | [_, _, _, _], _ => rfl

theorem IsTail.length_le (h : IsTail ps ws) : (joined 58 ps).length ≤ 5 * ws.length + 5 := by
  induction h with
  | nil => simp
  | @group p w ps ws first rest ih =>
    have hshort := first.short
    by_cases hnil : ps = []
    · rw [hnil, joined_singleton]
      simp
      omega
    · rw [joined_cons 58 p hnil, List.length_append, List.length_cons, List.length_cons]
      omega
  | quad last =>
    rw [joined_singleton, wordsOf_length last.length_octets]
    exact last.length_le

/-- Only a quad makes two words of one piece. -/
theorem IsTail.words_le (h : IsTail ps ws) : ws.length ≤ ps.length + 1 := by
  induction h with
  | nil => simp
  | group _ _ ih => simpa using ih
  | quad last => simp [wordsOf_length last.length_octets]

end

section

variable {s : List UInt8} {ws : List UInt16}

theorem IsIpv6.length_le (h : IsIpv6 s ws) : s.length ≤ 45 := by
  cases h with
  | full groups eight =>
    have hbound := groups.length_le
    omega
  | @gap ls rs us vs left right fewer =>
    have hleft := length_joined_le 58 (forall_left (fun _ _ hgroup => hgroup.short) left)
    have hright := right.length_le
    have hlength := left.length_eq
    simp only [List.length_append, List.length_cons, List.length_nil]
    omega

theorem IsIpv6.length_words (h : IsIpv6 s ws) : ws.length = 8 := by
  cases h with
  | full _ eight => exact eight
  | gap _ _ fewer =>
    rw [gapped, List.length_append, List.length_append, List.length_replicate]
    omega

theorem IsIpv6.not_mem (h : IsIpv6 s ws) {c : UInt8} (hc : digit? c = none) (hdot : c ≠ 46)
    (hcolon : c ≠ 58) : c ∉ s := by
  cases h with
  | full groups _ =>
    intro hmem
    obtain ⟨p, hp, hin⟩ := (mem_joined hmem).resolve_left hcolon
    exact groups.not_mem hc hdot p hp hin
  | gap left right _ =>
    simp only [List.mem_append, List.mem_cons, List.not_mem_nil, or_false, or_self, not_or]
    refine ⟨⟨fun hmem => ?_, hcolon⟩, fun hmem => ?_⟩
    · obtain ⟨p, hp, hin⟩ := (mem_joined hmem).resolve_left hcolon
      exact forall_left (P := (c ∉ ·)) (fun _ _ hgroup => hgroup.not_mem hc) left p hp hin
    · obtain ⟨p, hp, hin⟩ := (mem_joined hmem).resolve_left hcolon
      exact right.not_mem hc hdot p hp hin

theorem IsIpv6.colon_mem (h : IsIpv6 s ws) : (58 : UInt8) ∈ s := by
  cases h with
  | @full ps _ groups eight =>
    have hmany := groups.words_le
    match ps with
    | [] | [_] =>
      simp at hmany
      omega
    | p :: q :: ps =>
      rw [joined_cons 58 p (by simp)]
      simp
  | gap _ _ _ => simp

/-- No text is an address of both families. -/
theorem IsQuad.not_isIpv6 {octets : List UInt8} (h : IsQuad s octets) : ¬IsIpv6 s ws :=
  fun h6 => h.not_mem rfl (by decide) h6.colon_mem

end

/-! ### Parser -/

def octet? (s : List UInt8) : Option UInt8 :=
  if IsNumeral 10 s ∧ s.length ≤ 3 ∧ (s.head? = some 48 → s = [48]) ∧ value 10 s < 256 then
    some (UInt8.ofNat (value 10 s))
  else none

def group? (s : List UInt8) : Option UInt16 :=
  if IsNumeral 16 s ∧ s.length ≤ 4 ∧ value 16 s < 65536 then some (UInt16.ofNat (value 16 s))
  else none

def quad? (s : List UInt8) : Option (List UInt8) :=
  if (s.splitOn 46).length = 4 then (s.splitOn 46).mapM octet? else none

def tail? : List (List UInt8) → Option (List UInt16)
  | [] => some []
  | p :: ps =>
    if ps = [] ∧ (46 : UInt8) ∈ p then (quad? p).map wordsOf
    else (group? p).bind fun w => (tail? ps).map fun ws => w :: ws

/-- What stands on the two sides of the first `::`. -/
def cutGap : List UInt8 → Option (List UInt8 × List UInt8)
  | [] => none
  | c :: s =>
    if c = 58 ∧ s.head? = some 58 then some ([], s.tail)
    else (cutGap s).map fun sides => (c :: sides.1, sides.2)

def pieces (s : List UInt8) : List (List UInt8) := if s = [] then [] else s.splitOn 58

def ipv6? (s : List UInt8) : Option (List UInt16) :=
  match cutGap s with
  | none => (tail? (pieces s)).filter fun ws => ws.length = 8
  | some (l, r) =>
    ((pieces l).mapM group?).bind fun us => (tail? (pieces r)).bind fun vs =>
      if us.length + vs.length ≤ 7 then some (gapped us vs) else none

theorem octet?_iff {s : List UInt8} {octet : UInt8} : octet? s = some octet ↔ IsOctet s octet := by
  rw [octet?]
  constructor
  · intro h
    split_ifs at h with hs
    cases h
    refine ⟨hs.1, hs.2.1, hs.2.2.1, ?_⟩
    rw [UInt8.toNat_ofNat', Nat.mod_eq_of_lt hs.2.2.2]
  · intro h
    rw [if_pos ⟨h.digits, h.short, h.lead, h.value_eq ▸ octet.toNat_lt⟩, h.value_eq,
      UInt8.ofNat_toNat]

theorem group?_iff {s : List UInt8} {w : UInt16} : group? s = some w ↔ IsGroup s w := by
  rw [group?]
  constructor
  · intro h
    split_ifs at h with hs
    cases h
    refine ⟨hs.1, hs.2.1, ?_⟩
    rw [UInt16.toNat_ofNat', Nat.mod_eq_of_lt hs.2.2]
  · intro h
    rw [if_pos ⟨h.digits, h.short, h.value_eq ▸ w.toNat_lt⟩, h.value_eq, UInt16.ofNat_toNat]

theorem mapM_eq_some_iff {α β : Type} {R : α → β → Prop} {f : α → Option β}
    (h : ∀ a b, f a = some b ↔ R a b) {as : List α} {bs : List β} :
    as.mapM f = some bs ↔ List.Forall₂ R as bs := by
  induction as generalizing bs with
  | nil => simp [eq_comm]
  | cons a as ih =>
    rw [List.mapM_cons, List.forall₂_cons_left_iff]
    simp only [Option.bind_eq_bind, Option.bind_eq_some_iff, Option.pure_def, Option.some_inj, h,
      ih]
    constructor
    · rintro ⟨b, hfirst, bs', hrest, rfl⟩
      exact ⟨b, bs', hfirst, hrest, rfl⟩
    · rintro ⟨b, bs', hfirst, hrest, rfl⟩
      exact ⟨b, hfirst, bs', hrest, rfl⟩

/-- The parser accepts exactly the dotted quads. -/
theorem quad?_iff {s octets : List UInt8} : quad? s = some octets ↔ IsQuad s octets := by
  rw [quad?]
  constructor
  · intro h
    split_ifs at h with hfour
    exact ⟨s.splitOn 46, hfour, (mapM_eq_some_iff fun _ _ => octet?_iff).mp h,
      (List.intercalate_splitOn 46).symm⟩
  · rintro ⟨ps, hfour, hoctets, rfl⟩
    have hdot : ∀ p ∈ ps, (46 : UInt8) ∉ p :=
      forall_left (fun _ _ hoctet => hoctet.not_mem rfl) hoctets
    have hsplit : (joined 46 ps).splitOn 46 = ps :=
      List.splitOn_intercalate 46 hdot (by rintro rfl; cases hfour)
    rw [hsplit, if_pos hfour]
    exact (mapM_eq_some_iff fun _ _ => octet?_iff).mpr hoctets

theorem tail?_iff {ps : List (List UInt8)} {ws : List UInt16} :
    tail? ps = some ws ↔ IsTail ps ws := by
  constructor
  · intro h
    induction ps generalizing ws with
    | nil =>
      cases h
      exact .nil
    | cons p ps ih =>
      rw [tail?] at h
      split_ifs at h with hquad
      · obtain ⟨octets, hoctets, rfl⟩ := Option.map_eq_some_iff.mp h
        rw [hquad.1]
        exact .quad (quad?_iff.mp hoctets)
      · obtain ⟨w, hw, hrest⟩ := Option.bind_eq_some_iff.mp h
        obtain ⟨ws, hws, rfl⟩ := Option.map_eq_some_iff.mp hrest
        exact .group (group?_iff.mp hw) (ih hws)
  · intro h
    induction h with
    | nil => rfl
    | group first _ ih =>
      have hdot := first.not_mem (c := 46) rfl
      rw [tail?, if_neg fun hquad => hdot hquad.2, group?_iff.mpr first, ih]
      rfl
    | quad last =>
      rw [tail?, if_pos ⟨rfl, last.dot_mem⟩, quad?_iff.mpr last]
      rfl

/-! ### The gap -/

theorem cutGap_eq {s l r : List UInt8} (h : cutGap s = some (l, r)) : s = l ++ [58, 58] ++ r := by
  induction s generalizing l with
  | nil => cases h
  | cons c s ih =>
    rw [cutGap] at h
    split_ifs at h with hgap
    · cases h
      obtain ⟨rfl, hhead⟩ := hgap
      rw [← List.cons_head?_tail hhead]
      rfl
    · obtain ⟨⟨l', r'⟩, hrest, hsides⟩ := Option.map_eq_some_iff.mp h
      cases hsides
      rw [ih hrest]
      rfl

/-- The sides of a gap with a text before it. -/
def before (p : List UInt8) (sides : List UInt8 × List UInt8) : List UInt8 × List UInt8 :=
  (p ++ sides.1, sides.2)

theorem cutGap_append {p : List UInt8} (hp : (58 : UInt8) ∉ p) (t : List UInt8) :
    cutGap (p ++ t) = (cutGap t).map (before p) := by
  induction p with
  | nil =>
    have hid : before [] = id := rfl
    rw [List.nil_append, hid, Option.map_id_fun, id]
  | cons c p ih =>
    rw [List.mem_cons, not_or] at hp
    rw [List.cons_append, cutGap, if_neg fun h => hp.1 h.1.symm, ih hp.2, Option.map_map]
    rfl

theorem cutGap_colon {s : List UInt8} (h : s.head? ≠ some 58) :
    cutGap (58 :: s) = (cutGap s).map (before [58]) := by
  rw [cutGap, if_neg fun hgap => h hgap.2]
  rfl

/-- Pieces that are joined start with a byte of the first one. -/
theorem joined_eq_cons {ps : List (List UInt8)} (hps : ∀ p ∈ ps, IsPiece p) (hne : ps ≠ []) :
    ∃ c s, joined 58 ps = c :: s ∧ c ≠ 58 := by
  obtain ⟨p, ps, rfl⟩ := List.exists_cons_of_ne_nil hne
  obtain ⟨hp, hcolon⟩ := hps p List.mem_cons_self
  obtain ⟨c, p, rfl⟩ := List.exists_cons_of_ne_nil hp
  have hc : c ≠ 58 := fun heq => hcolon (heq ▸ List.mem_cons_self)
  by_cases hnil : ps = []
  · exact ⟨c, p, by rw [hnil, joined_singleton], hc⟩
  · exact ⟨c, p ++ 58 :: joined 58 ps, joined_cons 58 (c :: p) hnil, hc⟩

theorem head?_joined {ps : List (List UInt8)} (hps : ∀ p ∈ ps, IsPiece p) (hne : ps ≠ [])
    (t : List UInt8) : (joined 58 ps ++ t).head? ≠ some 58 := by
  obtain ⟨c, s, hjoined, hc⟩ := joined_eq_cons hps hne
  rw [hjoined, List.cons_append, List.head?_cons]
  exact fun heq => hc (Option.some.inj heq)

/-- The first gap does not lie within pieces that are joined. -/
theorem cutGap_joined {ps : List (List UInt8)} (hps : ∀ p ∈ ps, IsPiece p) (t : List UInt8) :
    cutGap (joined 58 ps ++ t) = (cutGap t).map (before (joined 58 ps)) := by
  induction ps with
  | nil => exact cutGap_append (p := []) (by simp) t
  | cons p ps ih =>
    obtain ⟨hfirst, hrest⟩ := List.forall_mem_cons.mp hps
    by_cases hnil : ps = []
    · rw [hnil, joined_singleton]
      exact cutGap_append hfirst.2 t
    · rw [joined_cons 58 p hnil, List.append_assoc, cutGap_append hfirst.2, List.cons_append,
        cutGap_colon (head?_joined hrest hnil t), ih hrest, Option.map_map, Option.map_map]
      congr 1
      funext sides
      simp [before]

theorem joined_pieces (s : List UInt8) : joined 58 (pieces s) = s := by
  rw [pieces]
  split_ifs with h
  · exact h.symm
  · exact List.intercalate_splitOn 58

theorem pieces_joined {ps : List (List UInt8)} (hps : ∀ p ∈ ps, IsPiece p) :
    pieces (joined 58 ps) = ps := by
  by_cases hnil : ps = []
  · rw [hnil]
    rfl
  · obtain ⟨c, s, hjoined, -⟩ := joined_eq_cons hps hnil
    rw [pieces, if_neg (by rw [hjoined]; exact List.cons_ne_nil c s)]
    exact List.splitOn_intercalate 58 (fun p hp => (hps p hp).2) hnil

/-- The parser accepts exactly the texts of IPv6 addresses. -/
theorem ipv6?_iff {s : List UInt8} {ws : List UInt16} : ipv6? s = some ws ↔ IsIpv6 s ws := by
  constructor
  · intro h
    rw [ipv6?] at h
    split at h
    · obtain ⟨htail, height⟩ := Option.filter_eq_some_iff.mp h
      rw [← joined_pieces s]
      exact .full (tail?_iff.mp htail) (of_decide_eq_true height)
    · rename_i l r hcut
      obtain ⟨us, hus, hrest⟩ := Option.bind_eq_some_iff.mp h
      obtain ⟨vs, hvs, hgapped⟩ := Option.bind_eq_some_iff.mp hrest
      split_ifs at hgapped with hfewer
      cases hgapped
      rw [cutGap_eq hcut, ← joined_pieces l, ← joined_pieces r]
      exact .gap ((mapM_eq_some_iff fun _ _ => group?_iff).mp hus) (tail?_iff.mp hvs) hfewer
  · intro h
    cases h with
    | @full ps _ groups eight =>
      have hcut : cutGap (joined 58 ps) = none := by
        simpa [cutGap] using cutGap_joined groups.isPiece []
      rw [ipv6?, hcut]
      simp [pieces_joined groups.isPiece, tail?_iff.mpr groups, eight]
    | @gap ls rs us vs left right fewer =>
      have hls := forall_left (fun _ _ hgroup => hgroup.isPiece) left
      have hcut : cutGap (joined 58 ls ++ [58, 58] ++ joined 58 rs) =
          some (joined 58 ls, joined 58 rs) := by
        rw [List.append_assoc, cutGap_joined hls]
        simp [cutGap, before]
      rw [ipv6?, hcut]
      simp only [pieces_joined hls, pieces_joined right.isPiece, tail?_iff.mpr right,
        (mapM_eq_some_iff fun _ _ => group?_iff).mpr left, Option.bind_some, if_pos fewer]

end TypedSockets.Lib
