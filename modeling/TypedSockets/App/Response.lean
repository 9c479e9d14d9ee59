import TypedSockets.App.Service
import TypedSockets.Lib.Digits

/-! What a response says: when there is one, what is printed for the sum, and that `parse_ints`
reads the numbers of the request and their sum back from it. -/

namespace TypedSockets.App

open TypedSockets.Lib

/-- The values of the tokens that are numbers. -/
def numbers (request : List UInt8) : List Nat :=
  ((tokens request).filter isNumber).map digitsValue

/-- What follows the first newline. -/
def afterNewline (response : List UInt8) : List UInt8 := (response.dropWhile (· ≠ 10)).drop 1

/-! ### Digits -/

theorem digit?_of_isDigit {c : UInt8} (h : isDigit c = true) : digit? c = some (c.toNat - 48) := by
  rw [isDigit, Bool.and_eq_true, decide_eq_true_eq, decide_eq_true_eq] at h
  rw [digit?, if_pos h]

theorem isDigit_of_numeral {c : UInt8} (h : IsDigit 10 c) : isDigit c = true := by
  obtain ⟨d, hd, hlt⟩ := h
  rw [isDigit, Bool.and_eq_true, decide_eq_true_eq, decide_eq_true_eq]
  simp only [digit?, UInt8.le_iff_toNat_le, UInt8.reduceToNat] at hd ⊢
  split_ifs at hd with hdec hlow hup
  · exact hdec
  · cases hd
    omega
  · cases hd
    omega
  · cases hd

theorem isSpace_of_isDigit {c : UInt8} (h : isDigit c = true) : isSpace c = false := by
  simp only [isDigit, isSpace, Bool.and_eq_true, decide_eq_true_eq, Bool.or_eq_false_iff,
    decide_eq_false_iff_not, Bool.and_eq_false_iff, UInt8.le_iff_toNat_le, UInt8.reduceToNat] at h ⊢
  refine ⟨fun hspace => ?_, Or.inr (by omega)⟩
  rw [hspace] at h
  exact absurd h.1 (by decide)

theorem digitsValue_eq {s : List UInt8} (h : ∀ c ∈ s, isDigit c = true) :
    digitsValue s = value 10 s := by
  rw [digitsValue, value]
  refine List.foldl_ext _ _ _ fun n c hc => ?_
  rw [digit?_of_isDigit (h c hc), Option.getD_some]

theorem decimal_eq (n : UInt32) : decimal n = numeral 10 n.toNat := rfl

theorem decimal_ne_nil (n : UInt32) : decimal n ≠ [] := numeral_ne_nil n.toNat

theorem isDigit_numeral {n : Nat} {c : UInt8} (hc : c ∈ numeral 10 n) : isDigit c = true :=
  isDigit_of_numeral ((isNumeral_numeral (by decide) (by decide) n).2 c hc)

theorem isNumber_numeral (n : Nat) : isNumber (numeral 10 n) = true := by
  rw [isNumber, Bool.and_eq_true, List.all_eq_true]
  exact ⟨by simp [numeral_ne_nil], fun c => isDigit_numeral⟩

theorem digitsValue_numeral (n : Nat) : digitsValue (numeral 10 n) = n := by
  rw [digitsValue_eq fun c => isDigit_numeral, value_numeral (by decide) (by decide)]

/-- A printed number that is an `int` is converted back. -/
theorem stoi_decimal {n : UInt32} (h : n.toNat ≤ intMax) : stoi (decimal n) = some n := by
  rw [stoi, decimal_eq, digitsValue_numeral, if_pos h]
  simp

/-- A conversion that fails on no element. -/
theorem mapM_some {α β : Type} {f : α → Option β} {g : α → β} {as : List α}
    (h : ∀ a ∈ as, f a = some (g a)) : as.mapM f = some (as.map g) := by
  induction as with
  | nil => rfl
  | cons a as ih =>
    obtain ⟨hfirst, hrest⟩ := List.forall_mem_cons.mp h
    rw [List.mapM_cons, hfirst, ih hrest]
    rfl

theorem mapM_stoi_decimal {ns : List UInt32} (h : ∀ n ∈ ns, n.toNat ≤ intMax) :
    (ns.map decimal).mapM stoi = some ns := by
  have hread : ∀ n ∈ ns, (stoi ∘ decimal) n = some (id n) := fun n hn => stoi_decimal (h n hn)
  rw [List.mapM_map, mapM_some hread, List.map_id]

/-! ### The numbers of a request -/

theorem mapM_stoi {ts : List (List UInt8)} (h : ∀ t ∈ ts, digitsValue t ≤ intMax) :
    ts.mapM stoi = some (ts.map fun t => UInt32.ofNat (digitsValue t)) :=
  mapM_some fun t ht => if_pos (h t ht)

/-- The integers that `parse_ints` returns when every number is an `int`. -/
theorem parseInts_eq {req : List UInt8} (hrange : InRange req) :
    Service.parseInts req = some ((numbers req).map UInt32.ofNat) := by
  have hall : ∀ t ∈ (tokens req).filter isNumber, digitsValue t ≤ intMax := fun t ht =>
    hrange t (List.mem_of_mem_filter ht) (List.mem_filter.mp ht).2
  rw [Service.parseInts, mapM_stoi hall, numbers, List.map_map]
  rfl

theorem numbers_le {req : List UInt8} (hrange : InRange req) {n : Nat} (hn : n ∈ numbers req) :
    n ≤ intMax := by
  obtain ⟨t, ht, rfl⟩ := List.mem_map.mp hn
  exact hrange t (List.mem_of_mem_filter ht) (List.mem_filter.mp ht).2

theorem toNat_ofNat {n : Nat} (h : n ≤ intMax) : (UInt32.ofNat n).toNat = n := by
  have hlt : n < 2 ^ 32 := Nat.lt_of_le_of_lt h (by decide)
  rw [UInt32.toNat_ofNat', Nat.mod_eq_of_lt hlt]

theorem map_toNat_ofNat {ns : List Nat} (h : ∀ n ∈ ns, n ≤ intMax) :
    (ns.map UInt32.ofNat).map UInt32.toNat = ns := by
  induction ns with
  | nil => rfl
  | cons n ns ih =>
    obtain ⟨hfirst, hrest⟩ := List.forall_mem_cons.mp h
    rw [List.map_cons, List.map_cons, toNat_ofNat hfirst, ih hrest]

/-! ### The response -/

/-- The accumulator of the sum wraps at 32 bits. -/
theorem toNat_foldl_add (ns : List UInt32) (acc : UInt32) :
    (ns.foldl (· + ·) acc).toNat = (acc.toNat + (ns.map UInt32.toNat).sum) % 2 ^ 32 := by
  induction ns generalizing acc with
  | nil => simp [Nat.mod_eq_of_lt acc.toNat_lt]
  | cons n ns ih =>
    rw [List.foldl_cons, ih, UInt32.toNat_add, List.map_cons, List.sum_cons]
    omega

/-- The integers of a response, followed by a blank each. -/
def listing (ints : List UInt32) : List UInt8 := ints.flatMap fun n => decimal n ++ [32]

/-- The response to a request whose numbers are `int`s. -/
theorem createResponse_eq {req : List UInt8} (hrange : InRange req) (hsome : numbers req ≠ []) :
    ∃ sorted sum, sorted.Perm ((numbers req).map UInt32.ofNat) ∧
      sorted.Pairwise (· ≤ ·) ∧ sum.toNat = (numbers req).sum % 2 ^ 32 ∧
      Service.createResponse req = some (listing sorted ++ [10] ++ decimal sum) := by
  have hperm := List.perm_insertionSort (· ≤ ·) ((numbers req).map UInt32.ofNat)
  refine ⟨((numbers req).map UInt32.ofNat).insertionSort (· ≤ ·),
    (((numbers req).map UInt32.ofNat).insertionSort (· ≤ ·)).foldl (· + ·) 0,
    hperm, List.pairwise_insertionSort (· ≤ ·) _, ?_, ?_⟩
  · rw [toNat_foldl_add, (hperm.map UInt32.toNat).sum_nat,
      map_toNat_ofNat fun n hn => numbers_le hrange hn]
    simp
  · have hne : ((numbers req).map UInt32.ofNat).isEmpty = false := by simpa using hsome
    rw [Service.createResponse, parseInts_eq hrange, Option.map_some, hne]
    rfl

theorem not_mem_listing (ints : List UInt32) : (10 : UInt8) ∉ listing ints := by
  simp only [listing, List.mem_flatMap, List.mem_append, List.mem_singleton, not_exists, not_and,
    not_or]
  refine fun n _ => ⟨fun hdigit => ?_, by decide⟩
  exact absurd (isDigit_numeral hdigit) (by decide)

theorem afterNewline_response (ints : List UInt32) (sum : UInt32) :
    afterNewline (listing ints ++ [10] ++ decimal sum) = decimal sum := by
  have hall : ∀ c ∈ listing ints, (decide (c ≠ 10)) = true := fun c hc =>
    decide_eq_true fun heq => not_mem_listing ints (heq ▸ hc)
  rw [afterNewline, List.append_assoc, List.dropWhile_append_of_pos hall]
  rfl

/-! ### Tokens of a response -/

theorem tokens_space {c : UInt8} (hc : isSpace c = true) (s : List UInt8) :
    tokens (c :: s) = tokens s := by
  rw [tokens, List.splitOnP_cons_eq_if_modifyHead, if_pos hc]
  rfl

theorem tokens_append {p : List UInt8} (hne : p ≠ []) (hp : ∀ c ∈ p, isSpace c = false) {c : UInt8}
    (hc : isSpace c = true) (s : List UInt8) : tokens (p ++ c :: s) = p :: tokens s := by
  rw [tokens, List.splitOnP_append_cons_of_forall_mem hp c hc, List.filter_cons,
    if_pos (by simpa using hne)]
  rfl

theorem tokens_single {p : List UInt8} (hne : p ≠ []) (hp : ∀ c ∈ p, isSpace c = false) :
    tokens p = [p] := by
  rw [tokens, List.splitOnP_eq_singleton hp, List.filter_cons, if_pos (by simpa using hne)]
  rfl

theorem isSpace_decimal (n : UInt32) : ∀ c ∈ decimal n, isSpace c = false :=
  fun _ hc => isSpace_of_isDigit (isDigit_numeral hc)

theorem tokens_listing (ints : List UInt32) (s : List UInt8) :
    tokens (listing ints ++ s) = ints.map decimal ++ tokens s := by
  induction ints with
  | nil => rfl
  | cons n ints ih =>
    have hcons : listing (n :: ints) ++ s = decimal n ++ 32 :: (listing ints ++ s) := by
      simp [listing]
    rw [hcons, tokens_append (decimal_ne_nil n) (isSpace_decimal n) (by decide), ih]
    rfl

/-- `parse_ints` reads back what is printed, as long as it is all `int`s. -/
theorem parseInts_response {ints : List UInt32} {sum : UInt32}
    (h : ∀ n ∈ ints ++ [sum], n.toNat ≤ intMax) :
    Service.parseInts (listing ints ++ [10] ++ decimal sum) = some (ints ++ [sum]) := by
  have htokens : tokens (listing ints ++ [10] ++ decimal sum) = (ints ++ [sum]).map decimal := by
    rw [List.append_assoc, tokens_listing, List.singleton_append, tokens_space (by decide),
      tokens_single (decimal_ne_nil sum) (isSpace_decimal sum), List.map_append]
    rfl
  have hfilter : ((ints ++ [sum]).map decimal).filter isNumber = (ints ++ [sum]).map decimal := by
    refine List.filter_eq_self.mpr fun t ht => ?_
    obtain ⟨n, -, rfl⟩ := List.mem_map.mp ht
    exact isNumber_numeral n.toNat
  rw [Service.parseInts, htokens, hfilter]
  exact mapM_stoi_decimal h

/-! ### What the service answers -/

/-- The service answers exactly the requests whose numbers are all `int`s, and converts exactly the
numbers that are. -/
theorem response_returned (req : List UInt8) :
    ((Service.createResponse req).isSome ↔ InRange req) ∧
      ((Service.parseInts req).isSome ↔ InRange req) ∧
      ∀ token, isNumber token = true → ((stoi token).isSome ↔ digitsValue token ≤ intMax) := by
  have hresponse := createResponse_isSome req
  refine ⟨hresponse, ?_, fun token _ => ?_⟩
  · rwa [Service.createResponse, Option.isSome_map] at hresponse
  · rw [stoi]
    split_ifs with h <;> simp [h]

/-- The number after the largest `int`. -/
def tooLarge : List UInt8 := [50, 49, 52, 55, 52, 56, 51, 54, 52, 56]

theorem tooLarge_throws :
    isNumber tooLarge = true ∧ stoi tooLarge = none ∧ Service.createResponse tooLarge = none ∧
      ¬∀ req, (Service.createResponse req).isSome = true := by
  have hnone : Service.createResponse tooLarge = none := by decide
  exact ⟨by decide, by decide, hnone, fun h => by simpa [hnone] using h tooLarge⟩

/-- The sum is printed exactly as long as it does not wrap at 32 bits. -/
theorem sum_printed {req : List UInt8} (hrange : InRange req) (hsome : numbers req ≠ []) :
    (∃ resp, Service.createResponse req = some resp ∧
        afterNewline resp = numeral 10 (numbers req).sum) ↔
      (numbers req).sum < 2 ^ 32 := by
  obtain ⟨sorted, sum, -, -, hsum, hresp⟩ := createResponse_eq hrange hsome
  have hprints : decimal sum = numeral 10 ((numbers req).sum % 2 ^ 32) := by rw [decimal_eq, hsum]
  rw [hresp]
  simp only [Option.some_inj, exists_eq_left']
  rw [afterNewline_response, hprints]
  constructor
  · intro hprinted
    have hvalue := congrArg (value 10) hprinted
    rw [value_numeral (by decide) (by decide), value_numeral (by decide) (by decide)] at hvalue
    omega
  · intro hsmall
    rw [Nat.mod_eq_of_lt hsmall]

/-- `10 x 3`. -/
def smallRequest : List UInt8 := [49, 48, 32, 120, 32, 51]

theorem sum_printed_small :
    (∃ resp, Service.createResponse smallRequest = some resp ∧
        afterNewline resp = numeral 10 (numbers smallRequest).sum) ↔
      (numbers smallRequest).sum < 2 ^ 32 :=
  sum_printed (by decide) (by decide)

/-- `2147483647 2147483647 2`, whose sum is `2^32`. -/
def wrapping : List UInt8 :=
  [50, 49, 52, 55, 52, 56, 51, 54, 52, 55, 32, 50, 49, 52, 55, 52, 56, 51, 54, 52, 55, 32, 50]

/-- A sum of `2^32` is printed as zero. -/
theorem wrapping_printed :
    (Service.createResponse wrapping).map afterNewline = some [48] ∧
      ¬∀ req, InRange req → numbers req ≠ [] → ∃ resp, Service.createResponse req = some resp ∧
        afterNewline resp = numeral 10 (numbers req).sum := by
  have hzero : (Service.createResponse wrapping).map afterNewline = some [48] := by decide
  refine ⟨hzero, fun h => ?_⟩
  obtain ⟨resp, hresp, hprinted⟩ := h wrapping (by decide) (by decide)
  rw [hresp, Option.map_some, Option.some_inj, hprinted] at hzero
  exact absurd hzero (by decide)

/-- The numbers of a response are those of the request in order, and their sum. -/
theorem response_readBack {req : List UInt8} (hrange : InRange req) (hsome : numbers req ≠ [])
    (hsum : (numbers req).sum ≤ intMax) :
    ∃ ints sorted sum resp, Service.parseInts req = some ints ∧
      ints = (numbers req).map UInt32.ofNat ∧ sorted.Perm ints ∧ sorted.Pairwise (· ≤ ·) ∧
      sum.toNat = (ints.map UInt32.toNat).sum ∧ Service.createResponse req = some resp ∧
      Service.parseInts resp = some (sorted ++ [sum]) := by
  obtain ⟨sorted, sum, hperm, hsorted, hvalue, hresp⟩ := createResponse_eq hrange hsome
  have hexact : sum.toNat = (numbers req).sum := by
    rw [hvalue]
    exact Nat.mod_eq_of_lt (Nat.lt_of_le_of_lt hsum (by decide))
  refine ⟨(numbers req).map UInt32.ofNat, sorted, sum, _, parseInts_eq hrange, rfl, hperm, hsorted,
    ?_, hresp, parseInts_response fun n hn => ?_⟩
  · rw [map_toNat_ofNat fun n hn => numbers_le hrange hn, hexact]
  · rcases List.mem_append.mp hn with hint | hlast
    · obtain ⟨m, hm, rfl⟩ := List.mem_map.mp (hperm.mem_iff.mp hint)
      have hle := numbers_le hrange hm
      rwa [toNat_ofNat hle]
    · rw [List.mem_singleton.mp hlast, hexact]
      exact hsum

theorem response_readBack_small :
    ∃ ints sorted sum resp, Service.parseInts smallRequest = some ints ∧
      ints = (numbers smallRequest).map UInt32.ofNat ∧ sorted.Perm ints ∧
      sorted.Pairwise (· ≤ ·) ∧ sum.toNat = (ints.map UInt32.toNat).sum ∧
      Service.createResponse smallRequest = some resp ∧
      Service.parseInts resp = some (sorted ++ [sum]) :=
  response_readBack (by decide) (by decide) (by decide)

end TypedSockets.App
