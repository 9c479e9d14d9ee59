import Mathlib.Data.List.Sort

/-! `service_t`: the numbers in a request, sorted, and their sum.  Characters are bytes, classified
as in the "C" locale. -/

namespace TypedSockets.App

/-- `std::isdigit`. -/
def isDigit (c : UInt8) : Bool := 48 ≤ c && c ≤ 57

/-- `std::isspace`. -/
def isSpace (c : UInt8) : Bool := c = 32 || (9 ≤ c && c ≤ 13)

/-- The strings that `operator>>` reads from a stream one after the other. -/
def tokens (request : List UInt8) : List (List UInt8) :=
  (request.splitOnP isSpace).filter fun token => !token.isEmpty

def isNumber (s : List UInt8) : Bool := !s.isEmpty && s.all isDigit

/-- The value of a string of digits. -/
def digitsValue (s : List UInt8) : Nat := s.foldl (fun n c => 10 * n + (c.toNat - 48)) 0

/-- The largest `int`. -/
def intMax : Nat := 2147483647

/-- `std::stoi` on a string of digits, which throws `std::out_of_range` when the value is not an
`int`. -/
def stoi (s : List UInt8) : Option UInt32 :=
  if digitsValue s ≤ intMax then some (UInt32.ofNat (digitsValue s)) else none

/-- `std::to_string`, and `operator<<`. -/
def decimal (n : UInt32) : List UInt8 :=
  (Nat.toDigits 10 n.toNat).map fun c => UInt8.ofNat c.toNat

namespace Service

/-- `service_t::parse_ints`, and `none` when it throws. -/
def parseInts (request : List UInt8) : Option (List UInt32) :=
  ((tokens request).filter isNumber).mapM stoi

/-- `service_t::create_response`, and `none` when it throws. -/
def createResponse (req : List UInt8) : Option (List UInt8) :=
  (parseInts req).map fun ints =>
    if ints.isEmpty then req
    else
      let ints := ints.insertionSort (· ≤ ·)
      let sum := ints.foldl (· + ·) 0
      (ints.flatMap fun n => decimal n ++ [32]) ++ [10] ++ decimal sum

end Service

/-- Every number in the request is an `int`. -/
def InRange (request : List UInt8) : Prop :=
  ∀ token ∈ tokens request, isNumber token = true → digitsValue token ≤ intMax

instance (request : List UInt8) : Decidable (InRange request) :=
  inferInstanceAs (Decidable (∀ token ∈ tokens request, _))

theorem mapM_isSome {α β : Type} (f : α → Option β) (as : List α) :
    (as.mapM f).isSome ↔ ∀ a ∈ as, (f a).isSome := by
  induction as with
  | nil => simp
  | cons a as ih =>
    rw [List.mapM_cons, List.forall_mem_cons, ← ih]
    cases f a with
    | none => simp
    | some b => cases as.mapM f <;> simp

/-- There is a response exactly when every number is an `int`. -/
theorem createResponse_isSome (req : List UInt8) :
    (Service.createResponse req).isSome ↔ InRange req := by
  rw [Service.createResponse, Option.isSome_map, Service.parseInts, mapM_isSome]
  simp only [List.mem_filter, stoi, InRange, and_imp]
  refine forall₃_congr fun token _ _ => ?_
  split_ifs with h <;> simp [h]

example : Service.createResponse [51, 32, 120, 32, 49, 48] =
    some [51, 32, 49, 48, 32, 10, 49, 51] := by decide

end TypedSockets.App
