import Mathlib.Data.List.TakeWhile
import TypedSockets.Socket.Address
import TypedSockets.Lib.AddressPrint

/-! The texts that `in_address_t::create` accepts and those that `to_string` prints.  `inet_pton`
decides the grammar of addresses, and `inet_ntop` prints canonical texts. -/

namespace TypedSockets.Socket

open TypedSockets.Lib

/-- The significant bytes of an IPv4 address. -/
def octets (buff : Fin 16 → UInt8) : List UInt8 := (List.ofFn buff).take 4

/-- The words of an IPv6 address. -/
def words (buff : Fin 16 → UInt8) : List UInt16 := wordsOf (List.ofFn buff)

/-- On a C string, the function accepts the texts of the family and stores what they denote. -/
structure InetPton.Decides (pton : InetPton) : Prop where
  ipv4 : ∀ str bytes, 0 ∉ str →
    ((∃ buff, pton AfInet.ipv4.toInt str = some buff ∧ octets buff = bytes) ↔ IsQuad str bytes)
  ipv6 : ∀ str ws, 0 ∉ str →
    ((∃ buff, pton AfInet.ipv6.toInt str = some buff ∧ words buff = ws) ↔ IsIpv6 str ws)

/-- `inet_ntop`: what it writes to a buffer of the given size, and `none` when it fails. -/
abbrev InetNtop := Int → (Fin 16 → UInt8) → Nat → Option (List UInt8)

/-- The function writes the canonical text and a NUL when they fit. -/
structure InetNtop.Prints (ntop : InetNtop) : Prop where
  ipv4 : ∀ buff size, (quadText (octets buff)).length < size →
    ntop AfInet.ipv4.toInt buff size = some (quadText (octets buff) ++ [0])
  ipv6 : ∀ buff, ∃ text, IsCanonical (words buff) text ∧ ∀ size, text.length < size →
    ntop AfInet.ipv6.toInt buff size = some (text ++ [0])

namespace InAddress

/-- `to_string`, and `none` when there is no NUL in the buffer: `resize` throws then, and the
function is `noexcept`. -/
def toString (ntop : InetNtop) (addr : InAddress) : Option (List UInt8) :=
  let addrLen := if addr.family = AfInet.ipv4.toInt then maxIp4StrLen else maxIp6StrLen
  let ret := List.replicate addrLen 0
  let ret := match ntop addr.family addr.data ret.length with
    | some written => written ++ ret.drop written.length
    | none => ret
  if (0 : UInt8) ∈ ret then some (cString ret) else none

/-- The whole of the string is a text of the address. -/
def Denotes (str : List UInt8) (addr : InAddress) : Prop :=
  addr.isIpv4 = true ∧ IsQuad str (octets addr.data) ∨
    addr.isIpv6 = true ∧ IsIpv6 str (words addr.data)

/-- The text that is printed for an address. -/
def Canonical (addr : InAddress) (text : List UInt8) : Prop :=
  addr.isIpv4 = true ∧ text = quadText (octets addr.data) ∨
    addr.isIpv6 = true ∧ IsCanonical (words addr.data) text

/-- The same family and the same significant bytes. -/
def Same (a b : InAddress) : Prop :=
  b.family = a.family ∧ octets b.data = octets a.data ∧ (a.isIpv6 = true → b.data = a.data)

/-- `create` accepts the string exactly when it is a text, and returns what that denotes. -/
def ExactOn (pton : InetPton) (str : List UInt8) : Prop :=
  (∀ addr, create pton str = some addr → Denotes str addr) ∧
    ((∃ addr, Denotes str addr) → ∃ addr, create pton str = some addr)

/-- What stands before the first NUL is a text that the length of the string leaves room for. -/
def TextBeforeNul (str : List UInt8) : Prop :=
  0 ∈ str ∧ (str.length < maxIp4StrLen ∧ (∃ bytes, IsQuad (cString str) bytes) ∨
    str.length < maxIp6StrLen ∧ ∃ ws, IsIpv6 (cString str) ws)

/-! ### Texts and strings -/

theorem zero_not_mem_cString (str : List UInt8) : 0 ∉ cString str := fun h => by
  simpa using List.mem_takeWhile_imp h

theorem cString_eq_self {str : List UInt8} (h : 0 ∉ str) : cString str = str := by
  refine List.takeWhile_eq_self_iff.mpr fun c hc => decide_eq_true fun hzero => ?_
  exact h (hzero ▸ hc)

theorem quad_no_nul {str bytes : List UInt8} (h : IsQuad str bytes) : 0 ∉ str :=
  h.not_mem rfl (by decide)

theorem ipv6_no_nul {str : List UInt8} {ws : List UInt16} (h : IsIpv6 str ws) : 0 ∉ str :=
  h.not_mem rfl (by decide) (by decide)

theorem Denotes.no_nul {str : List UInt8} {addr : InAddress} (h : Denotes str addr) : 0 ∉ str :=
  h.elim (fun h4 => quad_no_nul h4.2) fun h6 => ipv6_no_nul h6.2

/-- The length guards leave room for every text. -/
theorem quad_fits {str bytes : List UInt8} (h : IsQuad str bytes) : str.length < maxIp4StrLen :=
  Nat.lt_succ_of_le h.length_le

theorem ipv6_fits {str : List UInt8} {ws : List UInt16} (h : IsIpv6 str ws) :
    str.length < maxIp6StrLen := Nat.lt_succ_of_le h.length_le

theorem words_length (buff : Fin 16 → UInt8) : (words buff).length = 8 := rfl

theorem words_injective {buff buff' : Fin 16 → UInt8} (h : words buff = words buff') :
    buff = buff' := by
  have hbytes := congrArg bytesOf h
  rw [words, words, bytesOf_wordsOf (n := 8) List.length_ofFn,
    bytesOf_wordsOf (n := 8) List.length_ofFn] at hbytes
  exact List.ofFn_injective hbytes

section

variable {pton : InetPton}

theorem create_of_quad (decides : pton.Decides) {str bytes : List UInt8}
    (hlength : str.length < maxIp4StrLen) (h : IsQuad (cString str) bytes) :
    ∃ buff, create pton str = some ⟨buff, AfInet.ipv4.toInt⟩ ∧ octets buff = bytes := by
  obtain ⟨buff, hbuff, hoctets⟩ := (decides.ipv4 _ _ (zero_not_mem_cString str)).mpr h
  refine ⟨buff, ?_, hoctets⟩
  rw [create, init, parser_eq_some_iff.mpr ⟨hlength, buff, hbuff, rfl⟩]
  rfl

theorem create_of_ipv6 (decides : pton.Decides) {str : List UInt8} {ws : List UInt16}
    (hlength : str.length < maxIp6StrLen) (h : IsIpv6 (cString str) ws) :
    ∃ buff, create pton str = some ⟨buff, AfInet.ipv6.toInt⟩ ∧ words buff = ws := by
  obtain ⟨buff, hbuff, hwords⟩ := (decides.ipv6 _ _ (zero_not_mem_cString str)).mpr h
  refine ⟨buff, ?_, hwords⟩
  have hno4 : parser pton .ipv4 maxIp4StrLen str = none := by
    refine Option.eq_none_iff_forall_ne_some.mpr fun parsed hparsed => ?_
    obtain ⟨-, buff4, h4, -⟩ := parser_eq_some_iff.mp hparsed
    have hquad := (decides.ipv4 _ _ (zero_not_mem_cString str)).mp ⟨buff4, h4, rfl⟩
    exact absurd h hquad.not_isIpv6
  rw [create, init, hno4, Option.none_or,
    parser_eq_some_iff.mpr ⟨hlength, buff, hbuff, rfl⟩]

/-- What an accepted string says before its first NUL. -/
theorem create_some (decides : pton.Decides) {str : List UInt8} {addr : InAddress}
    (h : create pton str = some addr) : Denotes (cString str) addr ∧
      (str.length < maxIp4StrLen ∧ (∃ bytes, IsQuad (cString str) bytes) ∨
        str.length < maxIp6StrLen ∧ ∃ ws, IsIpv6 (cString str) ws) := by
  have hnul := zero_not_mem_cString str
  rw [create] at h
  split at h
  · rename_i parsed hinit
    cases h
    rcases Option.or_eq_some_iff.mp hinit with h4 | ⟨-, h6⟩
    · obtain ⟨hlength, buff, hbuff, rfl⟩ := parser_eq_some_iff.mp h4
      have hquad := (decides.ipv4 _ _ hnul).mp ⟨buff, hbuff, rfl⟩
      exact ⟨Or.inl ⟨rfl, hquad⟩, Or.inl ⟨hlength, _, hquad⟩⟩
    · obtain ⟨hlength, buff, hbuff, rfl⟩ := parser_eq_some_iff.mp h6
      have htext := (decides.ipv6 _ _ hnul).mp ⟨buff, hbuff, rfl⟩
      exact ⟨Or.inr ⟨rfl, htext⟩, Or.inr ⟨hlength, _, htext⟩⟩
  · cases h

/-- Every text is accepted. -/
theorem create_of_denotes (decides : pton.Decides) {str : List UInt8} {addr : InAddress}
    (h : Denotes str addr) : ∃ b, create pton str = some b ∧ Denotes str b ∧ addr.Same b := by
  have hcut := cString_eq_self h.no_nul
  rcases h with ⟨h4, hquad⟩ | ⟨h6, htext⟩
  · obtain ⟨buff, hcreate, hoctets⟩ := create_of_quad decides (quad_fits hquad) (hcut ▸ hquad)
    have hfamily : addr.family = AfInet.ipv4.toInt := by simpa [isIpv4] using h4
    refine ⟨_, hcreate, Or.inl ⟨rfl, hoctets ▸ hquad⟩, hfamily.symm, hoctets, fun h6 => ?_⟩
    rw [isIpv6, hfamily] at h6
    cases h6
  · obtain ⟨buff, hcreate, hwords⟩ := create_of_ipv6 decides (ipv6_fits htext) (hcut ▸ htext)
    have hfamily : addr.family = AfInet.ipv6.toInt := by simpa [isIpv6] using h6
    have hdata := words_injective hwords
    exact ⟨_, hcreate, Or.inr ⟨rfl, hwords ▸ htext⟩, hfamily.symm, congrArg octets hdata,
      fun _ => hdata⟩

/-- `create` is exact on a string unless an address stands before a NUL in it; the length guards
reject no text. -/
theorem create_exact (decides : pton.Decides) (str : List UInt8) :
    (ExactOn pton str ↔ ¬TextBeforeNul str) ∧
      (∀ bytes, IsQuad str bytes → str.length < maxIp4StrLen) ∧
      ∀ ws, IsIpv6 str ws → str.length < maxIp6StrLen := by
  refine ⟨⟨?_, fun hno => ⟨fun addr hcreate => ?_, fun ⟨addr, h⟩ => ?_⟩⟩,
    fun _ => quad_fits, fun _ => ipv6_fits⟩
  · rintro ⟨hsound, -⟩ ⟨hnul, ⟨hlength, bytes, hquad⟩ | ⟨hlength, ws, htext⟩⟩
    · obtain ⟨buff, hcreate, -⟩ := create_of_quad decides hlength hquad
      exact (hsound _ hcreate).no_nul hnul
    · obtain ⟨buff, hcreate, -⟩ := create_of_ipv6 decides hlength htext
      exact (hsound _ hcreate).no_nul hnul
  · obtain ⟨hdenotes, htext⟩ := create_some decides hcreate
    have hnul : 0 ∉ str := fun hmem => hno ⟨hmem, htext⟩
    rwa [cString_eq_self hnul] at hdenotes
  · obtain ⟨b, hcreate, -⟩ := create_of_denotes decides h
    exact ⟨b, hcreate⟩

end

end InAddress

/-! ### Functions of the C library -/

/-- An `inet_pton` that decides the grammar. -/
def inetPton : InetPton := fun af str =>
  if af = AfInet.ipv4.toInt then (quad? str).map fun bytes i => bytes.getD i 0
  else if af = AfInet.ipv6.toInt then (ipv6? str).map fun ws i => (bytesOf ws).getD i 0
  else none

/-- An `inet_ntop` that prints canonical texts. -/
def inetNtop : InetNtop := fun af buff size =>
  let text := if af = AfInet.ipv4.toInt then some (quadText (octets buff))
    else if af = AfInet.ipv6.toInt then some (ipv6Text (words buff)) else none
  text.bind fun text => if text.length < size then some (text ++ [0]) else none

theorem octets_getD {bytes : List UInt8} (h : bytes.length = 4) :
    octets (fun i => bytes.getD i 0) = bytes := by
  match bytes, h with
  | [_, _, _, _], _ => rfl

theorem words_getD {ws : List UInt16} (h : ws.length = 8) :
    words (fun i => (bytesOf ws).getD i 0) = ws := by
  match ws, h with
  | [_, _, _, _, _, _, _, _], _ =>
    exact wordsOf_bytesOf [_, _, _, _, _, _, _, _]

theorem inetPton_decides : inetPton.Decides where
  ipv4 str bytes _ := by
    simp only [inetPton, if_pos, Option.map_eq_some_iff, quad?_iff]
    constructor
    · rintro ⟨_, ⟨bytes', hquad, rfl⟩, rfl⟩
      rwa [octets_getD hquad.length_octets]
    · intro hquad
      exact ⟨_, ⟨bytes, hquad, rfl⟩, octets_getD hquad.length_octets⟩
  ipv6 str ws _ := by
    have hne : AfInet.ipv6.toInt ≠ AfInet.ipv4.toInt := by decide
    simp only [inetPton, if_pos, if_neg hne, Option.map_eq_some_iff, ipv6?_iff]
    constructor
    · rintro ⟨_, ⟨ws', htext, rfl⟩, rfl⟩
      rwa [words_getD htext.length_words]
    · intro htext
      exact ⟨_, ⟨ws, htext, rfl⟩, words_getD htext.length_words⟩

theorem inetNtop_prints : inetNtop.Prints where
  ipv4 buff size hsize := by
    simp only [inetNtop, if_pos, Option.bind_some, if_pos hsize]
  ipv6 buff := by
    have hne : AfInet.ipv6.toInt ≠ AfInet.ipv4.toInt := by decide
    refine ⟨ipv6Text (words buff), isCanonical_ipv6Text _, fun size hsize => ?_⟩
    simp only [inetNtop, if_neg hne, if_pos, Option.bind_some, if_pos hsize]

namespace InAddress

theorem create_exact_loopback :
    (ExactOn inetPton [58, 58, 49] ↔ ¬TextBeforeNul [58, 58, 49]) ∧
      (∀ bytes, IsQuad [58, 58, 49] bytes → [58, 58, 49].length < maxIp4StrLen) ∧
      ∀ ws, IsIpv6 [58, 58, 49] ws → [58, 58, 49].length < maxIp6StrLen :=
  create_exact inetPton_decides [58, 58, 49]

/-- `127.0.0.1`, a NUL and `x`. -/
def afterNul : List UInt8 := [49, 50, 55, 46, 48, 46, 48, 46, 49, 0, 120]

/-- The string is accepted although it is no text of an address. -/
theorem afterNul_accepted :
    (create inetPton afterNul).isSome = true ∧ (∀ addr, ¬Denotes afterNul addr) ∧
      ¬∀ pton : InetPton, pton.Decides → ∀ str, ExactOn pton str := by
  have haccepted : (create inetPton afterNul).isSome = true := by decide +kernel
  have hnul : 0 ∈ afterNul := by simp [afterNul]
  have hnot : ∀ addr, ¬Denotes afterNul addr := fun addr h => h.no_nul hnul
  refine ⟨haccepted, hnot, fun h => ?_⟩
  obtain ⟨addr, hcreate⟩ := Option.isSome_iff_exists.mp haccepted
  exact hnot addr ((h inetPton inetPton_decides afterNul).1 addr hcreate)

/-! ### Printing and parsing -/

section

variable {ntop : InetNtop}

/-- What `to_string` makes of a text that fits in its buffer. -/
theorem toString_eq {addr : InAddress} {text : List UInt8} (hnul : 0 ∉ text)
    (hntop : ntop addr.family addr.data
      (if addr.family = AfInet.ipv4.toInt then maxIp4StrLen else maxIp6StrLen) =
        some (text ++ [0])) : toString ntop addr = some text := by
  have hcut : ∀ rest, cString ((text ++ [0]) ++ rest) = text := fun rest => by
    have hpos : ∀ c ∈ text, decide (c ≠ 0) = true := fun c hc =>
      decide_eq_true fun hzero => hnul (hzero ▸ hc)
    rw [cString, List.append_assoc, List.takeWhile_append_of_pos hpos]
    simp
  simp only [toString, List.length_replicate, hntop]
  rw [if_pos (by simp), hcut]

theorem toString_ipv4 (prints : ntop.Prints) {addr : InAddress} (h : addr.isIpv4 = true) :
    toString ntop addr = some (quadText (octets addr.data)) := by
  have hfamily : addr.family = AfInet.ipv4.toInt := by simpa [isIpv4] using h
  have hquad : IsQuad (quadText (octets addr.data)) (octets addr.data) := isQuad_quadText rfl
  refine toString_eq (quad_no_nul hquad) ?_
  rw [hfamily, if_pos rfl]
  exact prints.ipv4 _ _ (quad_fits hquad)

theorem toString_ipv6 (prints : ntop.Prints) {addr : InAddress} (h : addr.isIpv6 = true) :
    ∃ text, toString ntop addr = some text ∧ IsCanonical (words addr.data) text := by
  have hfamily : addr.family = AfInet.ipv6.toInt := by simpa [isIpv6] using h
  obtain ⟨text, hcanonical, hprinted⟩ := prints.ipv6 addr.data
  have htext := hcanonical.isIpv6 (words_length addr.data)
  refine ⟨text, toString_eq (ipv6_no_nul htext) ?_, hcanonical⟩
  rw [hfamily, if_neg (by decide)]
  exact hprinted _ (ipv6_fits htext)

/-- What is printed for an address is its canonical text. -/
theorem toString_canonical (prints : ntop.Prints) {addr : InAddress}
    (h : addr.isIpv4 = true ∨ addr.isIpv6 = true) :
    ∃ text, toString ntop addr = some text ∧ Canonical addr text ∧ Denotes text addr := by
  rcases h with h4 | h6
  · exact ⟨_, toString_ipv4 prints h4, Or.inl ⟨h4, rfl⟩, Or.inl ⟨h4, isQuad_quadText rfl⟩⟩
  · obtain ⟨text, hprinted, hcanonical⟩ := toString_ipv6 prints h6
    exact ⟨text, hprinted, Or.inr ⟨h6, hcanonical⟩,
      Or.inr ⟨h6, hcanonical.isIpv6 (words_length addr.data)⟩⟩

/-- Addresses that are the same are printed alike. -/
theorem toString_same (prints : ntop.Prints) {a b : InAddress}
    (h : a.isIpv4 = true ∨ a.isIpv6 = true) (same : a.Same b) :
    toString ntop b = toString ntop a := by
  obtain ⟨hfamily, hoctets, hdata⟩ := same
  rcases h with h4 | h6
  · have hb : b.isIpv4 = true := by rwa [isIpv4, hfamily]
    rw [toString_ipv4 prints h4, toString_ipv4 prints hb, hoctets]
  · rw [toString, hfamily, hdata h6]
    rfl

/-- An address is read back from the text that is printed for it, and what is printed for an
accepted string is the canonical text of its address. -/
theorem toString_readBack {pton : InetPton} (decides : pton.Decides) (prints : ntop.Prints) :
    (∀ a : InAddress, a.isIpv4 = true ∨ a.isIpv6 = true →
      ∃ text b, toString ntop a = some text ∧ create pton text = some b ∧ a.Same b ∧
        toString ntop b = some text) ∧
      ∀ str a, create pton str = some a →
        ∃ text, toString ntop a = some text ∧ a.Canonical text ∧ Denotes text a ∧
          Denotes (cString str) a := by
  refine ⟨fun a hfamily => ?_, fun str a hcreate => ?_⟩
  · obtain ⟨text, hprinted, -, hdenotes⟩ := toString_canonical prints hfamily
    obtain ⟨b, hcreate, -, hsame⟩ := create_of_denotes decides hdenotes
    exact ⟨text, b, hprinted, hcreate, hsame, (toString_same prints hfamily hsame).trans hprinted⟩
  · obtain ⟨text, hprinted, hcanonical, hdenotes⟩ :=
      toString_canonical prints (create_family hcreate)
    exact ⟨text, hprinted, hcanonical, hdenotes, (create_some decides hcreate).1⟩

end

theorem toString_readBack_inet :
    (∀ a : InAddress, a.isIpv4 = true ∨ a.isIpv6 = true →
      ∃ text b, toString inetNtop a = some text ∧ create inetPton text = some b ∧ a.Same b ∧
        toString inetNtop b = some text) ∧
      ∀ str a, create inetPton str = some a →
        ∃ text, toString inetNtop a = some text ∧ a.Canonical text ∧ Denotes text a ∧
          Denotes (cString str) a :=
  toString_readBack inetPton_decides inetNtop_prints

end InAddress

end TypedSockets.Socket
