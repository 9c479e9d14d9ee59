import Mathlib.Data.Fintype.Pi
import Mathlib.Data.UInt

/-! Internet addresses: `in_address_t`, `in_address_port_t`, their parser, and the socket address
structures that the system calls take.  `inet_pton` is a parameter. -/

namespace TypedSockets.Socket

/-- The tags `ipv4` and `ipv6` of an address family. -/
inductive AfInet where
  | ipv4
  | ipv6
  deriving DecidableEq

/-- `operator int`: `AF_INET` and `AF_INET6`. -/
def AfInet.toInt : AfInet → Int
  | .ipv4 => 2
  | .ipv6 => 10

/-- `in_address_t`: the sixteen bytes of `bytes_t` and the family.  Four bytes are significant in
an IPv4 address. -/
structure InAddress where
  data : Fin 16 → UInt8
  family : Int
  deriving DecidableEq

def InAddress.isIpv4 (a : InAddress) : Bool := a.family == AfInet.ipv4.toInt

def InAddress.isIpv6 (a : InAddress) : Bool := a.family == AfInet.ipv6.toInt

/-- `in_address_port_t`; `std::uint_fast16_t` has 64 bits. -/
structure InAddressPort where
  addr : InAddress
  port : UInt64
  deriving DecidableEq

/-- `inet_pton`: what it leaves in the buffer when it accepts a text of a family. -/
abbrev InetPton := Int → List UInt8 → Option (Fin 16 → UInt8)

/-- An `inet_pton` that knows `127.0.0.1` only. -/
def loopbackPton : InetPton := fun af str =>
  if af = 2 ∧ str = [49, 50, 55, 46, 48, 46, 48, 46, 49] then
    some fun i => if i = 0 then 127 else if i = 3 then 1 else 0
  else none

/-- The C string that starts at `str.data()`. -/
def cString (str : List UInt8) : List UInt8 := str.takeWhile (· ≠ 0)

section Parse

variable (pton : InetPton)

/-- `in_address_t::parser<AF, MAX_LEN>`. -/
def InAddress.parser (af : AfInet) (maxLen : Nat) (str : List UInt8) :
    Option ((Fin 16 → UInt8) × Int) :=
  if str.length < maxLen then
    (pton af.toInt (cString str)).map fun buff => (buff, af.toInt)
  else none

def InAddress.maxIp4StrLen : Nat := 16

def InAddress.maxIp6StrLen : Nat := 46

def InAddress.init (addr : List UInt8) : Option ((Fin 16 → UInt8) × Int) :=
  (InAddress.parser pton .ipv4 InAddress.maxIp4StrLen addr).or
    (InAddress.parser pton .ipv6 InAddress.maxIp6StrLen addr)

def InAddress.create (addr : List UInt8) : Option InAddress :=
  match InAddress.init pton addr with
  | some parsed => some ⟨parsed.1, parsed.2⟩
  | none => none

/-- `utils::from_string_and_port`. -/
def fromStringAndPort (str : List UInt8) (port : UInt64) : Option InAddressPort :=
  (InAddress.create pton str).bind fun addr => some ⟨addr, port⟩

end Parse

/-- `htons` of the 16 bits that the conversion to `uint16_t` keeps, on a little-endian machine. -/
def htons (port : UInt64) : UInt16 :=
  (port.toUInt16 <<< 8) ||| (port.toUInt16 >>> 8)

def ntohs (port : UInt16) : UInt16 := (port <<< 8) ||| (port >>> 8)

/-- `sockaddr_in` and `sockaddr_in6`: the port in network order, and the address bytes. -/
inductive SockAddr where
  | in4 (port : UInt16) (addr : Fin 4 → UInt8)
  | in6 (port : UInt16) (addr : Fin 16 → UInt8)
  deriving DecidableEq

def sockAddr4 (addr : InAddress) (port : UInt64) : SockAddr :=
  .in4 (htons port) fun i => addr.data (i.castLE (by decide))

def sockAddr6 (addr : InAddress) (port : UInt64) : SockAddr := .in6 (htons port) addr.data

/-- The structure that `socket_impl::bind` and `socket_impl::connect` build from an address, and
`none` when the family is neither of the two. -/
def InAddressPort.sockAddr (a : InAddressPort) : Option SockAddr :=
  if a.addr.isIpv4 then some (sockAddr4 a.addr a.port)
  else if a.addr.isIpv6 then some (sockAddr6 a.addr a.port)
  else none

/-- An address structure as the kernel filled it in, with the twelve bytes behind `sin_addr`, which
the copy in `parse_addr` takes along. -/
structure FilledAddr where
  addr : SockAddr
  rest : Fin 12 → UInt8
  deriving DecidableEq

/-- The value that `socket_impl::parse_addr` returns.  Its result is never empty. -/
def parseAddr (filled : FilledAddr) : Option InAddressPort :=
  match filled.addr with
  | .in4 port addr =>
    some ⟨⟨fun i => if h : i.val < 4 then addr ⟨i, h⟩ else filled.rest ⟨i - 4, by omega⟩,
      AfInet.ipv4.toInt⟩, (ntohs port).toUInt64⟩
  | .in6 port addr => some ⟨⟨addr, AfInet.ipv6.toInt⟩, (ntohs port).toUInt64⟩

/-- The address structure names the address: the same family, significant bytes and port. -/
def SockAddr.Names : SockAddr → InAddressPort → Prop
  | .in4 port addr, a => a.addr.isIpv4 = true ∧
      (∀ i : Fin 4, addr i = a.addr.data (i.castLE (by decide))) ∧
      (ntohs port).toNat = a.port.toNat
  | .in6 port addr, a => a.addr.isIpv6 = true ∧ (∀ i, addr i = a.addr.data i) ∧
      (ntohs port).toNat = a.port.toNat

instance : (sa : SockAddr) → (a : InAddressPort) → Decidable (sa.Names a)
  | .in4 .., _ => inferInstanceAs (Decidable (_ ∧ _ ∧ _))
  | .in6 .., _ => inferInstanceAs (Decidable (_ ∧ _ ∧ _))

theorem swap_swap (x : BitVec 16) :
    (((x <<< 8) ||| (x >>> 8)) <<< 8) ||| (((x <<< 8) ||| (x >>> 8)) >>> 8) = x := by
  ext i hi
  have high : x.getLsbD (8 + (8 + i)) = false := x.getLsbD_of_ge _ (by omega)
  by_cases h : i < 8
  · simp [h, high, show 8 + i < 16 by omega]
  · simp [h, high, show i - 8 < 8 by omega, show 8 + (i - 8) = i by omega,
      show ¬8 + i < 16 by omega, BitVec.getLsbD_eq_getElem hi]

/-- Only the low 16 bits of a port reach the kernel. -/
theorem ntohs_htons (port : UInt64) : (ntohs (htons port)).toNat = port.toNat % 65536 := by
  have swap : ntohs (htons port) = port.toUInt16 := by
    apply UInt16.toBitVec_inj.mp
    simp only [ntohs, htons, UInt16.toBitVec_or, UInt16.toBitVec_shiftLeft,
      UInt16.toBitVec_shiftRight]
    exact swap_swap _
  rw [swap]
  simp

/-- The structure built from an address names it exactly when the port fits in 16 bits. -/
theorem InAddressPort.sockAddr_names {a : InAddressPort} {sa : SockAddr}
    (h : a.sockAddr = some sa) : sa.Names a ↔ a.port.toNat < 65536 := by
  have fits : a.port.toNat % 65536 = a.port.toNat ↔ a.port.toNat < 65536 := by omega
  unfold InAddressPort.sockAddr at h
  split at h
  · rename_i h4
    cases h
    simp [sockAddr4, SockAddr.Names, h4, ntohs_htons, fits]
  · split at h
    · rename_i h6
      cases h
      simp [sockAddr6, SockAddr.Names, h6, ntohs_htons, fits]
    · cases h

/-- What the kernel filled in names the address parsed from it. -/
theorem parseAddr_names {filled : FilledAddr} {a : InAddressPort} (h : parseAddr filled = some a) :
    filled.addr.Names a := by
  unfold parseAddr at h
  split at h <;> rename_i haddr <;> cases h <;> rw [haddr]
  · simp [SockAddr.Names, InAddress.isIpv4]
  · simp [SockAddr.Names, InAddress.isIpv6]

theorem htons_ntohs (port : UInt16) : htons (ntohs port).toUInt64 = port := by
  apply UInt16.toBitVec_inj.mp
  simp only [ntohs, htons, UInt16.toUInt16_toUInt64, UInt16.toBitVec_or, UInt16.toBitVec_shiftLeft,
    UInt16.toBitVec_shiftRight]
  exact swap_swap _

/-- The structure built from a parsed address is the one that the kernel filled in. -/
theorem parseAddr_back {filled : FilledAddr} {a : InAddressPort} (h : parseAddr filled = some a) :
    a.sockAddr = some filled.addr := by
  unfold parseAddr at h
  split at h <;> rename_i haddr <;> cases h <;> rw [haddr]
  · simp [InAddressPort.sockAddr, InAddress.isIpv4, sockAddr4, htons_ntohs]
  · simp [InAddressPort.sockAddr, InAddress.isIpv4, InAddress.isIpv6, sockAddr6, htons_ntohs,
      AfInet.toInt]

theorem InAddress.parser_eq_some_iff {pton : InetPton} {af : AfInet} {maxLen : Nat}
    {str : List UInt8} {parsed : (Fin 16 → UInt8) × Int} :
    InAddress.parser pton af maxLen str = some parsed ↔
      str.length < maxLen ∧ ∃ buff, pton af.toInt (cString str) = some buff ∧
        (buff, af.toInt) = parsed := by
  rw [InAddress.parser]
  split_ifs with hlength
  · simp [hlength]
  · simp [hlength]

theorem InAddress.parser_family {pton : InetPton} {af : AfInet} {n : Nat} {str : List UInt8}
    {parsed : (Fin 16 → UInt8) × Int} (h : InAddress.parser pton af n str = some parsed) :
    parsed.2 = af.toInt := by
  obtain ⟨-, buff, -, rfl⟩ := InAddress.parser_eq_some_iff.mp h
  rfl

theorem InAddress.create_family {pton : InetPton} {str : List UInt8} {addr : InAddress}
    (h : InAddress.create pton str = some addr) : addr.isIpv4 = true ∨ addr.isIpv6 = true := by
  unfold InAddress.create at h
  split at h
  · rename_i parsed hinit
    cases h
    simp only [InAddress.isIpv4, InAddress.isIpv6, beq_iff_eq]
    rcases Option.or_eq_some_iff.mp hinit with h4 | ⟨-, h6⟩
    · exact Or.inl (InAddress.parser_family h4)
    · exact Or.inr (InAddress.parser_family h6)
  · cases h

/-- An address that the parser accepts has a structure. -/
theorem fromStringAndPort_sockAddr {pton : InetPton} {str : List UInt8} {port : UInt64}
    {a : InAddressPort} (h : fromStringAndPort pton str port = some a) :
    ∃ sa, a.sockAddr = some sa := by
  obtain ⟨addr, hcreate, hsome⟩ := Option.bind_eq_some_iff.mp h
  cases hsome
  unfold InAddressPort.sockAddr
  by_cases h4 : addr.isIpv4 = true
  · exact ⟨sockAddr4 addr port, by simp [h4]⟩
  · have h6 := (InAddress.create_family hcreate).resolve_left h4
    exact ⟨sockAddr6 addr port, by simp [h4, h6]⟩

end TypedSockets.Socket
