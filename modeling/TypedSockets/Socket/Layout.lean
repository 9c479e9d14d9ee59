import Mathlib.Data.Fin.VecNotation
import TypedSockets.Socket.Address

/-! The bytes that the address structures are copied from and to.  The values come out right, and
`parse_addr` copies as many bytes as the whole structure has, from the middle of it. -/

namespace TypedSockets.Socket

/-- The bytes from the start of an object on, those behind it included. -/
abbrev Memory := Nat → UInt8

/-- `std::copy` of `len` bytes, from the offset `src` of one object to the offset `dst` of
another. -/
structure Copy where
  src : Nat
  dst : Nat
  len : Nat

namespace Copy

def run (c : Copy) (source target : Memory) : Memory := fun i =>
  if c.dst ≤ i ∧ i < c.dst + c.len then source (c.src + (i - c.dst)) else target i

/-- Every byte is read inside a source of `m` bytes and written inside a target of `n` bytes. -/
def Inside (c : Copy) (m n : Nat) : Prop := ∀ i < c.len, c.src + i < m ∧ c.dst + i < n

instance (c : Copy) (m n : Nat) : Decidable (c.Inside m n) :=
  inferInstanceAs (Decidable (∀ i < c.len, _))

theorem run_at (c : Copy) (source target : Memory) {i : Nat} (h : i < c.len) :
    c.run source target (c.dst + i) = source (c.src + i) := by
  have hi : c.dst + i - c.dst = i := by omega
  rw [run, if_pos (by omega), hi]

/-- A copy is inside when its end is. -/
theorem inside_iff (c : Copy) (m n : Nat) (h : 0 < c.len) :
    c.Inside m n ↔ c.src + c.len ≤ m ∧ c.dst + c.len ≤ n := by
  constructor
  · intro hinside
    have hlast := hinside (c.len - 1) (by omega)
    omega
  · intro hend i hi
    omega

end Copy

/-- The size of an address structure, and the place and size of its address member. -/
structure Layout where
  size : Nat
  addrAt : Nat
  addrLen : Nat

def sockaddrIn : Layout := ⟨16, 4, 4⟩

def sockaddrIn6 : Layout := ⟨28, 8, 16⟩

/-- The size of `bytes_t`. -/
def bytesSize : Nat := 16

def SockAddr.layout : SockAddr → Layout
  | .in4 _ _ => sockaddrIn
  | .in6 _ _ => sockaddrIn6

theorem SockAddr.layout_cases (sa : SockAddr) :
    sa.layout = sockaddrIn ∨ sa.layout = sockaddrIn6 := by
  cases sa
  · exact Or.inl rfl
  · exact Or.inr rfl

/-- The bytes of the address member. -/
def SockAddr.byte : SockAddr → Memory
  | .in4 _ addr, i => if h : i < 4 then addr ⟨i, h⟩ else 0
  | .in6 _ addr, i => if h : i < 16 then addr ⟨i, h⟩ else 0

def InAddress.memory (a : InAddress) : Memory := fun i => if h : i < 16 then a.data ⟨i, h⟩ else 0

/-- The memory of an address structure.  `other` has the members that nothing here reads, and what
lies behind the structure and the twelve bytes after an IPv4 address. -/
def FilledAddr.memory (filled : FilledAddr) (other : Memory) : Memory := fun i =>
  match filled.addr with
  | .in4 _ addr =>
    if h : 4 ≤ i ∧ i < 8 then addr ⟨i - 4, by omega⟩
    else if h : 8 ≤ i ∧ i < 20 then filled.rest ⟨i - 8, by omega⟩
    else other i
  | .in6 _ addr => if h : 8 ≤ i ∧ i < 24 then addr ⟨i - 8, by omega⟩ else other i

/-- The copy of `sock_addr4` and `sock_addr6`, which has the size of the address member. -/
def Layout.encodeCopy (l : Layout) : Copy := ⟨0, l.addrAt, l.addrLen⟩

/-- The copy of `parse_addr`, which has the size of the structure. -/
def Layout.parseCopy (l : Layout) : Copy := ⟨l.addrAt, 0, l.size⟩

/-- Every byte that `parse_addr` copies is inside the structure and inside `bytes_t`. -/
def FilledAddr.CopiedInside (filled : FilledAddr) : Prop :=
  filled.addr.layout.parseCopy.Inside filled.addr.layout.size bytesSize

instance (filled : FilledAddr) : Decidable filled.CopiedInside :=
  inferInstanceAs (Decidable (Copy.Inside _ _ _))

/-! ### The copies and the values -/

theorem encodeCopy_inside (sa : SockAddr) :
    sa.layout.encodeCopy.Inside bytesSize sa.layout.size := by
  rcases sa.layout_cases with h | h <;> rw [h] <;> decide

/-- The structure built from an address has its bytes. -/
theorem encodeCopy_byte {a : InAddressPort} {sa : SockAddr} (h : a.sockAddr = some sa)
    (zero : Memory) {i : Nat} (hi : i < sa.layout.addrLen) :
    sa.layout.encodeCopy.run a.addr.memory zero (sa.layout.addrAt + i) = sa.byte i := by
  refine (sa.layout.encodeCopy.run_at a.addr.memory zero hi).trans ?_
  unfold InAddressPort.sockAddr at h
  split_ifs at h with h4 h6 <;> cases h
  · have hlt : i < 4 := hi
    simp [Layout.encodeCopy, InAddress.memory, SockAddr.byte, sockAddr4, hlt,
      show i < 16 by omega]
  · have hlt : i < 16 := hi
    simp [Layout.encodeCopy, InAddress.memory, SockAddr.byte, sockAddr6, hlt]

/-- The bytes of the parsed address are those that the copy leaves in `bytes_t`. -/
theorem parseCopy_data {filled : FilledAddr} {a : InAddressPort} (h : parseAddr filled = some a)
    (other bytes : Memory) (i : Fin 16) :
    filled.addr.layout.parseCopy.run (filled.memory other) bytes i = a.addr.data i := by
  have hlen : i.val < filled.addr.layout.parseCopy.len := by
    rcases filled.addr.layout_cases with h | h <;> rw [h]
    · exact i.isLt
    · exact i.isLt.trans (by decide)
  have hrun := filled.addr.layout.parseCopy.run_at (filled.memory other) bytes hlen
  have hdst : filled.addr.layout.parseCopy.dst + i.val = i.val := Nat.zero_add _
  rw [hdst] at hrun
  rw [hrun]
  obtain ⟨addr, rest⟩ := filled
  cases addr with
  | in4 port addr =>
    cases h
    by_cases hi : i.val < 4
    · simp [FilledAddr.memory, Layout.parseCopy, SockAddr.layout, sockaddrIn, hi,
        show 4 + i.val < 8 by omega]
    · simp [FilledAddr.memory, Layout.parseCopy, SockAddr.layout, sockaddrIn, hi,
        show ¬4 + i.val < 8 by omega, show 8 ≤ 4 + i.val by omega, show 4 + i.val < 20 by omega]
      congr 1
      apply Fin.ext
      simp only
      omega
  | in6 port addr =>
    cases h
    simp [FilledAddr.memory, Layout.parseCopy, SockAddr.layout, sockaddrIn6,
      show 8 + i.val < 24 by omega]

/-- The address that comes back from the structure built from it: the same family, significant bytes
and port. -/
def ComesBack (a : InAddressPort) : Prop :=
  ∃ sa, a.sockAddr = some sa ∧ ∀ rest, ∃ b, parseAddr ⟨sa, rest⟩ = some b ∧
    b.addr.family = a.addr.family ∧ b.port = a.port ∧
    ∀ i : Fin 16, i.val < sa.layout.addrLen → b.addr.data i = a.addr.data i

theorem comesBack {a : InAddressPort} (family : a.addr.isIpv4 = true ∨ a.addr.isIpv6 = true)
    (fits : a.port.toNat < 65536) : ComesBack a := by
  have port : (ntohs (htons a.port)).toUInt64 = a.port := by
    apply UInt64.toNat.inj
    rw [UInt16.toNat_toUInt64, ntohs_htons]
    omega
  unfold ComesBack InAddressPort.sockAddr
  by_cases h4 : a.addr.isIpv4 = true
  · refine ⟨sockAddr4 a.addr a.port, if_pos h4, fun rest => ⟨_, rfl, ?_, port, ?_⟩⟩
    · exact (beq_iff_eq.mp h4).symm
    · intro i hi
      have hlt : i.val < 4 := hi
      simp [hlt]
  · have h6 := family.resolve_left h4
    refine ⟨sockAddr6 a.addr a.port, by rw [if_neg h4, if_pos h6], fun rest => ⟨_, rfl, ?_, port, ?_⟩⟩
    · exact (beq_iff_eq.mp h6).symm
    · intro i _
      rfl

theorem ComesBack.family {a : InAddressPort} (h : ComesBack a) :
    a.addr.isIpv4 = true ∨ a.addr.isIpv6 = true := by
  obtain ⟨sa, hsa, -⟩ := h
  unfold InAddressPort.sockAddr at hsa
  split_ifs at hsa with h4 h6
  · exact .inl h4
  · exact .inr h6

theorem ComesBack.fits {a : InAddressPort} (h : ComesBack a) : a.port.toNat < 65536 := by
  obtain ⟨sa, -, hback⟩ := h
  obtain ⟨b, hb, -, hport, -⟩ := hback fun _ => 0
  rw [← hport]
  cases sa <;>
  · cases hb
    rw [UInt16.toNat_toUInt64]
    exact UInt16.toNat_lt _

theorem not_copiedInside (filled : FilledAddr) : ¬filled.CopiedInside := by
  have hlen : 0 < filled.addr.layout.parseCopy.len := by
    rcases filled.addr.layout_cases with h | h <;> rw [h] <;> decide
  rw [FilledAddr.CopiedInside, Copy.inside_iff _ _ _ hlen]
  rintro ⟨hread, -⟩
  rcases filled.addr.layout_cases with h | h <;> rw [h] at hread <;> exact absurd hread (by decide)

/-- Exactly the addresses of the two families with a port of 16 bits come back, and the copy of no
address structure stays inside. -/
theorem parseAddr_sockAddr (a : InAddressPort) (filled : FilledAddr) :
    (ComesBack a ↔ (a.addr.isIpv4 = true ∨ a.addr.isIpv6 = true) ∧ a.port.toNat < 65536) ∧
      ¬filled.CopiedInside :=
  ⟨⟨fun h => ⟨h.family, h.fits⟩, fun h => comesBack h.1 h.2⟩, not_copiedInside filled⟩

/-- The peer `127.0.0.1`, port 80. -/
def loopbackFilled : FilledAddr := ⟨.in4 (htons 80) ![127, 0, 0, 1], fun _ => 0⟩

/-- Four bytes are read from behind the structure. -/
theorem loopbackFilled_not_inside : ¬loopbackFilled.CopiedInside := by decide

end TypedSockets.Socket
