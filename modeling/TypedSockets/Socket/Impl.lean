import TypedSockets.Socket.Kernel

/-! `socket_impl` and the four socket states over it, with the policies that lead from one state to
the next.  A C++ function that changes the object it is called on returns the object after the call
as well as its result. -/

namespace TypedSockets.Socket

/-- A protocol type: `is_connectionless`, `operator int` and the optional `flags`. -/
structure Proto where
  isConnectionless : Bool
  type : Nat
  flags : Option Nat
  deriving DecidableEq

def tcp : Proto := ⟨false, 1, none⟩

def udp : Proto := ⟨true, 2, none⟩

def sockNonblock : Nat := 2048

structure SocketImpl where
  fd : Option Fd := none
  family : Int := 0
  deriving DecidableEq

namespace SocketImpl

/-- The source of a move, after it: `m_fd` is reset and `m_family` stays. -/
def moved (impl : SocketImpl) : SocketImpl := { impl with fd := none }

def empty (impl : SocketImpl) : Bool := impl.fd.isNone

/-- `fd()`: the descriptor, or -1. -/
def handle (impl : SocketImpl) : Fd := impl.fd.getD (-1)

def openFd (impl : SocketImpl) (family : Int) (proto flags : Nat) (ans : Except Errno Fd)
    (k : Kernel) : Bool × SocketImpl × Kernel :=
  match k.socket family (sockNonblock ||| proto) flags ans with
  | (some fd, k) => (true, ⟨some fd, family⟩, k)
  | (none, k) => (false, impl, k)

def close (impl : SocketImpl) (k : Kernel) : Kernel :=
  match impl.fd with
  | some fd => k.close fd
  | none => k

def bind (impl : SocketImpl) (local_ : InAddressPort) (ans : Answer) (k : Kernel) :
    Bool × Kernel :=
  match local_.sockAddr, impl.fd with
  | some sa, some fd => k.bind fd sa ans
  | _, _ => (false, k)

/-- `::connect` is called before `m_fd` is looked at. -/
def connect (impl : SocketImpl) (remote : InAddressPort) (ans : Answer) (k : Kernel) :
    Bool × Kernel :=
  match remote.sockAddr with
  | some sa =>
    let (zero, k) := k.connect impl.fd sa ans
    (impl.fd.isSome && (k.errno == eInProgress || zero), k)
  | none => (false, k)

/-- `static_cast<int>` of the connection limit. -/
def backlog (maxConn : UInt32) : Int := maxConn.toBitVec.toInt

def listen (impl : SocketImpl) (maxConn : UInt32) (ans : Answer) (k : Kernel) : Bool × Kernel :=
  match impl.fd with
  | some fd => k.listen fd (backlog maxConn) ans
  | none => (false, k)

def accept (impl : SocketImpl) (ans : Except Errno (Fd × FilledAddr)) (k : Kernel) :
    Option (SocketImpl × InAddressPort) × Kernel :=
  if impl.family = AfInet.ipv4.toInt ∨ impl.family = AfInet.ipv6.toInt then
    match impl.fd with
    | some fd =>
      match k.accept4 fd ans with
      | (some (new, peer), k) =>
        match parseAddr peer with
        | some remote => (some (⟨some new, impl.family⟩, remote), k)
        | none => (none, k.close new)
      | (none, k) => (none, k)
    | none => (none, k)
  else (none, k)

/-- The destructors of the four states: they close a descriptor that is still there. -/
def destroy (impl : SocketImpl) (k : Kernel) : Kernel :=
  if impl.empty then k else impl.close k

end SocketImpl

structure SocketT where
  impl : SocketImpl
  deriving DecidableEq

structure BindedSocket where
  impl : SocketImpl
  local_ : InAddressPort
  deriving DecidableEq

structure ListeningSocket where
  impl : SocketImpl
  local_ : InAddressPort
  maxConn : UInt32
  deriving DecidableEq

structure ActiveSocket where
  impl : SocketImpl
  remote : Option InAddressPort
  local_ : Option InAddressPort
  accepted : Bool := false
  deriving DecidableEq

/-- `socket_t::create`. -/
def SocketT.create (proto : Proto) (af : Int) (ans : Except Errno Fd) (k : Kernel) :
    Option SocketT × Kernel :=
  match ({} : SocketImpl).openFd af proto.type (proto.flags.getD 0) ans k with
  | (true, impl, k) => (some ⟨impl⟩, k)
  | (false, _, k) => (none, k)

/-- `bind_policy` of the connection based protocols. -/
def SocketT.bind (s : SocketT) (local_ : InAddressPort) (ans : Answer) (k : Kernel) :
    Option BindedSocket × SocketT × Kernel :=
  match s.impl.bind local_ ans k with
  | (true, k) => (some ⟨s.impl, local_⟩, ⟨s.impl.moved⟩, k)
  | (false, k) => (none, s, k)

/-- `bind_policy` of the connectionless protocols. -/
def SocketT.bindConnectionless (s : SocketT) (local_ : InAddressPort) (ans : Answer)
    (k : Kernel) : Option ActiveSocket × SocketT × Kernel :=
  match s.impl.bind local_ ans k with
  | (true, k) => (some { impl := s.impl, remote := none, local_ := some local_ },
      ⟨s.impl.moved⟩, k)
  | (false, k) => (none, s, k)

/-- `connect_policy` on a `socket_t`, which has no local address. -/
def SocketT.connect (s : SocketT) (remote : InAddressPort) (ans : Answer) (k : Kernel) :
    Option ActiveSocket × SocketT × Kernel :=
  match s.impl.connect remote ans k with
  | (true, k) => (some { impl := s.impl, remote := some remote, local_ := none },
      ⟨s.impl.moved⟩, k)
  | (false, k) => (none, s, k)

/-- `connect_policy` on a `binded_socket_t`. -/
def BindedSocket.connect (s : BindedSocket) (remote : InAddressPort) (ans : Answer)
    (k : Kernel) : Option ActiveSocket × BindedSocket × Kernel :=
  match s.impl.connect remote ans k with
  | (true, k) => (some { impl := s.impl, remote := some remote, local_ := some s.local_ },
      { s with impl := s.impl.moved }, k)
  | (false, k) => (none, s, k)

/-- `listen_policy`. -/
def BindedSocket.listen (s : BindedSocket) (maxConn : UInt32) (ans : Answer) (k : Kernel) :
    Option ListeningSocket × BindedSocket × Kernel :=
  match s.impl.listen maxConn ans k with
  | (true, k) => (some ⟨s.impl, s.local_, maxConn⟩, { s with impl := s.impl.moved }, k)
  | (false, k) => (none, s, k)

/-- `accept_policy`. -/
def ListeningSocket.accept (s : ListeningSocket) (ans : Except Errno (Fd × FilledAddr))
    (k : Kernel) : Option ActiveSocket × Kernel :=
  match s.impl.accept ans k with
  | (some (impl, remote), k) =>
    (some { impl, remote := some remote, local_ := some s.local_, accepted := true }, k)
  | (none, k) => (none, k)

/-! ### What the calls do to the sockets -/

theorem SocketT.create_impl {proto : Proto} {af : Int} {ans : Except Errno Fd} {k k' : Kernel}
    {sock : SocketT} (h : SocketT.create proto af ans k = (some sock, k')) :
    ∃ fd, sock.impl = ⟨some fd, af⟩ := by
  unfold SocketT.create SocketImpl.openFd at h
  cases hs : k.socket af (sockNonblock ||| proto.type) (proto.flags.getD 0) ans with
  | mk r k'' =>
    rw [hs] at h
    cases r with
    | none => cases h
    | some fd =>
      cases h
      exact ⟨fd, rfl⟩

theorem SocketT.bind_impl {s : SocketT} {local_ : InAddressPort} {ans : Answer} {k : Kernel}
    {b : BindedSocket} (h : b ∈ (s.bind local_ ans k).1) : b.impl = s.impl := by
  unfold SocketT.bind at h
  split at h <;> cases h
  rfl

theorem SocketT.bindConnectionless_impl {s : SocketT} {local_ : InAddressPort} {ans : Answer}
    {k : Kernel} {a : ActiveSocket} (h : a ∈ (s.bindConnectionless local_ ans k).1) :
    a.impl = s.impl := by
  unfold SocketT.bindConnectionless at h
  split at h <;> cases h
  rfl

theorem BindedSocket.listen_impl {s : BindedSocket} {maxConn : UInt32} {ans : Answer} {k : Kernel}
    {l : ListeningSocket} (h : l ∈ (s.listen maxConn ans k).1) : l.impl = s.impl := by
  unfold BindedSocket.listen at h
  split at h <;> cases h
  rfl

theorem parseAddr_isSome (filled : FilledAddr) : (parseAddr filled).isSome := by
  unfold parseAddr
  split <;> rfl

/-- `accept` of a connection that waits, under a descriptor that is not open. -/
theorem ListeningSocket.accept_ok {s : ListeningSocket} {fd new : Fd} {k : Kernel}
    (peer : FilledAddr) (hfd : s.impl.fd = some fd)
    (family : s.impl.family = AfInet.ipv4.toInt ∨ s.impl.family = AfInet.ipv6.toInt)
    (positive : 0 ≤ new) (fresh : ¬k.Open new) :
    ∃ conn remote k', s.accept (.ok (new, peer)) k = (some conn, k') ∧
      conn.impl.fd = some new ∧ conn.remote = some remote ∧ parseAddr peer = some remote := by
  obtain ⟨remote, hremote⟩ := Option.isSome_iff_exists.mp (parseAddr_isSome peer)
  refine ⟨⟨⟨some new, s.impl.family⟩, some remote, some s.local_, true⟩, remote,
    ((k.issue (.accept fd)).install (.accept fd peer) (.ok new)).2, ?_, rfl, rfl, hremote⟩
  have hissued : ¬(k.issue (.accept fd)).Open new := fresh
  simp [ListeningSocket.accept, SocketImpl.accept, Kernel.accept4, Kernel.install, family, hfd,
    positive, hissued, hremote]

/-! ### What the calls do to the open descriptors -/

namespace Kernel

@[simp] theorem issue_fds (k : Kernel) (c : SysCall) : (k.issue c).fds = k.fds := rfl

@[simp] theorem fail_fds (k : Kernel) (e : Errno) : (k.fail e).fds = k.fds := rfl

@[simp] theorem close_fds (k : Kernel) (fd : Fd) :
    (k.close fd).fds = Function.update k.fds fd none := rfl

theorem open_iff {k : Kernel} {fd : Fd} : k.Open fd ↔ ∃ past, k.fds fd = some past :=
  Option.isSome_iff_exists

@[simp] theorem open_close (k : Kernel) (fd fd' : Fd) :
    (k.close fd).Open fd' ↔ fd' ≠ fd ∧ k.Open fd' := by
  by_cases h : fd' = fd
  · simp [Kernel.Open, h]
  · simp [Kernel.Open, h]

@[simp] theorem open_issue (k : Kernel) (c : SysCall) (fd : Fd) :
    (k.issue c).Open fd ↔ k.Open fd := Iff.rfl

@[simp] theorem open_fail (k : Kernel) (e : Errno) (fd : Fd) :
    (k.fail e).Open fd ↔ k.Open fd := Iff.rfl

/-- `record` opens and closes nothing. -/
@[simp] theorem open_record (k : Kernel) (fd fd' : Fd) (op : FdOp) :
    (k.record fd op).Open fd' ↔ k.Open fd' := by
  by_cases h : fd' = fd
  · subst h
    simp [Kernel.Open, Kernel.record]
  · simp [Kernel.Open, Kernel.record, h]

@[simp] theorem open_apply (k : Kernel) (fd fd' : Fd) (op : FdOp) (ans : Answer) :
    (k.apply fd op ans).2.Open fd' ↔ k.Open fd' := by
  unfold Kernel.apply
  split
  · split <;> simp
  · simp

@[simp] theorem open_connect (k : Kernel) (fd : Option Fd) (addr : SockAddr) (ans : Answer)
    (fd' : Fd) : (k.connect fd addr ans).2.Open fd' ↔ k.Open fd' := by
  unfold Kernel.connect
  grind [open_apply, open_record, open_fail, open_issue]

/-- A call that returns a descriptor opens a fresh one, or fails and opens none. -/
theorem install_cases (k : Kernel) (op : FdOp) (ans : Except Errno Fd) :
    (∃ fd, (k.install op ans).1 = some fd ∧ 0 ≤ fd ∧ ¬k.Open fd ∧
      (k.install op ans).2.fds = Function.update k.fds fd (some [op])) ∨
    ((k.install op ans).1 = none ∧ (k.install op ans).2.fds = k.fds) := by
  unfold Kernel.install
  split
  · split
    · rename_i fd h
      exact Or.inl ⟨fd, rfl, h.1, h.2, rfl⟩
    · exact Or.inr ⟨rfl, rfl⟩
  · exact Or.inr ⟨rfl, rfl⟩

end Kernel

end TypedSockets.Socket
