import TypedSockets.Socket.Impl

/-! Sending and receiving: `send`, `send_to`, `receive` and `receive_from` of `socket_impl`, which
`send_recv_policy` calls.  They change nothing in the kernel but `errno`, and that on failure
only. -/

namespace TypedSockets.Socket

/-- `::send` as issued, and `::sendto` with its address. -/
structure SendCall where
  fd : Fd
  dest : Option SockAddr
  data : List UInt8
  deriving DecidableEq

/-- The result of a call that transfers data. -/
def Kernel.transferred {α : Type} (k : Kernel) : Except Errno α → Option α × Kernel
  | .ok got => (some got, k)
  | .error e => (none, k.fail e)

@[simp] theorem Kernel.transferred_fds {α : Type} (k : Kernel) (ans : Except Errno α) :
    (k.transferred ans).2.fds = k.fds := by
  cases ans <;> rfl

namespace SocketImpl

def send (impl : SocketImpl) (data : List UInt8) (ans : Except Errno Nat) (k : Kernel) :
    Option Nat × Option SendCall × Kernel :=
  match impl.fd with
  | some fd =>
    let (sent, k) := k.transferred ans
    (sent, some ⟨fd, none, data⟩, k)
  | none => (none, none, k)

def sendTo (impl : SocketImpl) (remote : InAddressPort) (data : List UInt8)
    (ans : Except Errno Nat) (k : Kernel) : Option Nat × Option SendCall × Kernel :=
  match impl.fd with
  | some fd =>
    if impl.family = remote.addr.family then
      match remote.sockAddr with
      | some sa =>
        let (sent, k) := k.transferred ans
        (sent, some ⟨fd, some sa, data⟩, k)
      | none => (none, none, k)
    else (none, none, k)
  | none => (none, none, k)

/-- The bytes that `receive` leaves in the buffer. -/
def receive (impl : SocketImpl) (ans : Except Errno (List UInt8)) (k : Kernel) :
    Option (List UInt8) × Kernel :=
  match impl.fd with
  | some _ => k.transferred ans
  | none => (none, k)

/-- The answer has the address structure as the call leaves it. -/
def receiveFrom (impl : SocketImpl) (ans : Except Errno (List UInt8 × FilledAddr)) (k : Kernel) :
    Option (InAddressPort × List UInt8) × Kernel :=
  match impl.fd with
  | some _ =>
    if impl.family = AfInet.ipv4.toInt ∨ impl.family = AfInet.ipv6.toInt then
      match k.transferred ans with
      | (some (data, peer), k) =>
        ((parseAddr peer).map fun remote => (remote, data), k)
      | (none, k) => (none, k)
    else (none, k)
  | none => (none, k)

@[simp] theorem send_fds (impl : SocketImpl) (data : List UInt8) (ans : Except Errno Nat)
    (k : Kernel) : (impl.send data ans k).2.2.fds = k.fds := by
  unfold send
  split
  · exact k.transferred_fds ans
  · rfl

@[simp] theorem sendTo_fds (impl : SocketImpl) (remote : InAddressPort) (data : List UInt8)
    (ans : Except Errno Nat) (k : Kernel) : (impl.sendTo remote data ans k).2.2.fds = k.fds := by
  unfold sendTo
  split
  · split
    · split
      · exact k.transferred_fds ans
      · rfl
    · rfl
  · rfl

@[simp] theorem receive_fds (impl : SocketImpl) (ans : Except Errno (List UInt8)) (k : Kernel) :
    (impl.receive ans k).2.fds = k.fds := by
  unfold receive
  split
  · exact k.transferred_fds ans
  · rfl

@[simp] theorem receiveFrom_fds (impl : SocketImpl) (ans : Except Errno (List UInt8 × FilledAddr))
    (k : Kernel) :
    (impl.receiveFrom ans k).2.fds = k.fds := by
  have hfds := k.transferred_fds ans
  unfold receiveFrom
  split
  · split
    · split <;> rename_i heq <;> rw [heq] at hfds <;> exact hfds
    · rfl
  · rfl

end SocketImpl

/-- `send` of `send_recv_policy`.  The remote address is a parameter of the connectionless
protocols only. -/
def ActiveSocket.send (s : ActiveSocket) (proto : Proto) (remote : InAddressPort)
    (data : List UInt8) (ans : Except Errno Nat) (k : Kernel) :
    Option Nat × Option SendCall × Kernel :=
  if proto.isConnectionless then s.impl.sendTo remote data ans k else s.impl.send data ans k

/-- `receive` of `send_recv_policy`: the bytes, and the address that they came from when the
protocol is connectionless. -/
def ActiveSocket.receive (s : ActiveSocket) (proto : Proto)
    (ans : Except Errno (List UInt8 × FilledAddr)) (k : Kernel) :
    Option (Option InAddressPort × List UInt8) × Kernel :=
  if proto.isConnectionless then
    let (got, k) := s.impl.receiveFrom ans k
    (got.map fun got => (some got.1, got.2), k)
  else
    let (got, k) := s.impl.receive (ans.map Prod.fst) k
    (got.map fun data => (none, data), k)

theorem ActiveSocket.send_fds (s : ActiveSocket) (proto : Proto) (remote : InAddressPort)
    (data : List UInt8) (ans : Except Errno Nat) (k : Kernel) :
    (s.send proto remote data ans k).2.2.fds = k.fds := by
  unfold ActiveSocket.send
  split <;> simp

theorem ActiveSocket.receive_fds (s : ActiveSocket) (proto : Proto)
    (ans : Except Errno (List UInt8 × FilledAddr)) (k : Kernel) :
    (s.receive proto ans k).2.fds = k.fds := by
  unfold ActiveSocket.receive
  split <;> simp

/-- `send` gets to the kernel exactly when the socket is open and, without a connection, the address
is of its family. -/
theorem ActiveSocket.send_refused_iff (s : ActiveSocket) (proto : Proto) (remote : InAddressPort)
    (data : List UInt8) (ans : Except Errno Nat) (k : Kernel) :
    ((s.send proto remote data ans k).1 = none ∧ (s.send proto remote data ans k).2.1 = none) ↔
      ¬(s.impl.fd.isSome ∧ (proto.isConnectionless = true →
        s.impl.family = remote.addr.family ∧ remote.sockAddr.isSome)) := by
  unfold ActiveSocket.send SocketImpl.send SocketImpl.sendTo
  cases hfd : s.impl.fd with
  | none => split_ifs <;> simp
  | some fd =>
    by_cases hproto : proto.isConnectionless = true
    · by_cases hfamily : s.impl.family = remote.addr.family
      · cases hsa : remote.sockAddr <;> simp [hproto, hfamily]
      · simp [hproto, hfamily]
    · simp [hproto]

end TypedSockets.Socket
