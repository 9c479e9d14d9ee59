import TypedSockets.Endpoint.Client
import TypedSockets.Socket.Objects
import TypedSockets.Socket.Transfer

/-! `recv` and `finished_recv` of the three receiving endpoints: `client_t`, `accepted_sock` and
`accepted_sock_ref`.  `finished_recv` looks at `errno`, which only a failing call sets. -/

namespace TypedSockets.Endpoint

open TypedSockets.Socket

/-- What follows the incoming data for ever: `EAGAIN`, the end of the stream, or one error and then
the end of the stream. -/
inductive Ending where
  | again
  | eof
  | error (e : Errno)
  deriving DecidableEq

/-- The receiving side of a socket.  `chunks` is what the calls hand out one after the other, with
the addresses that they come from. -/
structure Rx where
  errno : Errno
  chunks : List (List UInt8 × FilledAddr)
  ending : Ending

/-- `::recv` and `::recvfrom`.  The end of the stream is a success with no bytes. -/
def Rx.recv (rx : Rx) : Option (List UInt8 × Option FilledAddr) × Rx :=
  match rx.chunks with
  | (data, peer) :: chunks => (some (data, some peer), { rx with chunks := chunks })
  | [] =>
    match rx.ending with
    | .again => (none, { rx with errno := eAgain })
    | .eof => (some ([], none), rx)
    | .error e => (none, { rx with errno := e, ending := .eof })

/-- The address structure that `recv_from_impl` initialises. -/
def blankAddr (family : Int) : FilledAddr :=
  if family = AfInet.ipv4.toInt then ⟨.in4 0 fun _ => 0, fun _ => 0⟩
  else ⟨.in6 0 fun _ => 0, fun _ => 0⟩

namespace SocketImpl

/-- `socket_impl::receive`: the bytes that it leaves in the buffer. -/
def receive (impl : SocketImpl) (rx : Rx) : Option (List UInt8) × Rx :=
  match impl.fd with
  | some _ =>
    let (r, rx) := rx.recv
    (r.map Prod.fst, rx)
  | none => (none, rx)

/-- `socket_impl::receive_from`. -/
def receiveFrom (impl : SocketImpl) (rx : Rx) : Option (InAddressPort × List UInt8) × Rx :=
  match impl.fd with
  | some _ =>
    if impl.family = AfInet.ipv4.toInt ∨ impl.family = AfInet.ipv6.toInt then
      match rx.recv with
      | (some (data, peer), rx) =>
        ((parseAddr (peer.getD (blankAddr impl.family))).map fun remote => (remote, data), rx)
      | (none, rx) => (none, rx)
    else (none, rx)
  | none => (none, rx)

/-- `eagain` and `would_block`. -/
def again (errno : Errno) : Bool := errno == eAgain || errno == eWouldBlock

end SocketImpl

/-- What `recv` returns, with the bytes in the buffer.  `remote` is empty when a client dereferences
an empty `m_remote`. -/
structure Received where
  remote : Option InAddressPort
  data : List UInt8

/-- A receiving endpoint, with the fields that `recv` uses.  The server states of a connectionless
protocol are its client states. -/
inductive RecvI where
  | client (proto : Proto) (state : ClientState proto) (remote : Option InAddressPort)
  | acceptedSock (proto : Proto) (based : proto.isConnectionless = false) (s : AcceptedSock)
  | acceptedSockRef (proto : Proto) (connectionless : proto.isConnectionless = true)
      (state : ClientState proto) (remote : Option InAddressPort)

namespace RecvI

def recvImpl (rx : Rx) : RecvI → Option Received × RecvI × Rx
  | client proto state remote =>
    match state with
    | .active sock =>
      if proto.isConnectionless then
        let (r, rx) := SocketImpl.receiveFrom sock.impl rx
        (r.map fun got => ⟨some got.1, got.2⟩, client proto state remote, rx)
      else
        let (r, rx) := SocketImpl.receive sock.impl rx
        (r.map fun data => ⟨remote, data⟩, client proto state remote, rx)
    | _ => (none, client proto state remote, rx)
  | acceptedSock proto based s =>
    let (r, rx) := SocketImpl.receive s.sock.impl rx
    (r.map fun data => ⟨some s.remote, data⟩, acceptedSock proto based s, rx)
  | acceptedSockRef proto connectionless state remote =>
    match state with
    | .active sock =>
      match SocketImpl.receiveFrom sock.impl rx with
      | (some got, rx) =>
        (some ⟨some got.1, got.2⟩, acceptedSockRef proto connectionless state (some got.1), rx)
      | (none, rx) => (none, acceptedSockRef proto connectionless state remote, rx)
    | _ => (none, acceptedSockRef proto connectionless state remote, rx)

def finishedRecvImpl (errno : Errno) : RecvI → Bool
  | client _ state _ =>
    match state with
    | .active _ => SocketImpl.again errno
    | _ => true
  | acceptedSock _ _ _ => SocketImpl.again errno
  | acceptedSockRef _ _ state _ =>
    match state with
    | .active _ => SocketImpl.again errno
    | _ => false

/-- `recv` gets to the kernel. -/
def reads : RecvI → Bool
  | client proto (.active sock) _ =>
    sock.impl.fd.isSome && (!proto.isConnectionless ||
      sock.impl.family = AfInet.ipv4.toInt || sock.impl.family = AfInet.ipv6.toInt)
  | client _ _ _ => false
  | acceptedSock _ _ s => s.sock.impl.fd.isSome
  | acceptedSockRef _ _ (.active sock) _ =>
    sock.impl.fd.isSome &&
      (sock.impl.family = AfInet.ipv4.toInt || sock.impl.family = AfInet.ipv6.toInt)
  | acceptedSockRef _ _ _ _ => false

/-- What `finished_recv` says when it does not look at `errno`. -/
def constant : RecvI → Option Bool
  | client _ (.active _) _ => none
  | client _ _ _ => some true
  | acceptedSock _ _ _ => none
  | acceptedSockRef _ _ (.active _) _ => none
  | acceptedSockRef _ _ _ _ => some false

theorem finishedRecvImpl_eq (e : RecvI) (errno : Errno) :
    e.finishedRecvImpl errno = e.constant.getD (errno == eAgain) := by
  have again : SocketImpl.again errno = (errno == eAgain) := by
    simp [SocketImpl.again, eAgain, eWouldBlock]
  cases e with
  | client proto state remote => cases state <;> simp [finishedRecvImpl, constant, again]
  | acceptedSock => simp [finishedRecvImpl, constant, again]
  | acceptedSockRef proto h state remote =>
    cases state <;> simp [finishedRecvImpl, constant, again]

theorem receive_spec (impl : SocketImpl) (rx : Rx) :
    SocketImpl.receive impl rx =
      if impl.fd.isSome then (rx.recv.1.map Prod.fst, rx.recv.2) else (none, rx) := by
  unfold SocketImpl.receive
  cases impl.fd <;> rfl

theorem receiveFrom_spec (impl : SocketImpl) (rx : Rx) :
    let ready := impl.fd.isSome &&
      (impl.family = AfInet.ipv4.toInt || impl.family = AfInet.ipv6.toInt)
    ((SocketImpl.receiveFrom impl rx).1.map Prod.snd =
        if ready then rx.recv.1.map Prod.fst else none) ∧
      (SocketImpl.receiveFrom impl rx).2 = if ready then rx.recv.2 else rx := by
  unfold SocketImpl.receiveFrom
  cases impl.fd with
  | none => simp
  | some fd =>
    by_cases hfam : impl.family = AfInet.ipv4.toInt ∨ impl.family = AfInet.ipv6.toInt
    · simp only [hfam, ↓reduceIte]
      rcases rx.recv with ⟨r, rx'⟩
      cases r with
      | none => simp [hfam]
      | some got =>
        obtain ⟨a, ha⟩ := Option.isSome_iff_exists.mp
          (parseAddr_isSome (got.2.getD (blankAddr impl.family)))
        simp [hfam, ha]
    · simp [hfam]

/-- `recv` returns what the kernel hands out when it gets there, and nothing otherwise; it changes
nothing that a later call depends on. -/
theorem recvImpl_spec (e : RecvI) (rx : Rx) :
    ((e.recvImpl rx).1.map Received.data =
        if e.reads then rx.recv.1.map Prod.fst else none) ∧
      (e.recvImpl rx).2.2 = (if e.reads then rx.recv.2 else rx) ∧
      (e.recvImpl rx).2.1.reads = e.reads ∧ (e.recvImpl rx).2.1.constant = e.constant := by
  cases e with
  | client proto state remote =>
    cases state with
    | active sock =>
      obtain ⟨hdata, hrx⟩ := receiveFrom_spec sock.impl rx
      by_cases hproto : proto.isConnectionless = true
      · have hreads : (client proto (.active sock) remote).reads =
            (sock.impl.fd.isSome &&
              (sock.impl.family = AfInet.ipv4.toInt || sock.impl.family = AfInet.ipv6.toInt)) := by
          simp [reads, hproto]
        have hrecv : (client proto (.active sock) remote).recvImpl rx =
            ((SocketImpl.receiveFrom sock.impl rx).1.map fun got => ⟨some got.1, got.2⟩,
              client proto (.active sock) remote, (SocketImpl.receiveFrom sock.impl rx).2) := by
          simp [recvImpl, hproto]
        rw [hrecv, hreads, Option.map_map]
        exact ⟨hdata, hrx, rfl, rfl⟩
      · have hreads : (client proto (.active sock) remote).reads = sock.impl.fd.isSome := by
          simp [reads, hproto]
        have hrecv : (client proto (.active sock) remote).recvImpl rx =
            ((SocketImpl.receive sock.impl rx).1.map fun data => ⟨remote, data⟩,
              client proto (.active sock) remote, (SocketImpl.receive sock.impl rx).2) := by
          simp [recvImpl, hproto]
        rw [hrecv, hreads, receive_spec, Option.map_map]
        refine ⟨?_, ?_, rfl, rfl⟩
        · split <;> simp [Function.comp_def]
        · split <;> rfl
    | _ => exact ⟨rfl, rfl, rfl, rfl⟩
  | acceptedSock proto based s =>
    simp only [recvImpl, reads, receive_spec, Option.map_map]
    by_cases hfd : s.sock.impl.fd.isSome = true <;> simp [hfd, Function.comp_def]
  | acceptedSockRef proto h state remote =>
    cases state with
    | active sock =>
      obtain ⟨hdata, hrx⟩ := receiveFrom_spec sock.impl rx
      simp only [recvImpl, reads]
      rcases hr : SocketImpl.receiveFrom sock.impl rx with ⟨r, rx'⟩
      rw [hr] at hdata hrx
      cases r with
      | none => exact ⟨hdata, hrx, rfl, rfl⟩
      | some got => exact ⟨hdata, hrx, rfl, rfl⟩
    | _ => exact ⟨rfl, rfl, rfl, rfl⟩

end RecvI

/-! ### One call -/

/-- The answer of the kernel to the next call, with the address structure as the call leaves it. -/
def Rx.answer (rx : Rx) (family : Int) : Except Errno (List UInt8 × FilledAddr) :=
  match rx.recv with
  | (some (data, peer), _) => .ok (data, peer.getD (blankAddr family))
  | (none, rx) => .error rx.errno

theorem Rx.recv_errno {rx rx' : Rx} {got : List UInt8 × Option FilledAddr}
    (h : rx.recv = (some got, rx')) : rx'.errno = rx.errno := by
  unfold Rx.recv at h
  split at h
  · cases h
    rfl
  · split at h <;> cases h
    rfl

/-- A call on the receiving side is the call that the kernel answers from it. -/
theorem receive_answer (impl : SocketImpl) (rx : Rx) (family : Int) {k : Kernel}
    (same : k.errno = rx.errno) :
    let answered := impl.receive ((rx.answer family).map Prod.fst) k
    (SocketImpl.receive impl rx).1 = answered.1 ∧
      (SocketImpl.receive impl rx).2.errno = answered.2.errno := by
  unfold SocketImpl.receive Socket.SocketImpl.receive Rx.answer
  cases impl.fd with
  | none => exact ⟨rfl, same.symm⟩
  | some fd =>
    rcases hrecv : rx.recv with ⟨_ | got, rx'⟩
    · exact ⟨rfl, rfl⟩
    · exact ⟨rfl, (Rx.recv_errno hrecv).trans same.symm⟩

theorem receiveFrom_answer (impl : SocketImpl) (rx : Rx) {k : Kernel} (same : k.errno = rx.errno) :
    let answered := impl.receiveFrom (rx.answer impl.family) k
    (SocketImpl.receiveFrom impl rx).1 = answered.1 ∧
      (SocketImpl.receiveFrom impl rx).2.errno = answered.2.errno := by
  unfold SocketImpl.receiveFrom Socket.SocketImpl.receiveFrom Rx.answer
  cases impl.fd with
  | none => exact ⟨rfl, same.symm⟩
  | some fd =>
    simp only
    split_ifs
    · rcases hrecv : rx.recv with ⟨_ | got, rx'⟩
      · exact ⟨rfl, rfl⟩
      · exact ⟨rfl, (Rx.recv_errno hrecv).trans same.symm⟩
    · exact ⟨rfl, same.symm⟩

end TypedSockets.Endpoint
