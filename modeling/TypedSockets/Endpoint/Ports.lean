import TypedSockets.Endpoint.Peer
import TypedSockets.Endpoint.Restart
import TypedSockets.Endpoint.Server
import TypedSockets.Socket.Calls

/-! The ports that `bind`, `connect` and `start` keep, and those in the address structures that the
kernel is given.  A port has 64 bits in the former and 16 in the latter. -/

namespace TypedSockets.Socket

/-- `ntohs` of the port in the structure. -/
def SockAddr.hostPort : SockAddr → Nat
  | .in4 port _ => (ntohs port).toNat
  | .in6 port _ => (ntohs port).toNat

/-- The address structure of a call. -/
def SysCall.addr? : SysCall → Option SockAddr
  | .bind _ addr => some addr
  | .connect _ addr => some addr
  | _ => none

/-- The address structures in the calls issued between two states of the kernel, latest first. -/
def Hands (k k' : Kernel) (structs : List SockAddr) : Prop :=
  ∃ calls, k'.log = calls ++ k.log ∧ calls.filterMap SysCall.addr? = structs

section

variable {k k' k'' : Kernel} {structs structs' : List SockAddr}

theorem Hands.same (log : k'.log = k.log) : Hands k k' [] := ⟨[], log, rfl⟩

theorem Hands.trans (h : Hands k k' structs) (h' : Hands k' k'' structs') :
    Hands k k'' (structs' ++ structs) := by
  obtain ⟨calls, hlog, rfl⟩ := h
  obtain ⟨calls', hlog', rfl⟩ := h'
  exact ⟨calls' ++ calls, by rw [hlog', hlog, List.append_assoc], List.filterMap_append⟩

theorem Hands.unique (h : Hands k k' structs) (h' : Hands k k' structs') : structs = structs' := by
  obtain ⟨calls, hlog, rfl⟩ := h
  obtain ⟨calls', hlog', rfl⟩ := h'
  rw [List.append_cancel_right (hlog.symm.trans hlog')]

/-- Calls that carry no address structure. -/
theorem Issues.hands {P : SysCall → Prop} (h : Issues k k' P) (hp : ∀ c, P c → c.addr? = none) :
    Hands k k' [] := by
  obtain ⟨calls, hlog, -, hall⟩ := h
  exact ⟨calls, hlog, List.filterMap_eq_nil_iff.mpr fun c hc => hp c (hall c hc)⟩

end

/-- The structure of an address keeps the low 16 bits of its port. -/
theorem InAddressPort.sockAddr_hostPort {a : InAddressPort} {sa : SockAddr}
    (h : a.sockAddr = some sa) : sa.hostPort = a.port.toNat % 65536 := by
  unfold InAddressPort.sockAddr at h
  split_ifs at h <;> cases h <;> exact ntohs_htons a.port

/-- The kernel is given the structure of the address. -/
def Given (k k' : Kernel) (a : InAddressPort) : Prop :=
  ∃ sa, a.sockAddr = some sa ∧ Hands k k' [sa]

namespace SocketImpl

variable {impl : SocketImpl} {a : InAddressPort} {ans : Answer} {k k' : Kernel}

theorem bind_given (h : impl.bind a ans k = (true, k')) : Given k k' a := by
  unfold SocketImpl.bind at h
  split at h
  · rename_i sa fd hsa hfd
    refine ⟨sa, hsa, [.bind fd sa], ?_, rfl⟩
    have hlog : (k.bind fd sa ans).2.log = .bind fd sa :: k.log := by simp [Kernel.bind]
    rwa [h] at hlog
  · cases h

theorem connect_given (h : impl.connect a ans k = (true, k')) : Given k k' a := by
  unfold SocketImpl.connect at h
  split at h
  · rename_i sa hsa
    refine ⟨sa, hsa, [.connect impl.fd sa], ?_, rfl⟩
    have hk : (k.connect impl.fd sa ans).2 = k' := (Prod.mk.inj h).2
    rw [← hk]
    exact Kernel.connect_log k impl.fd sa ans
  · cases h

theorem listen_hands (maxConn : UInt32) : Hands k (impl.listen maxConn ans k).2 [] :=
  (listen_issues impl maxConn ans k).hands fun _ ⟨_, _, _, hc⟩ => by rw [hc]; rfl

theorem destroy_hands (impl : SocketImpl) (k : Kernel) : Hands k (impl.destroy k) [] :=
  (destroy_issues impl k).hands fun _ ⟨_, _, hc⟩ => by rw [hc]; rfl

theorem sendTo_dest {data : List UInt8} {sent : Except Errno Nat} {call : SendCall} {sa : SockAddr}
    (h : (impl.sendTo a data sent k).2.1 = some call) (dest : call.dest = some sa) :
    a.sockAddr = some sa := by
  unfold SocketImpl.sendTo at h
  split at h
  · split_ifs at h
    · split at h
      · rename_i sa' hsa
        cases h
        rw [hsa]
        exact dest
      · cases h
  · cases h

theorem send_dest {data : List UInt8} {sent : Except Errno Nat} {call : SendCall}
    (h : (impl.send data sent k).2.1 = some call) : call.dest = none := by
  unfold SocketImpl.send at h
  split at h
  · cases h
    rfl
  · cases h

end SocketImpl

theorem SocketT.create_hands (proto : Proto) (af : Int) (ans : Except Errno Fd) (k : Kernel) :
    Hands k (SocketT.create proto af ans k).2 [] := by
  rw [SocketT.create_kernel]
  exact (k.socket_issues af _ _ ans).hands fun _ hc => by rw [hc]; rfl

section

variable {k k' k'' : Kernel} {a : InAddressPort}

theorem Given.after (hands : Hands k k' []) (given : Given k' k'' a) : Given k k'' a := by
  obtain ⟨sa, hsa, h⟩ := given
  exact ⟨sa, hsa, hands.trans h⟩

theorem Given.then (given : Given k k' a) (hands : Hands k' k'' []) : Given k k'' a := by
  obtain ⟨sa, hsa, h⟩ := given
  exact ⟨sa, hsa, h.trans hands⟩

end

/-! ### Sockets -/

section

variable {a : InAddressPort} {ans : Answer} {k k' : Kernel}

theorem SocketT.bind_given {s left : SocketT} {sock : BindedSocket}
    (h : s.bind a ans k = (some sock, left, k')) : sock.local_ = a ∧ Given k k' a := by
  unfold SocketT.bind at h
  split at h
  · rename_i k1 hbind
    cases h
    exact ⟨rfl, SocketImpl.bind_given hbind⟩
  · cases h

theorem SocketT.bindConnectionless_given {s left : SocketT} {sock : ActiveSocket}
    (h : s.bindConnectionless a ans k = (some sock, left, k')) :
    sock.local_ = some a ∧ Given k k' a := by
  unfold SocketT.bindConnectionless at h
  split at h
  · rename_i k1 hbind
    cases h
    exact ⟨rfl, SocketImpl.bind_given hbind⟩
  · cases h

theorem SocketT.connect_given {s left : SocketT} {sock : ActiveSocket}
    (h : s.connect a ans k = (some sock, left, k')) : sock.remote = some a ∧ Given k k' a := by
  unfold SocketT.connect at h
  split at h
  · rename_i k1 hconnect
    cases h
    exact ⟨rfl, SocketImpl.connect_given hconnect⟩
  · cases h

theorem BindedSocket.connect_given {s left : BindedSocket} {sock : ActiveSocket}
    (h : s.connect a ans k = (some sock, left, k')) : sock.remote = some a ∧ Given k k' a := by
  unfold BindedSocket.connect at h
  split at h
  · rename_i k1 hconnect
    cases h
    exact ⟨rfl, SocketImpl.connect_given hconnect⟩
  · cases h

end

end TypedSockets.Socket

namespace TypedSockets.Endpoint

open TypedSockets.Socket TypedSockets.Epoll

variable {proto : Proto}

/-! ### Clients and servers -/

/-- `local()` of the socket in the state. -/
def ClientState.local? : ClientState proto → Option InAddressPort
  | .binded _ sock => some sock.local_
  | .active sock => sock.local_
  | .idle _ => none

/-- `remote()` of the socket in the state. -/
def ClientState.remote? : ClientState proto → Option InAddressPort
  | .active sock => sock.remote
  | _ => none

def ServerState.local? : ServerState proto → Option InAddressPort
  | .binded _ sock => some sock.local_
  | .listening _ sock => some sock.local_
  | .active _ sock => sock.local_
  | .idle _ => none

theorem ClientState.assign_hands (k : Kernel) (old new : ClientState proto) :
    Hands k (old.assign k new) [] := by
  unfold ClientState.assign
  split
  · exact .same rfl
  · exact .same rfl
  · exact .same rfl
  · rcases old with (_ | sock) | ⟨_, sock⟩ | sock
    · exact .same rfl
    all_goals exact sock.impl.destroy_hands k

theorem ServerState.assign_hands (k : Kernel) (old new : ServerState proto) :
    Hands k (old.assign k new) [] := by
  unfold ServerState.assign
  split
  · exact .same rfl
  · exact .same rfl
  · exact .same rfl
  · exact .same rfl
  · rcases old with (_ | sock) | ⟨_, sock⟩ | ⟨_, sock⟩ | ⟨_, sock⟩
    · exact .same rfl
    all_goals exact sock.impl.destroy_hands k

section

variable {a : InAddressPort} {ans : Except Errno Fd} {bound : Answer} {k k' : Kernel} {af : Int}

theorem createBound_given {state : ClientState proto}
    (h : World.createBound proto af a ans bound k = (some state, k')) :
    state.local? = some a ∧ Given k k' a := by
  have hcreate := SocketT.create_hands proto af ans k
  unfold World.createBound at h
  rcases hsock : SocketT.create proto af ans k with ⟨_ | sock, k1⟩
  · rw [hsock] at h
    cases h
  · rw [hsock] at h hcreate
    by_cases based : proto.isConnectionless = false
    · simp only [based, ↓reduceDIte] at h
      rcases hbind : sock.bind a bound k1 with ⟨_ | binded, left, k2⟩
      · rw [hbind] at h
        cases h
      · rw [hbind] at h
        cases h
        obtain ⟨hlocal, hgiven⟩ := SocketT.bind_given hbind
        exact ⟨congrArg some hlocal, (hgiven.after hcreate).then (left.impl.destroy_hands k2)⟩
    · simp only [based] at h
      rcases hbind : sock.bindConnectionless a bound k1 with ⟨_ | active, left, k2⟩
      · rw [hbind] at h
        cases h
      · rw [hbind] at h
        cases h
        obtain ⟨hlocal, hgiven⟩ := SocketT.bindConnectionless_given hbind
        exact ⟨hlocal, (hgiven.after hcreate).then (left.impl.destroy_hands k2)⟩

theorem createActive_given {sock : ActiveSocket}
    (h : Host.createActive proto af a ans bound k = (some sock, k')) :
    sock.local_ = some a ∧ Given k k' a := by
  have hcreate := SocketT.create_hands proto af ans k
  unfold Host.createActive at h
  rcases hsock : SocketT.create proto af ans k with ⟨_ | made, k1⟩
  · rw [hsock] at h
    cases h
  · rw [hsock] at h hcreate
    rcases hbind : made.bindConnectionless a bound k1 with ⟨active, left, k2⟩
    simp only [hbind] at h
    cases h
    obtain ⟨hlocal, hgiven⟩ := SocketT.bindConnectionless_given hbind
    exact ⟨hlocal, (hgiven.after hcreate).then (left.impl.destroy_hands k2)⟩

theorem createListener_given {maxConns : UInt32} {listened : Answer} {sock : ListeningSocket}
    (h : Host.createListener proto af a maxConns ans bound listened k = (some sock, k')) :
    sock.local_ = a ∧ Given k k' a := by
  have hcreate := SocketT.create_hands proto af ans k
  unfold Host.createListener at h
  rcases hsock : SocketT.create proto af ans k with ⟨_ | made, k1⟩
  · rw [hsock] at h
    cases h
  · rw [hsock] at h hcreate
    rcases hbind : made.bind a bound k1 with ⟨_ | binded, left, k2⟩
    · simp only [hbind] at h
      cases h
    · simp only [hbind] at h
      obtain ⟨hlocal, hgiven⟩ := SocketT.bind_given hbind
      have hlisten : Hands k2 (binded.listen maxConns listened k2).2.2 [] := by
        rw [BindedSocket.listen_kernel]
        exact binded.impl.listen_hands maxConns
      rcases hlistener : binded.listen maxConns listened k2 with ⟨listener, leftBinded, k3⟩
      rw [hlistener] at h hlisten
      cases h
      refine ⟨?_, (((hgiven.after hcreate).then hlisten).then
        (leftBinded.impl.destroy_hands k3)).then (left.impl.destroy_hands _)⟩
      unfold BindedSocket.listen at hlistener
      split at hlistener
      · cases hlistener
        exact hlocal
      · cases hlistener

end

section

variable {pton : InetPton} {a : InAddressPort} {k' : Kernel}

theorem fromStringAndPort_port {str : List UInt8} {port : UInt64}
    (h : fromStringAndPort pton str port = some a) : a.port = port := by
  obtain ⟨addr, -, hsome⟩ := Option.bind_eq_some_iff.mp h
  cases hsome
  rfl

theorem addSocket_kernel (w : World proto) (c : ClientId) (fd : Fd) (op : SockOp) (added : Bool) :
    (w.addSocket c fd op added).kernel = w.kernel := by
  unfold World.addSocket
  split_ifs <;> rfl

theorem addSocket_hostKernel (h : Host proto) (fd : Fd) (op : SockOp) (added : Bool) :
    (h.addSocket fd op added).kernel = h.kernel := by
  unfold Host.addSocket
  split_ifs <;> rfl

/-- `setState` gives the kernel no structure. -/
theorem setState_hands {w : World proto} {k : Kernel} (hk : w.kernel = k) (c : ClientId)
    (new : ClientState proto) : Hands k (w.setState c new).kernel [] := by
  rw [← hk]
  exact ClientState.assign_hands w.kernel _ new

theorem setState_hostHands {h : Host proto} {k : Kernel} (hk : h.kernel = k)
    (new : ServerState proto) : Hands k (h.setState new).kernel [] := by
  rw [← hk]
  exact ServerState.assign_hands h.kernel _ new

/-- A successful `start(local)` keeps the address that it gives to the kernel. -/
theorem startLocal_given {w w' : World proto} {c : ClientId} {str : List UInt8} {port : UInt64}
    {ans : Except Errno Fd} {bound : Answer} {added : Bool}
    (h : w.startLocal pton c str port ans bound added = (true, w')) :
    ∃ a, a.port = port ∧ (w'.clients c).state.local? = some a ∧ Given w.kernel w'.kernel a := by
  unfold World.startLocal at h
  split at h
  · split at h
    · rename_i a hparsed
      split at h
      · rename_i state k hbound
        cases h
        obtain ⟨hlocal, hgiven⟩ := createBound_given hbound
        refine ⟨a, fromStringAndPort_port hparsed, ?_, ?_⟩
        · simpa using hlocal
        · exact hgiven.then
            (setState_hands (addSocket_kernel _ c state.getFd .readWrite added) c state)
      · cases h
    · cases h
  · cases h

/-- A successful `start` of a listening server keeps the address that it gives to the kernel. -/
theorem start_given {h h' : Host proto} {based : proto.isConnectionless = false} {args : ServerArgs}
    {ans : Except Errno Fd} {bound listened : Answer} {added : Bool}
    (ok : h.start pton based args ans bound listened added = (true, h')) :
    ∃ a, a.port = args.port ∧ h'.server.state.local? = some a ∧ Given h.kernel h'.kernel a := by
  unfold Host.start at ok
  split at ok
  · split at ok
    · rename_i a hparsed
      split at ok
      · rename_i listener k hlistener
        cases ok
        obtain ⟨hlocal, hgiven⟩ := createListener_given hlistener
        refine ⟨a, fromStringAndPort_port hparsed, congrArg some hlocal, ?_⟩
        exact hgiven.then
          (setState_hostHands (addSocket_hostKernel _ listener.impl.handle .read added) _)
      · cases ok
    · cases ok
  · cases ok

/-- A successful `start` of a server without connections keeps the address that it gives to the
kernel. -/
theorem startConnectionless_given {h h' : Host proto}
    {connectionless : proto.isConnectionless = true} {str : List UInt8} {port : UInt64}
    {onConn onClose : Option Callback} {ans : Except Errno Fd} {bound : Answer} {added : Bool}
    (ok : h.startConnectionless pton connectionless str port onConn onClose ans bound added =
      (true, h')) :
    ∃ a, a.port = port ∧ h'.server.state.local? = some a ∧ Given h.kernel h'.kernel a := by
  unfold Host.startConnectionless at ok
  split at ok
  · split at ok
    · rename_i a hparsed
      split at ok
      · rename_i active k hactive
        cases ok
        obtain ⟨hlocal, hgiven⟩ := createActive_given hactive
        refine ⟨a, fromStringAndPort_port hparsed, hlocal, ?_⟩
        exact hgiven.then
          (setState_hostHands (addSocket_hostKernel _ active.impl.handle .read added) _)
      · cases ok
    · cases ok
  · cases ok

theorem connectSock_given {state left : ClientState proto} {sock : ActiveSocket} {ans : Answer}
    {k : Kernel} (h : World.connectSock state a ans k = (some sock, left, k')) :
    sock.remote = some a ∧ Given k k' a := by
  rcases state with (_ | idle) | ⟨based, binded⟩ | active
  · cases h
  · rcases hconnect : idle.connect a ans k with ⟨r, left', k1⟩
    simp only [World.connectSock, hconnect] at h
    cases h
    exact SocketT.connect_given hconnect
  · rcases hconnect : binded.connect a ans k with ⟨r, left', k1⟩
    simp only [World.connectSock, hconnect] at h
    cases h
    exact BindedSocket.connect_given hconnect
  · cases h

/-- The static lambda `connect` keeps the address that it gives to the kernel, in the client that it
captured. -/
theorem connectLambda_given {w w' : World proto} {this c : ClientId} {frame : ConnectArgs}
    {ans : Answer} (h : w.connectLambda pton this c frame ans = (true, w')) :
    ∃ a, a.port = frame.remotePort ∧ (w'.clients this).remote = some a ∧
      (w'.clients this).state.remote? = some a ∧ Given w.kernel w'.kernel a := by
  unfold World.connectLambda at h
  split at h
  · rename_i a hparsed
    rcases hsock : World.connectSock (w.clients c).state a ans w.kernel with ⟨_ | sock, left, k⟩
    · simp only [hsock] at h
      cases h
    · simp only [hsock] at h
      cases h
      obtain ⟨hremote, hgiven⟩ := connectSock_given hsock
      refine ⟨a, fromStringAndPort_port hparsed, by simp, ?_, ?_⟩
      · simpa [ClientState.remote?] using hremote
      · exact hgiven.then (setState_hands rfl this (.active sock))
  · cases h

theorem connect_given {w w' : World proto} {c : ClientId} {args dead : ConnectArgs} {ans : Answer}
    (inactive : ∀ sock, (w.clients c).state ≠ .active sock)
    (h : w.connect pton c args ans dead = (true, w')) :
    ∃ a, a.port = (frameOf w args dead).remotePort ∧
      (w'.clients (w.statics.getD c)).remote = some a ∧
      (w'.clients (w.statics.getD c)).state.remote? = some a ∧ Given w.kernel w'.kernel a := by
  unfold World.connect at h
  rcases hstate : (w.clients c).state with (_ | idle) | ⟨based, binded⟩ | active
  · simp only [hstate] at h
    cases h
  · simp only [hstate] at h
    by_cases hproto : proto.isConnectionless = true
    · rw [if_pos hproto] at h
      cases h
    · rw [if_neg hproto] at h
      exact connectLambda_given (w := { w with statics := some (w.statics.getD c) }) h
  · simp only [hstate] at h
    exact connectLambda_given (w := { w with statics := some (w.statics.getD c) }) h
  · exact absurd hstate (inactive active)

/-- `connect` on a connected client keeps the address, and gives the kernel nothing. -/
theorem connect_active {w : World proto} {c : ClientId} {sock : ActiveSocket}
    (active : (w.clients c).state = .active sock) (args dead : ConnectArgs) (ans : Answer) :
    (w.connect pton c args ans dead).2.kernel = w.kernel ∧
      ∀ w', w.connect pton c args ans dead = (true, w') →
        ∃ a, a.port = args.remotePort ∧ (w'.clients (w.statics.getD c)).remote = some a := by
  unfold World.connect
  simp only [active]
  split
  · rename_i a hparsed
    refine ⟨rfl, fun w' h => ⟨a, fromStringAndPort_port hparsed, ?_⟩⟩
    cases h
    simp
  · exact ⟨rfl, fun w' h => by cases h⟩

/-- `send` gives the kernel the structure of the address that the client keeps. -/
theorem send_dest {w : World proto} {c : ClientId} {data : List UInt8} {ans : Except Errno Nat}
    {call : SendCall} {sa : SockAddr} (h : (w.send c data ans).2.1 = some call)
    (dest : call.dest = some sa) :
    ∃ remote, (w.clients c).remote = some remote ∧ remote.sockAddr = some sa := by
  unfold World.send at h
  split at h
  · rename_i sock remote hstate hremote
    refine ⟨remote, hremote, ?_⟩
    simp only [ActiveSocket.send] at h
    by_cases hproto : proto.isConnectionless = true
    · rw [if_pos hproto] at h
      exact SocketImpl.sendTo_dest h dest
    · rw [if_neg hproto] at h
      rw [SocketImpl.send_dest h] at dest
      cases dest
  · cases h

end

/-! ### The port that is kept and the port that is used -/

/-- A successful call with the port, the address structures that the kernel is given, and the
address that is kept.  A `connect` on a connected client gives the kernel a structure when something is sent
afterwards. -/
inductive PortCall (pton : InetPton) : UInt64 → List SockAddr → InAddressPort → Prop where
  | bind {s left : SocketT} {address : InAddressPort} {ans : Answer} {k k' : Kernel}
      {sock : BindedSocket} {structs : List SockAddr}
      (ok : s.bind address ans k = (some sock, left, k')) (hands : Hands k k' structs) :
      PortCall pton address.port structs sock.local_
  | bindConnectionless {s left : SocketT} {address a : InAddressPort} {ans : Answer}
      {k k' : Kernel} {sock : ActiveSocket} {structs : List SockAddr}
      (ok : s.bindConnectionless address ans k = (some sock, left, k'))
      (hands : Hands k k' structs) (kept : sock.local_ = some a) :
      PortCall pton address.port structs a
  | connect {s left : SocketT} {address a : InAddressPort} {ans : Answer} {k k' : Kernel}
      {sock : ActiveSocket} {structs : List SockAddr}
      (ok : s.connect address ans k = (some sock, left, k')) (hands : Hands k k' structs)
      (kept : sock.remote = some a) : PortCall pton address.port structs a
  | connectBinded {s left : BindedSocket} {address a : InAddressPort} {ans : Answer}
      {k k' : Kernel} {sock : ActiveSocket} {structs : List SockAddr}
      (ok : s.connect address ans k = (some sock, left, k')) (hands : Hands k k' structs)
      (kept : sock.remote = some a) : PortCall pton address.port structs a
  | startLocal {proto : Proto} {w w' : World proto} {c : ClientId} {str : List UInt8}
      {port : UInt64} {ans : Except Errno Fd} {bound : Answer} {added : Bool} {a : InAddressPort}
      {structs : List SockAddr} (ok : w.startLocal pton c str port ans bound added = (true, w'))
      (hands : Hands w.kernel w'.kernel structs)
      (kept : (w'.clients c).state.local? = some a) : PortCall pton port structs a
  | clientConnect {proto : Proto} {w w' : World proto} {c : ClientId} {args dead : ConnectArgs}
      {ans : Answer} {a : InAddressPort} {structs : List SockAddr}
      (inactive : ∀ sock, (w.clients c).state ≠ .active sock)
      (ok : w.connect pton c args ans dead = (true, w'))
      (hands : Hands w.kernel w'.kernel structs)
      (kept : (w'.clients (w.statics.getD c)).remote = some a ∨
        (w'.clients (w.statics.getD c)).state.remote? = some a) :
      PortCall pton (frameOf w args dead).remotePort structs a
  | clientReconnect {proto : Proto} {w w' : World proto} {c : ClientId} {args dead : ConnectArgs}
      {ans : Answer} {a : InAddressPort} {sock : ActiveSocket} {data : List UInt8}
      {sent : Except Errno Nat} {call : SendCall} {sa : SockAddr}
      (active : (w.clients c).state = .active sock)
      (ok : w.connect pton c args ans dead = (true, w'))
      (kept : (w'.clients (w.statics.getD c)).remote = some a)
      (send : (w'.send (w.statics.getD c) data sent).2.1 = some call)
      (dest : call.dest = some sa) : PortCall pton args.remotePort [sa] a
  | start {proto : Proto} {h h' : Host proto} {based : proto.isConnectionless = false}
      {args : ServerArgs} {ans : Except Errno Fd} {bound listened : Answer} {added : Bool}
      {a : InAddressPort} {structs : List SockAddr}
      (ok : h.start pton based args ans bound listened added = (true, h'))
      (hands : Hands h.kernel h'.kernel structs) (kept : h'.server.state.local? = some a) :
      PortCall pton args.port structs a
  | startConnectionless {proto : Proto} {h h' : Host proto}
      {connectionless : proto.isConnectionless = true} {str : List UInt8} {port : UInt64}
      {onConn onClose : Option Callback} {ans : Except Errno Fd} {bound : Answer} {added : Bool}
      {a : InAddressPort} {structs : List SockAddr}
      (ok : h.startConnectionless pton connectionless str port onConn onClose ans bound added =
        (true, h'))
      (hands : Hands h.kernel h'.kernel structs) (kept : h'.server.state.local? = some a) :
      PortCall pton port structs a

theorem Given.only {k k' : Kernel} {a : InAddressPort} {structs : List SockAddr}
    (given : Given k k' a) (hands : Hands k k' structs) :
    ∃ sa, structs = [sa] ∧ a.sockAddr = some sa := by
  obtain ⟨sa, hsa, h⟩ := given
  exact ⟨sa, hands.unique h, hsa⟩

/-- The port is kept as it is, and the kernel is given the structure of the address that is kept. -/
theorem PortCall.spec {pton : InetPton} {port : UInt64} {structs : List SockAddr}
    {a : InAddressPort} (call : PortCall pton port structs a) :
    a.port = port ∧ ∃ sa, structs = [sa] ∧ a.sockAddr = some sa := by
  cases call with
  | bind ok hands =>
    obtain ⟨hkept, hgiven⟩ := SocketT.bind_given ok
    rw [hkept]
    exact ⟨rfl, Given.only hgiven hands⟩
  | bindConnectionless ok hands kept =>
    obtain ⟨hkept, hgiven⟩ := SocketT.bindConnectionless_given ok
    cases kept.symm.trans hkept
    exact ⟨rfl, Given.only hgiven hands⟩
  | connect ok hands kept =>
    obtain ⟨hkept, hgiven⟩ := SocketT.connect_given ok
    cases kept.symm.trans hkept
    exact ⟨rfl, Given.only hgiven hands⟩
  | connectBinded ok hands kept =>
    obtain ⟨hkept, hgiven⟩ := BindedSocket.connect_given ok
    cases kept.symm.trans hkept
    exact ⟨rfl, Given.only hgiven hands⟩
  | startLocal ok hands kept =>
    obtain ⟨b, hport, hkept, hgiven⟩ := startLocal_given ok
    cases kept.symm.trans hkept
    exact ⟨hport, Given.only hgiven hands⟩
  | clientConnect inactive ok hands kept =>
    obtain ⟨b, hport, hremote, hsock, hgiven⟩ := connect_given inactive ok
    obtain rfl : a = b := by
      rcases kept with kept | kept
      · exact Option.some.inj (kept.symm.trans hremote)
      · exact Option.some.inj (kept.symm.trans hsock)
    exact ⟨hport, Given.only hgiven hands⟩
  | clientReconnect active ok kept send dest =>
    obtain ⟨b, hport, hkept⟩ := (connect_active active _ _ _).2 _ ok
    cases kept.symm.trans hkept
    obtain ⟨remote, hremote, hsa⟩ := send_dest send dest
    cases kept.symm.trans hremote
    exact ⟨hport, _, rfl, hsa⟩
  | start ok hands kept =>
    obtain ⟨b, hport, hkept, hgiven⟩ := start_given ok
    cases kept.symm.trans hkept
    exact ⟨hport, Given.only hgiven hands⟩
  | startConnectionless ok hands kept =>
    obtain ⟨b, hport, hkept, hgiven⟩ := startConnectionless_given ok
    cases kept.symm.trans hkept
    exact ⟨hport, Given.only hgiven hands⟩

/-- The kernel is given the port that is kept exactly when it has 16 bits.  A `connect` on a
connected client gives the kernel nothing by itself. -/
theorem port_kept (pton : InetPton) :
    (∀ port structs a, PortCall pton port structs a →
      a.port = port ∧ structs ≠ [] ∧
        ((∀ sa ∈ structs, sa.hostPort = a.port.toNat) ↔ port.toNat < 65536)) ∧
      ∀ (proto : Proto) (w : World proto) (c : ClientId) (sock : ActiveSocket)
        (args dead : ConnectArgs) (ans : Answer), (w.clients c).state = .active sock →
          (w.connect pton c args ans dead).2.kernel = w.kernel := by
  refine ⟨fun port structs a call => ?_,
    fun proto w c sock args dead ans active => (connect_active active args dead ans).1⟩
  obtain ⟨rfl, sa, rfl, hsa⟩ := call.spec
  refine ⟨rfl, by simp, ?_⟩
  rw [List.forall_mem_singleton, InAddressPort.sockAddr_hostPort hsa]
  omega

theorem udp_connectionless : udp.isConnectionless = true := rfl

/-- `start("127.0.0.1", port)` of a new server without connections. -/
def startAt (port : UInt64) : Bool × Host udp :=
  (Host.initial AfInet.ipv4.toInt none).startConnectionless loopbackPton udp_connectionless
    [49, 50, 55, 46, 48, 46, 48, 46, 49] port none none (.ok 3) (.ok ()) true

/-- The structures that the kernel is given. -/
def startStructs (port : UInt64) : List SockAddr :=
  (startAt port).2.kernel.log.filterMap SysCall.addr?

theorem portCall_startAt {port : UInt64} {a : InAddressPort} (ok : (startAt port).1 = true)
    (kept : (startAt port).2.server.state.local? = some a) :
    PortCall loopbackPton port (startStructs port) a :=
  .startConnectionless (Prod.ext ok rfl) ⟨_, (List.append_nil _).symm, rfl⟩ kept

theorem port_kept_loopback :
    ∃ a : InAddressPort, a.port = 80 ∧ startStructs 80 ≠ [] ∧
      ((∀ sa ∈ startStructs 80, sa.hostPort = a.port.toNat) ↔ (80 : UInt64).toNat < 65536) :=
  ⟨_, (port_kept loopbackPton).1 80 _ _ (portCall_startAt (by decide) rfl)⟩

/-- The server keeps 65616, and the kernel is given 80. -/
theorem wide_port_cut :
    ((startAt 65616).2.server.state.local?.map fun a => a.port) = some 65616 ∧
      (startStructs 65616).map SockAddr.hostPort = [80] ∧
      ¬∀ pton port structs a, PortCall pton port structs a → port ≠ 0 →
        ∀ sa ∈ structs, sa.hostPort = a.port.toNat := by
  have hstructs : (startStructs 65616).map SockAddr.hostPort = [80] := by decide
  refine ⟨by decide, hstructs, fun h => ?_⟩
  have hall := h loopbackPton 65616 _ _ (portCall_startAt (by decide) rfl) (by decide)
  exact absurd hall (by decide)

end TypedSockets.Endpoint
