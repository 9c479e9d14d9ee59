import TypedSockets.Endpoint.Server
import TypedSockets.Socket.Past

/-! A `start` that returns false.  Whatever failed, the descriptor that it opened is closed again,
and nothing else than `errno` and the log of the calls has changed. -/

namespace TypedSockets.Socket

theorem Records.failed {k k' : Kernel} {fd? : Option Fd} {op : FdOp → Prop}
    (h : Records k fd? op (false, k')) : k'.fds = k.fds := by
  rcases h with ⟨-, -, -, -, -, -, hfalse, -⟩ | ⟨-, hfds⟩
  · cases hfalse
  · exact hfds

theorem Records.elsewhere {k : Kernel} {fd : Fd} {op : FdOp → Prop} {call : Bool × Kernel}
    (h : Records k (some fd) op call) {fd' : Fd} (hne : fd' ≠ fd) :
    call.2.fds fd' = k.fds fd' := by
  rcases h with ⟨fd'', past, done, hfd, -, -, -, hfds⟩ | ⟨-, hfds⟩
  · cases hfd
    rw [hfds, Function.update_of_ne hne]
  · rw [hfds]

/-- `fd` is the one descriptor opened between two states of the kernel. -/
structure OpenedOne (k k' : Kernel) (fd : Fd) : Prop where
  fresh : k.fds fd = none
  elsewhere : ∀ fd' ≠ fd, k'.fds fd' = k.fds fd'

/-- The destructor of the socket that holds it undoes the opening. -/
theorem OpenedOne.destroy {k k' : Kernel} {fd : Fd} (opened : OpenedOne k k' fd) (family : Int) :
    ((⟨some fd, family⟩ : SocketImpl).destroy k').fds = k.fds := by
  change Function.update k'.fds fd none = k.fds
  funext fd'
  by_cases h : fd' = fd
  · rw [h, Function.update_self, opened.fresh]
  · rw [Function.update_of_ne h, opened.elsewhere fd' h]

theorem OpenedOne.call {k k' : Kernel} {fd : Fd} (opened : OpenedOne k k' fd) {op : FdOp → Prop}
    {call : Bool × Kernel} (h : Records k' (some fd) op call) : OpenedOne k call.2 fd :=
  ⟨opened.fresh, fun fd' hne => (h.elsewhere hne).trans (opened.elsewhere fd' hne)⟩

/-- A socket was created under one more descriptor, or nothing was opened. -/
theorem SocketT.create_opened {proto : Proto} {af : Int} {ans : Except Errno Fd} {k k' : Kernel}
    {r : Option SocketT} (h : SocketT.create proto af ans k = (r, k')) :
    (∃ fd, r = some ⟨⟨some fd, af⟩⟩ ∧ OpenedOne k k' fd) ∨ r = none ∧ k'.fds = k.fds := by
  rcases SocketT.create_fds proto af ans k with
    ⟨fd, k'', fresh, hcreate, hfds⟩ | ⟨k'', hcreate, hfds⟩
  · rw [hcreate] at h
    cases h
    refine Or.inl ⟨fd, rfl, by simpa [Kernel.Open] using fresh, fun fd' hne => ?_⟩
    rw [hfds, Function.update_of_ne hne]
  · rw [hcreate] at h
    cases h
    exact Or.inr ⟨rfl, hfds⟩

end TypedSockets.Socket

namespace TypedSockets.Endpoint

open TypedSockets.Socket TypedSockets.Epoll

variable {proto : Proto}

theorem createBound_failed {af : Int} {local_ : InAddressPort} {ans : Except Errno Fd}
    {bound : Answer} {k k' : Kernel}
    (h : World.createBound proto af local_ ans bound k = (none, k')) : k'.fds = k.fds := by
  unfold World.createBound at h
  rcases hcreate : SocketT.create proto af ans k with ⟨r, k1⟩
  rw [hcreate] at h
  rcases SocketT.create_opened hcreate with ⟨fd, rfl, opened⟩ | ⟨rfl, hfds⟩
  · have hrecords := SocketImpl.bind_records ⟨some fd, af⟩ local_ bound k1
    rcases hbind : (⟨some fd, af⟩ : SocketImpl).bind local_ bound k1 with ⟨ok, k2⟩
    rw [hbind] at hrecords
    have opened2 := opened.call hrecords
    cases ok with
    | true =>
      simp only [SocketT.bind, SocketT.bindConnectionless, hbind] at h
      split_ifs at h <;> cases h
    | false =>
      simp only [SocketT.bind, SocketT.bindConnectionless, hbind] at h
      split_ifs at h <;> cases h <;> exact opened2.destroy af
  · cases h
    exact hfds

theorem createActive_failed {af : Int} {local_ : InAddressPort} {ans : Except Errno Fd}
    {bound : Answer} {k k' : Kernel}
    (h : Host.createActive proto af local_ ans bound k = (none, k')) : k'.fds = k.fds := by
  unfold Host.createActive at h
  rcases hcreate : SocketT.create proto af ans k with ⟨r, k1⟩
  rw [hcreate] at h
  rcases SocketT.create_opened hcreate with ⟨fd, rfl, opened⟩ | ⟨rfl, hfds⟩
  · have hrecords := SocketImpl.bind_records ⟨some fd, af⟩ local_ bound k1
    rcases hbind : (⟨some fd, af⟩ : SocketImpl).bind local_ bound k1 with ⟨ok, k2⟩
    rw [hbind] at hrecords
    have opened2 := opened.call hrecords
    cases ok with
    | true => simp [SocketT.bindConnectionless, hbind] at h
    | false =>
      simp only [SocketT.bindConnectionless, hbind] at h
      cases h
      exact opened2.destroy af
  · cases h
    exact hfds

/-- `listen` fails on the bound socket, which closes the descriptor.  The socket that was bound was
moved from, and closes nothing. -/
theorem createListener_failed {af : Int} {local_ : InAddressPort} {maxConns : UInt32}
    {ans : Except Errno Fd} {bound listened : Answer} {k k' : Kernel}
    (h : Host.createListener proto af local_ maxConns ans bound listened k = (none, k')) :
    k'.fds = k.fds := by
  unfold Host.createListener at h
  rcases hcreate : SocketT.create proto af ans k with ⟨r, k1⟩
  rw [hcreate] at h
  rcases SocketT.create_opened hcreate with ⟨fd, rfl, opened⟩ | ⟨rfl, hfds⟩
  · have hrecords := SocketImpl.bind_records ⟨some fd, af⟩ local_ bound k1
    rcases hbind : (⟨some fd, af⟩ : SocketImpl).bind local_ bound k1 with ⟨ok, k2⟩
    rw [hbind] at hrecords
    have opened2 := opened.call hrecords
    cases ok with
    | false =>
      simp only [SocketT.bind, hbind] at h
      cases h
      exact opened2.destroy af
    | true =>
      simp only [SocketT.bind, hbind] at h
      have hlistened := SocketImpl.listen_records ⟨some fd, af⟩ maxConns listened k2
      rcases hlisten : (⟨some fd, af⟩ : SocketImpl).listen maxConns listened k2 with ⟨ok, k3⟩
      rw [hlisten] at hlistened
      have opened3 := opened2.call hlistened
      cases ok with
      | true => simp [BindedSocket.listen, hlisten] at h
      | false =>
        simp only [BindedSocket.listen, hlisten] at h
        cases h
        exact opened3.destroy af
  · cases h
    exact hfds

/-- Nothing but the kernel changed, and in the kernel no descriptor. -/
def World.NoTrace (w w' : World proto) : Prop :=
  w' = { w with kernel := w'.kernel } ∧ w'.kernel.fds = w.kernel.fds

def Host.NoTrace (h h' : Host proto) : Prop :=
  h' = { h with kernel := h'.kernel } ∧ h'.kernel.fds = h.kernel.fds

theorem World.start_failed {w : World proto} {c : ClientId} {ans : Except Errno Fd} {added : Bool}
    (h : (w.start c ans added).1 = false) : w.NoTrace (w.start c ans added).2 := by
  unfold World.start at h ⊢
  split_ifs at h ⊢ with hidle
  · rcases hcreate : SocketT.create proto (w.clients c).af ans w.kernel with ⟨_ | sock, k⟩
    · rcases SocketT.create_opened hcreate with ⟨fd, hsome, -⟩ | ⟨-, hfds⟩
      · cases hsome
      · exact ⟨rfl, hfds⟩
    · simp [hcreate] at h
  · exact ⟨rfl, rfl⟩

theorem World.startLocal_failed {pton : InetPton} {w : World proto} {c : ClientId}
    {address : List UInt8} {port : UInt64} {ans : Except Errno Fd} {bound : Answer} {added : Bool}
    (h : (w.startLocal pton c address port ans bound added).1 = false) :
    w.NoTrace (w.startLocal pton c address port ans bound added).2 := by
  unfold World.startLocal at h ⊢
  split_ifs at h ⊢ with hidle
  · cases hparse : fromStringAndPort pton address port with
    | none => exact ⟨rfl, rfl⟩
    | some addr =>
      simp only [hparse] at h ⊢
      rcases hcreate : World.createBound proto (w.clients c).af addr ans bound w.kernel with
        ⟨_ | sock, k⟩
      · exact ⟨rfl, createBound_failed hcreate⟩
      · simp [hcreate] at h
  · exact ⟨rfl, rfl⟩

theorem Host.start_failed {pton : InetPton} {h : Host proto} {based : proto.isConnectionless = false}
    {args : ServerArgs} {ans : Except Errno Fd} {bound listened : Answer} {added : Bool}
    (failed : (h.start pton based args ans bound listened added).1 = false) :
    h.NoTrace (h.start pton based args ans bound listened added).2 := by
  unfold Host.start at failed ⊢
  split_ifs at failed ⊢ with hidle
  · cases hparse : fromStringAndPort pton args.address args.port with
    | none => exact ⟨rfl, rfl⟩
    | some addr =>
      simp only [hparse] at failed ⊢
      rcases hcreate : Host.createListener proto h.server.af addr args.maxConns ans bound listened
        h.kernel with ⟨_ | listener, k⟩
      · exact ⟨rfl, createListener_failed hcreate⟩
      · simp [hcreate] at failed
  · exact ⟨rfl, rfl⟩

theorem Host.startConnectionless_failed {pton : InetPton} {h : Host proto}
    {connectionless : proto.isConnectionless = true} {address : List UInt8} {port : UInt64}
    {onConn onClose : Option Callback} {ans : Except Errno Fd} {bound : Answer} {added : Bool}
    (failed : (h.startConnectionless pton connectionless address port onConn onClose ans bound
      added).1 = false) :
    h.NoTrace (h.startConnectionless pton connectionless address port onConn onClose ans bound
      added).2 := by
  unfold Host.startConnectionless at failed ⊢
  split_ifs at failed ⊢ with hidle
  · cases hparse : fromStringAndPort pton address port with
    | none => exact ⟨rfl, rfl⟩
    | some addr =>
      simp only [hparse] at failed ⊢
      rcases hcreate : Host.createActive proto h.server.af addr ans bound h.kernel with
        ⟨_ | active, k⟩
      · exact ⟨rfl, createActive_failed hcreate⟩
      · simp [hcreate] at failed
  · exact ⟨rfl, rfl⟩

/-- A `start` of a client or of a server that returns false leaves no trace, whatever state the
endpoint was in and wherever it failed. -/
theorem failedStart_noTrace (pton : InetPton) :
    (∀ (w : World proto) c ans added,
      (w.start c ans added).1 = false → w.NoTrace (w.start c ans added).2) ∧
    (∀ (w : World proto) c address port ans bound added,
      (w.startLocal pton c address port ans bound added).1 = false →
        w.NoTrace (w.startLocal pton c address port ans bound added).2) ∧
    (∀ (h : Host proto) based args ans bound listened added,
      (h.start pton based args ans bound listened added).1 = false →
        h.NoTrace (h.start pton based args ans bound listened added).2) ∧
    ∀ (h : Host proto) connectionless address port onConn onClose ans bound added,
      (h.startConnectionless pton connectionless address port onConn onClose ans bound
        added).1 = false →
      h.NoTrace (h.startConnectionless pton connectionless address port onConn onClose ans bound
        added).2 :=
  ⟨fun _ _ _ _ => World.start_failed, fun _ _ _ _ _ _ _ => World.startLocal_failed,
    fun _ _ _ _ _ _ _ => Host.start_failed,
    fun _ _ _ _ _ _ _ _ _ => Host.startConnectionless_failed⟩

end TypedSockets.Endpoint
