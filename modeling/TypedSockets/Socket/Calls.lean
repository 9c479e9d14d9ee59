import TypedSockets.Socket.Leak

/-! The system calls that a statement issues, the objects that they are about, and that no
descriptor is closed while another object holds it. -/

namespace TypedSockets.Socket

open TypedSockets.Lib TypedSockets.Epoll

/-- At most one system call is issued, and it is as `P` says. -/
def Issues (k k' : Kernel) (P : SysCall → Prop) : Prop :=
  ∃ calls, k'.log = calls ++ k.log ∧ calls.length ≤ 1 ∧ ∀ c ∈ calls, P c

section

variable {k k' : Kernel} {P Q : SysCall → Prop}

theorem Issues.same (log : k'.log = k.log) : Issues k k' P := ⟨[], log, by simp, by simp⟩

theorem Issues.one {c : SysCall} (log : k'.log = c :: k.log) (h : P c) : Issues k k' P :=
  ⟨[c], log, by simp, by simpa⟩

theorem Issues.mono (h : Issues k k' P) (hpq : ∀ c, P c → Q c) : Issues k k' Q := by
  obtain ⟨calls, hlog, hone, hall⟩ := h
  exact ⟨calls, hlog, hone, fun c hc => hpq c (hall c hc)⟩

end

namespace Kernel

@[simp] theorem issue_log (k : Kernel) (c : SysCall) : (k.issue c).log = c :: k.log := rfl

@[simp] theorem fail_log (k : Kernel) (e : Errno) : (k.fail e).log = k.log := rfl

@[simp] theorem record_log (k : Kernel) (fd : Fd) (op : FdOp) : (k.record fd op).log = k.log := rfl

@[simp] theorem close_log (k : Kernel) (fd : Fd) : (k.close fd).log = .close fd :: k.log := rfl

@[simp] theorem install_log (k : Kernel) (op : FdOp) (ans : Except Errno Fd) :
    (k.install op ans).2.log = k.log := by
  unfold install
  split
  · split <;> rfl
  · rfl

@[simp] theorem apply_log (k : Kernel) (fd : Fd) (op : FdOp) (ans : Answer) :
    (k.apply fd op ans).2.log = k.log := by
  unfold apply
  split
  · split <;> rfl
  · rfl

@[simp] theorem connect_log (k : Kernel) (fd : Option Fd) (addr : SockAddr) (ans : Answer) :
    (k.connect fd addr ans).2.log = .connect fd addr :: k.log := by
  unfold Kernel.connect
  grind [apply_log, record_log, fail_log, issue_log]

@[simp] theorem accept4_log (k : Kernel) (fd : Fd) (ans : Except Errno (Fd × FilledAddr)) :
    (k.accept4 fd ans).2.log = .accept fd :: k.log := by
  unfold accept4
  cases ans with
  | error e => rfl
  | ok got =>
    have hlog := install_log (k.issue (.accept fd)) (.accept fd got.2) (.ok got.1)
    simp only
    split <;> rename_i heq <;> rw [heq] at hlog <;> exact hlog

end Kernel

/-! ### What one call issues -/

namespace SocketImpl

theorem bind_issues (impl : SocketImpl) (local_ : InAddressPort) (ans : Answer) (k : Kernel) :
    Issues k (impl.bind local_ ans k).2 fun c => ∃ fd sa, impl.fd = some fd ∧ c = .bind fd sa := by
  unfold SocketImpl.bind
  split
  · rename_i sa fd hsa hfd
    exact .one (by simp [Kernel.bind]) ⟨fd, sa, hfd, rfl⟩
  · exact .same rfl

theorem connect_issues (impl : SocketImpl) (remote : InAddressPort) (ans : Answer) (k : Kernel) :
    Issues k (impl.connect remote ans k).2 fun c => ∃ sa, c = .connect impl.fd sa := by
  unfold SocketImpl.connect
  split
  · rename_i sa hsa
    exact .one (by simp) ⟨sa, rfl⟩
  · exact .same rfl

theorem listen_issues (impl : SocketImpl) (maxConn : UInt32) (ans : Answer) (k : Kernel) :
    Issues k (impl.listen maxConn ans k).2 fun c =>
      ∃ fd n, impl.fd = some fd ∧ c = .listen fd n := by
  unfold SocketImpl.listen
  split
  · rename_i fd hfd
    exact .one (by simp [Kernel.listen]) ⟨fd, backlog maxConn, hfd, rfl⟩
  · exact .same rfl

theorem accept_issues (impl : SocketImpl) (ans : Except Errno (Fd × FilledAddr)) (k : Kernel) :
    Issues k (impl.accept ans k).2 fun c => ∃ fd, impl.fd = some fd ∧ c = .accept fd := by
  unfold SocketImpl.accept
  split_ifs
  · split
    · rename_i fd hfd
      have hlog := Kernel.accept4_log k fd ans
      split
      · rename_i new peer k' heq
        rw [heq] at hlog
        obtain ⟨remote, hremote⟩ := Option.isSome_iff_exists.mp (parseAddr_isSome peer)
        rw [hremote]
        exact .one hlog ⟨fd, hfd, rfl⟩
      · rename_i k' heq
        rw [heq] at hlog
        exact .one hlog ⟨fd, hfd, rfl⟩
    · exact .same rfl
  · exact .same rfl

theorem destroy_issues (impl : SocketImpl) (k : Kernel) :
    Issues k (impl.destroy k) fun c => ∃ fd, impl.fd = some fd ∧ c = .close fd := by
  unfold SocketImpl.destroy SocketImpl.close SocketImpl.empty
  cases h : impl.fd with
  | none => exact .same rfl
  | some fd => exact .one rfl ⟨fd, rfl, rfl⟩

end SocketImpl

theorem Kernel.socket_issues (k : Kernel) (family : Int) (type protocol : Nat)
    (ans : Except Errno Fd) :
    Issues k (k.socket family type protocol ans).2 fun c => c = .socket family type protocol :=
  .one (by simp [Kernel.socket]) rfl

theorem SocketT.create_kernel (proto : Proto) (af : Int) (ans : Except Errno Fd) (k : Kernel) :
    (SocketT.create proto af ans k).2 =
      (k.socket af (sockNonblock ||| proto.type) (proto.flags.getD 0) ans).2 := by
  unfold SocketT.create SocketImpl.openFd
  rcases k.socket af (sockNonblock ||| proto.type) (proto.flags.getD 0) ans with ⟨_ | fd, k'⟩ <;> rfl

theorem EpollT.create_kernel (queueSize : Int) (maxEvents : Nat) (ans : Except Errno Fd)
    (k : Kernel) :
    (EpollT.create queueSize maxEvents ans k).2 = (k.epollCreate queueSize ans).2 := by
  unfold EpollT.create
  rcases k.epollCreate queueSize ans with ⟨_ | fd, k'⟩ <;> rfl

theorem SocketT.bind_kernel (s : SocketT) (local_ : InAddressPort) (ans : Answer) (k : Kernel) :
    (s.bind local_ ans k).2.2 = (s.impl.bind local_ ans k).2 := by
  unfold SocketT.bind
  rcases s.impl.bind local_ ans k with ⟨_ | _, k'⟩ <;> rfl

theorem SocketT.bindConnectionless_kernel (s : SocketT) (local_ : InAddressPort) (ans : Answer)
    (k : Kernel) : (s.bindConnectionless local_ ans k).2.2 = (s.impl.bind local_ ans k).2 := by
  unfold SocketT.bindConnectionless
  rcases s.impl.bind local_ ans k with ⟨_ | _, k'⟩ <;> rfl

theorem SocketT.connect_kernel (s : SocketT) (remote : InAddressPort) (ans : Answer) (k : Kernel) :
    (s.connect remote ans k).2.2 = (s.impl.connect remote ans k).2 := by
  unfold SocketT.connect
  rcases s.impl.connect remote ans k with ⟨_ | _, k'⟩ <;> rfl

theorem BindedSocket.connect_kernel (s : BindedSocket) (remote : InAddressPort) (ans : Answer)
    (k : Kernel) : (s.connect remote ans k).2.2 = (s.impl.connect remote ans k).2 := by
  unfold BindedSocket.connect
  rcases s.impl.connect remote ans k with ⟨_ | _, k'⟩ <;> rfl

theorem BindedSocket.listen_kernel (s : BindedSocket) (maxConn : UInt32) (ans : Answer)
    (k : Kernel) : (s.listen maxConn ans k).2.2 = (s.impl.listen maxConn ans k).2 := by
  unfold BindedSocket.listen
  rcases s.impl.listen maxConn ans k with ⟨_ | _, k'⟩ <;> rfl

theorem ListeningSocket.accept_kernel (s : ListeningSocket) (ans : Except Errno (Fd × FilledAddr))
    (k : Kernel) : (s.accept ans k).2 = (s.impl.accept ans k).2 := by
  unfold ListeningSocket.accept
  rcases s.impl.accept ans k with ⟨_ | _, k'⟩ <;> rfl

theorem Obj.destroy_issues (o : Obj) (k : Kernel) :
    Issues k (o.destroy k) fun c => ∃ fd, o.fd? = some fd ∧ c = .close fd := by
  cases o with
  | epoll e =>
    simp only [Obj.destroy, EpollT.destroy, Obj.fd?]
    by_cases h : e.fd = -1
    · simpa [h] using .same rfl
    · simpa [h] using .one rfl rfl
  | _ => exact SocketImpl.destroy_issues _ k

/-- The variable that a statement destroys, or whose object it replaces. -/
def Stmt.replaces : Stmt → Option ObjId
  | .moveAssign dst _ => some dst
  | .reset dst => some dst
  | .destroy dst => some dst
  | _ => none

namespace Program

/-- The object of a variable. -/
def object (p : Program) (i : ObjId) : Option Obj := (p.heap i).bind Cell.val

/-- The object that a system call of a statement that replaces the object of `target` may be about. -/
def Backed (p : Program) (target : Option ObjId) : SysCall → Prop
  | .bind fd _ => ∃ i proto s, p.object i = some (.socket proto s) ∧ s.impl.fd = some fd
  | .listen fd _ => ∃ i proto s, p.object i = some (.binded proto s) ∧ s.impl.fd = some fd
  | .connect fd _ => ∃ i proto,
      (∃ s, p.object i = some (.socket proto s) ∧ s.impl.fd = fd) ∨
        ∃ s, p.object i = some (.binded proto s) ∧ s.impl.fd = fd
  | .accept fd => ∃ i proto s, p.object i = some (.listening proto s) ∧ s.impl.fd = some fd
  | .close fd => ∃ i o, target = some i ∧ p.object i = some o ∧ o.fd? = some fd
  | .socket _ _ _ => True
  | .epollCreate _ => True

section

variable {p : Program} {dst src : ObjId} {c : Cell} {target : Option ObjId}

theorem object_eq (used : p.heap src = some c) {o : Obj} (hval : c.val = some o) :
    p.object src = some o := by
  rw [object, used, Option.bind_some, hval]

theorem bind_issues (used : p.heap src = some c) (addr : InAddressPort) (ans : Answer) :
    Issues p.kernel (p.bind dst src c addr ans).kernel (p.Backed target) := by
  unfold Program.bind
  split
  · rename_i proto s hval
    have backed := (s.impl.bind_issues addr ans p.kernel).mono (Q := p.Backed target) (by
      rintro _ ⟨fd, sa, hfd, rfl⟩
      exact ⟨src, proto, s, object_eq used hval, hfd⟩)
    split
    · simpa [transfer, SocketT.bindConnectionless_kernel] using backed
    · simpa [transfer, SocketT.bind_kernel] using backed
  · exact .same rfl

theorem listen_issues (used : p.heap src = some c) (maxConn : UInt32) (ans : Answer) :
    Issues p.kernel (p.listen dst src c maxConn ans).kernel (p.Backed target) := by
  unfold Program.listen
  split
  · rename_i proto s hval
    split
    · exact .same rfl
    · have backed := (s.impl.listen_issues maxConn ans p.kernel).mono (Q := p.Backed target) (by
        rintro _ ⟨fd, n, hfd, rfl⟩
        exact ⟨src, proto, s, object_eq used hval, hfd⟩)
      simpa [transfer, BindedSocket.listen_kernel] using backed
  · exact .same rfl

theorem connect_issues (used : p.heap src = some c) (remote : InAddressPort) (ans : Answer) :
    Issues p.kernel (p.connect dst src c remote ans).kernel (p.Backed target) := by
  unfold Program.connect
  split
  · rename_i proto s hval
    split
    · exact .same rfl
    · have backed := (s.impl.connect_issues remote ans p.kernel).mono (Q := p.Backed target) (by
        rintro _ ⟨sa, rfl⟩
        exact ⟨src, proto, Or.inl ⟨s, object_eq used hval, rfl⟩⟩)
      simpa [transfer, SocketT.connect_kernel] using backed
  · rename_i proto s hval
    split
    · exact .same rfl
    · have backed := (s.impl.connect_issues remote ans p.kernel).mono (Q := p.Backed target) (by
        rintro _ ⟨sa, rfl⟩
        exact ⟨src, proto, Or.inr ⟨s, object_eq used hval, rfl⟩⟩)
      simpa [transfer, BindedSocket.connect_kernel] using backed
  · exact .same rfl

theorem accept_issues (used : p.heap src = some c) (ans : Except Errno (Fd × FilledAddr)) :
    Issues p.kernel (p.accept dst c ans).kernel (p.Backed target) := by
  unfold Program.accept
  split
  · rename_i proto s hval
    split
    · exact .same rfl
    · have backed := (s.impl.accept_issues ans p.kernel).mono (Q := p.Backed target) (by
        rintro _ ⟨fd, hfd, rfl⟩
        exact ⟨src, proto, s, object_eq used hval, hfd⟩)
      simpa [define, ListeningSocket.accept_kernel] using backed
  · exact .same rfl

/-- An assignment closes at most what its target holds. -/
theorem assigned_issues (used : p.heap dst = some c) (new : Option Obj) :
    Issues p.kernel (assigned p.kernel c.val new) (p.Backed (some dst)) := by
  have closes {old : Obj} (hval : c.val = some old) :
      Issues p.kernel (old.destroy p.kernel) (p.Backed (some dst)) :=
    (old.destroy_issues p.kernel).mono (by
      rintro _ ⟨fd, hfd, rfl⟩
      exact ⟨dst, old, rfl, object_eq used hval, hfd⟩)
  cases hval : c.val with
  | none => cases new <;> exact .same rfl
  | some old =>
    cases new with
    | none => exact closes hval
    | some new =>
      simp only [assigned]
      split
      · exact .same rfl
      · exact closes hval

end

/-- A statement issues at most one system call, about an object that may make it. -/
theorem step_issues (p : Program) (st : Stmt) :
    Issues p.kernel (p.step st).kernel (p.Backed st.replaces) := by
  cases st with
  | create dst proto af ans =>
    cases hd : p.heap dst with
    | some d => simpa [step, hd] using .same rfl
    | none =>
      simp only [step, hd, define, SocketT.create_kernel]
      exact (p.kernel.socket_issues ..).mono (by rintro _ rfl; trivial)
  | epoll dst queueSize maxEvents ans =>
    cases hd : p.heap dst with
    | some d => simpa [step, hd] using .same rfl
    | none =>
      simp only [step, hd, define, EpollT.create_kernel]
      exact .one (c := .epollCreate queueSize) (by simp [Kernel.epollCreate]) trivial
  | bind dst src addr ans =>
    cases hd : p.heap dst <;> cases hs : p.heap src <;> simp only [step, hd, hs]
    case none.some c => exact bind_issues hs addr ans
    all_goals exact .same rfl
  | listen dst src maxConn ans =>
    cases hd : p.heap dst <;> cases hs : p.heap src <;> simp only [step, hd, hs]
    case none.some c => exact listen_issues hs maxConn ans
    all_goals exact .same rfl
  | connect dst src remote ans =>
    cases hd : p.heap dst <;> cases hs : p.heap src <;> simp only [step, hd, hs]
    case none.some c => exact connect_issues hs remote ans
    all_goals exact .same rfl
  | accept dst src ans =>
    cases hd : p.heap dst <;> cases hs : p.heap src <;> simp only [step, hd, hs]
    case none.some c => exact accept_issues hs ans
    all_goals exact .same rfl
  | wrap dst src remote =>
    refine .same ?_
    simp only [step, Program.wrap]
    grind [transfer]
  | moveConstruct dst type src =>
    refine .same ?_
    simp only [step]
    grind [transfer]
  | moveAssign dst src =>
    cases hd : p.heap dst <;> cases hs : p.heap src <;> simp only [step, hd, hs]
    case some.some d c =>
      unfold Program.moveAssign
      split_ifs
      · exact .same rfl
      · exact assigned_issues hd c.val
      · exact .same rfl
    all_goals exact .same rfl
  | reset dst =>
    cases hd : p.heap dst with
    | none => simpa [step, hd] using .same rfl
    | some d =>
      simp only [step, hd]
      split_ifs
      · exact assigned_issues hd none
      · exact .same rfl
  | destroy dst =>
    cases hd : p.heap dst with
    | none => simpa [step, hd] using .same rfl
    | some d =>
      simp only [step, hd]
      exact assigned_issues hd none

/-- The system calls that a statement issues. -/
def issued (p : Program) (st : Stmt) : List SysCall :=
  (p.step st).kernel.log.take ((p.step st).kernel.log.length - p.kernel.log.length)

theorem issued_backed (p : Program) (st : Stmt) :
    (p.issued st).length ≤ 1 ∧ ∀ c ∈ p.issued st, p.Backed st.replaces c := by
  obtain ⟨calls, hlog, hone, hall⟩ := p.step_issues st
  have hissued : p.issued st = calls := by simp [issued, hlog]
  rw [hissued]
  exact ⟨hone, hall⟩

/-! ### One owner -/

/-- Every descriptor is stored in at most one live object. -/
def OneOwner (p : Program) : Prop :=
  ∀ i j fd, (p.heap i).bind Cell.fd? = some fd → (p.heap j).bind Cell.fd? = some fd → i = j

/-- The statement closes at most one descriptor, which is open, and which the object that it destroys
or replaces stores and no other one. -/
def ClosesOwn (p : Program) (st : Stmt) : Prop :=
  (p.issued st).length ≤ 1 ∧ ∀ fd, .close fd ∈ p.issued st →
    p.kernel.Open fd ∧ ∃ i, st.replaces = some i ∧
      ∀ j, (p.heap j).bind Cell.fd? = some fd ↔ j = i

theorem closesOwn {p : Program} (h : p.owners.Exclusive) (st : Stmt) : p.ClosesOwn st := by
  obtain ⟨hone, hbacked⟩ := p.issued_backed st
  refine ⟨hone, fun fd hmem => ?_⟩
  obtain ⟨i, o, htarget, hobject, hfd⟩ := hbacked _ hmem
  obtain ⟨c, hc, hval⟩ := Option.bind_eq_some_iff.mp hobject
  have holds : p.owners.holds i = some fd := by
    simp [owners, hc, fd?_eq hval, hfd]
  exact ⟨h.sound i fd holds, i, htarget,
    fun j => ⟨fun hj => h.unique j i fd hj holds, fun hj => hj ▸ holds⟩⟩

/-- In every run each descriptor has at most one owner, and a statement closes only what its object
owns. -/
theorem oneOwner_run (sts : List Stmt) :
    Always next OneOwner initial sts ∧ Along next ClosesOwn initial sts := by
  have keep : ∀ p st p', p.owners.Exclusive → next p st = some p' → p'.owners.Exclusive := by
    rintro p st _ h ⟨⟩
    exact step_exclusive h st
  exact ⟨(Always.of_inv keep initial_exclusive sts).mono fun p h => h.unique,
    Along.of_inv keep (fun p st h => closesOwn h st) initial_exclusive sts⟩

end Program

end TypedSockets.Socket
