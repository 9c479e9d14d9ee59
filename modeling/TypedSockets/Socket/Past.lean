import TypedSockets.Socket.Calls

/-! What one call records in the past of a descriptor: a transition returns true exactly when its
call becomes part of it, and the calls that open and close descriptors leave the others alone. -/

namespace TypedSockets.Socket

open TypedSockets.Epoll

/-- A call that returns true exactly when it becomes part of the past of the descriptor. -/
def Records (k : Kernel) (fd? : Option Fd) (op : FdOp → Prop) (call : Bool × Kernel) : Prop :=
  (∃ fd past done, fd? = some fd ∧ op done ∧ k.fds fd = some past ∧ call.1 = true ∧
    call.2.fds = Function.update k.fds fd (some (past ++ [done]))) ∨
  call.1 = false ∧ call.2.fds = k.fds

theorem Kernel.record_fds {k : Kernel} {fd : Fd} {past : List FdOp} (h : k.fds fd = some past)
    (op : FdOp) : (k.record fd op).fds = Function.update k.fds fd (some (past ++ [op])) := by
  simp [Kernel.record, h]

theorem Kernel.apply_records (k : Kernel) (c : SysCall) (fd : Fd) {op : FdOp → Prop} {done : FdOp}
    (h : op done) (ans : Answer) : Records k (some fd) op ((k.issue c).apply fd done ans) := by
  unfold Kernel.apply
  rcases ans with e | ⟨⟨⟩⟩
  · exact Or.inr ⟨rfl, rfl⟩
  · simp only
    split_ifs with hopen
    · obtain ⟨past, hpast⟩ := Kernel.open_iff.mp hopen
      exact Or.inl ⟨fd, past, done, rfl, h, hpast, rfl, Kernel.record_fds hpast done⟩
    · exact Or.inr ⟨rfl, rfl⟩

namespace SocketImpl

theorem bind_records (impl : SocketImpl) (local_ : InAddressPort) (ans : Answer) (k : Kernel) :
    Records k impl.fd (fun op => ∃ sa, local_.sockAddr = some sa ∧ op = .bind sa)
      (impl.bind local_ ans k) := by
  unfold SocketImpl.bind
  split
  · rename_i sa fd hsa hfd
    rw [hfd]
    exact k.apply_records (.bind fd sa) fd ⟨sa, hsa, rfl⟩ ans
  · exact Or.inr ⟨rfl, rfl⟩

theorem listen_records (impl : SocketImpl) (maxConn : UInt32) (ans : Answer) (k : Kernel) :
    Records k impl.fd (fun op => op = .listen (backlog maxConn)) (impl.listen maxConn ans k) := by
  unfold SocketImpl.listen
  split
  · rename_i fd hfd
    rw [hfd]
    exact k.apply_records (.listen fd (backlog maxConn)) fd (by rfl) ans
  · exact Or.inr ⟨rfl, rfl⟩

theorem connect_records (impl : SocketImpl) (remote : InAddressPort) (ans : Answer) (k : Kernel) :
    Records k impl.fd (fun op => ∃ sa, remote.sockAddr = some sa ∧ op = .connect sa)
      (impl.connect remote ans k) := by
  unfold SocketImpl.connect
  cases hsa : remote.sockAddr with
  | none => exact Or.inr ⟨rfl, rfl⟩
  | some sa =>
    cases hfd : impl.fd with
    | none => cases ans <;> exact Or.inr ⟨rfl, rfl⟩
    | some fd =>
      by_cases hopen : k.Open fd
      · obtain ⟨past, hpast⟩ := Kernel.open_iff.mp hopen
        have recorded := Kernel.record_fds (k := k.issue (.connect (some fd) sa)) hpast
          (.connect sa)
        have went {zero : Bool} {k' : Kernel} (htrue : zero = true) (hk : k'.fds = _) :
            Records k (some fd) (fun op => ∃ sa', some sa = some sa' ∧ op = .connect sa')
              (zero, k') :=
          Or.inl ⟨fd, past, .connect sa, rfl, ⟨sa, rfl, rfl⟩, hpast, htrue, hk.trans recorded⟩
        rcases ans with e | ⟨⟨⟩⟩
        · by_cases he : e = eInProgress
          · subst he
            simp only [Kernel.connect, Kernel.open_issue, hopen, and_self, ↓reduceIte]
            exact went rfl rfl
          · simp only [Kernel.connect, he, false_and, ↓reduceIte]
            exact Or.inr ⟨by simp [Kernel.fail, he], rfl⟩
        · simp only [Kernel.connect, Kernel.apply, Kernel.open_issue, hopen, ↓reduceIte]
          exact went (by simp) rfl
      · have hbadf : (eBadf == eInProgress) = false := rfl
        rcases ans with e | ⟨⟨⟩⟩
        · by_cases he : e = eInProgress
          · simp only [Kernel.connect, Kernel.open_issue, hopen, and_false, he, ↓reduceIte]
            exact Or.inr ⟨by simp [Kernel.fail, hbadf], rfl⟩
          · simp only [Kernel.connect, he, false_and, ↓reduceIte]
            exact Or.inr ⟨by simp [Kernel.fail, he], rfl⟩
        · simp only [Kernel.connect, Kernel.apply, Kernel.open_issue, hopen, ↓reduceIte]
          exact Or.inr ⟨by simp [Kernel.fail, hbadf], rfl⟩

/-- On an open descriptor `bind` succeeds when the kernel says so, for an address of the two
families. -/
theorem bind_goes {impl : SocketImpl} {k : Kernel} (sound : ∀ fd, impl.fd = some fd → k.Open fd)
    (local_ : InAddressPort) (ans : Answer) :
    (impl.bind local_ ans k).1 = true ↔
      ans = .ok () ∧ impl.fd.isSome ∧ local_.sockAddr.isSome := by
  unfold SocketImpl.bind
  cases hfd : impl.fd with
  | none => cases local_.sockAddr <;> simp
  | some fd =>
    have hopen := sound fd hfd
    cases local_.sockAddr with
    | none => simp
    | some sa => rcases ans with e | ⟨⟨⟩⟩ <;> simp [Kernel.bind, Kernel.apply, hopen]

theorem connect_goes {impl : SocketImpl} {k : Kernel}
    (sound : ∀ fd, impl.fd = some fd → k.Open fd) (remote : InAddressPort) (ans : Answer) :
    (impl.connect remote ans k).1 = true ↔
      (ans = .ok () ∨ ans = .error eInProgress) ∧ impl.fd.isSome ∧ remote.sockAddr.isSome := by
  unfold SocketImpl.connect
  cases remote.sockAddr with
  | none => simp
  | some sa =>
    cases hfd : impl.fd with
    | none => simp
    | some fd =>
      have hopen := sound fd hfd
      rcases ans with e | ⟨⟨⟩⟩
      · by_cases he : e = eInProgress
        · simp [Kernel.connect, hopen, he, Kernel.fail]
        · simp [Kernel.connect, he, Kernel.fail]
      · simp [Kernel.connect, Kernel.apply, hopen]

/-- `accept` opens a descriptor whose past starts with it, or changes no descriptor. -/
theorem accept_fds (impl : SocketImpl) (ans : Except Errno (Fd × FilledAddr)) (k : Kernel) :
    (∃ fd new peer remote k', impl.fd = some fd ∧ parseAddr peer = some remote ∧ ¬k.Open new ∧
      impl.accept ans k = (some (⟨some new, impl.family⟩, remote), k') ∧
      k'.fds = Function.update k.fds new (some [.accept fd peer])) ∨
    ∃ k', impl.accept ans k = (none, k') ∧ k'.fds = k.fds := by
  unfold SocketImpl.accept
  split_ifs
  · cases hfd : impl.fd with
    | none => exact Or.inr ⟨k, rfl, rfl⟩
    | some fd =>
      rcases ans with e | ⟨new, peer⟩
      · exact Or.inr ⟨_, rfl, rfl⟩
      · have hcases := (k.issue (.accept fd)).install_cases (.accept fd peer) (.ok new)
        obtain ⟨remote, hremote⟩ := Option.isSome_iff_exists.mp (parseAddr_isSome peer)
        rcases hinst : (k.issue (.accept fd)).install (.accept fd peer) (.ok new) with ⟨r, k'⟩
        rw [hinst] at hcases
        simp only [Kernel.accept4, hinst]
        rcases hcases with ⟨fd', rfl, -, fresh, hfds⟩ | ⟨rfl, hfds⟩
        · exact Or.inl ⟨fd, fd', peer, remote, k', rfl, hremote, fresh, by simp [hremote], hfds⟩
        · exact Or.inr ⟨k', rfl, hfds⟩
  · exact Or.inr ⟨k, rfl, rfl⟩

theorem destroy_fds (impl : SocketImpl) (k : Kernel) {fd : Fd} (h : impl.fd ≠ some fd) :
    (impl.destroy k).fds fd = k.fds fd := by
  unfold SocketImpl.destroy SocketImpl.close SocketImpl.empty
  cases hfd : impl.fd with
  | none => rfl
  | some held =>
    have hne : fd ≠ held := by
      rintro rfl
      exact h hfd
    simp [hne]

end SocketImpl

theorem SocketT.create_fds (proto : Proto) (af : Int) (ans : Except Errno Fd) (k : Kernel) :
    (∃ fd k', ¬k.Open fd ∧ SocketT.create proto af ans k = (some ⟨⟨some fd, af⟩⟩, k') ∧
      k'.fds = Function.update k.fds fd
        (some [.socket af (sockNonblock ||| proto.type) (proto.flags.getD 0)])) ∨
    ∃ k', SocketT.create proto af ans k = (none, k') ∧ k'.fds = k.fds := by
  have hcases := (k.issue (.socket af (sockNonblock ||| proto.type) (proto.flags.getD 0))).install_cases
    (.socket af (sockNonblock ||| proto.type) (proto.flags.getD 0)) ans
  unfold SocketT.create SocketImpl.openFd Kernel.socket
  rcases hinst : (k.issue (.socket af (sockNonblock ||| proto.type) (proto.flags.getD 0))).install
    (.socket af (sockNonblock ||| proto.type) (proto.flags.getD 0)) ans with ⟨r, k'⟩
  rw [hinst] at hcases
  rcases hcases with ⟨fd, rfl, -, fresh, hfds⟩ | ⟨rfl, hfds⟩
  · exact Or.inl ⟨fd, k', fresh, rfl, hfds⟩
  · exact Or.inr ⟨k', rfl, hfds⟩

/-- A socket is created exactly when the kernel answers with a descriptor that it can give. -/
theorem SocketT.create_isSome (proto : Proto) (af : Int) (ans : Except Errno Fd) (k : Kernel) :
    (SocketT.create proto af ans k).1.isSome ↔ ∃ fd, ans = .ok fd ∧ 0 ≤ fd ∧ ¬k.Open fd := by
  unfold SocketT.create SocketImpl.openFd Kernel.socket Kernel.install
  cases ans with
  | error e => simp
  | ok fd =>
    by_cases h : 0 ≤ fd ∧ ¬k.Open fd
    · simp [h]
    · simp [h]

theorem SocketT.create_eq (proto : Proto) (af : Int) {ans : Except Errno Fd} {k : Kernel}
    {sock : SocketT} (h : (SocketT.create proto af ans k).1 = some sock) :
    ∃ fd, ans = .ok fd ∧ 0 ≤ fd ∧ ¬k.Open fd ∧ sock = ⟨⟨some fd, af⟩⟩ := by
  obtain ⟨fd, rfl, hpos, hopen⟩ := (SocketT.create_isSome proto af ans k).mp (by rw [h]; rfl)
  refine ⟨fd, rfl, hpos, hopen, ?_⟩
  simpa [SocketT.create, SocketImpl.openFd, Kernel.socket, Kernel.install, hpos, hopen, eq_comm]
    using h

theorem EpollT.create_fds (queueSize : Int) (maxEvents : Nat) (ans : Except Errno Fd) (k : Kernel)
    {fd : Fd} (hopen : k.Open fd) :
    (EpollT.create queueSize maxEvents ans k).2.fds fd = k.fds fd := by
  rw [EpollT.create_kernel, Kernel.epollCreate]
  rcases (k.issue (.epollCreate queueSize)).install_cases .epollCreate ans with
    ⟨new, -, -, fresh, hfds⟩ | ⟨-, hfds⟩
  · have hne : fd ≠ new := by
      rintro rfl
      exact fresh hopen
    rw [hfds, Function.update_of_ne hne, Kernel.issue_fds]
  · rw [hfds, Kernel.issue_fds]

theorem Obj.destroy_fds (o : Obj) (k : Kernel) {fd : Fd} (h : o.fd? ≠ some fd) :
    (o.destroy k).fds fd = k.fds fd := by
  cases o with
  | epoll e =>
    simp only [Obj.destroy, EpollT.destroy]
    split_ifs with hfd
    · have hne : fd ≠ e.fd := by
        rintro rfl
        exact h (by simp [Obj.fd?, hfd])
      simp [hne]
    · rfl
  | _ => exact SocketImpl.destroy_fds _ k h

/-- An assignment closes at most the descriptor of its target. -/
theorem Program.assigned_fds (k : Kernel) (old new : Option Obj) {fd : Fd}
    (h : old.bind Obj.fd? ≠ some fd) : (Program.assigned k old new).fds fd = k.fds fd := by
  cases old with
  | none => cases new <;> rfl
  | some old =>
    cases new with
    | none => exact old.destroy_fds k h
    | some new =>
      simp only [Program.assigned]
      split_ifs
      · rfl
      · exact old.destroy_fds k h

end TypedSockets.Socket
