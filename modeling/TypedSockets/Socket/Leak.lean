import TypedSockets.Lib.Owners
import TypedSockets.Lib.Run
import TypedSockets.Socket.Objects

/-! Which variable holds which descriptor.  Every statement hands descriptors over, except the
assignment to an object of the same class that still holds one: it forgets that descriptor. -/

namespace TypedSockets.Socket

open TypedSockets.Lib TypedSockets.Epoll

/-! ### What one call does with its descriptor -/

/-- A call that opens and closes nothing; its descriptor goes with the result, or stays. -/
structure Passes (k k' : Kernel) (old result left : Option Fd) : Prop where
  opened : ∀ fd, k'.Open fd ↔ k.Open fd
  goes : result = old ∧ left = none ∨ result = none ∧ left = old

/-- A call that opens a fresh descriptor for its result, or nothing. -/
structure Opens (k k' : Kernel) (result : Option Fd) : Prop where
  opened : ∀ fd, k'.Open fd ↔ k.Open fd ∨ result = some fd
  fresh : ∀ fd, result = some fd → ¬k.Open fd

namespace SocketImpl

theorem open_bind (impl : SocketImpl) (local_ : InAddressPort) (ans : Answer) (k : Kernel)
    (fd : Fd) : (impl.bind local_ ans k).2.Open fd ↔ k.Open fd := by
  unfold SocketImpl.bind
  split
  · simp [Kernel.bind]
  · rfl

theorem open_connect (impl : SocketImpl) (remote : InAddressPort) (ans : Answer) (k : Kernel)
    (fd : Fd) : (impl.connect remote ans k).2.Open fd ↔ k.Open fd := by
  unfold SocketImpl.connect
  split
  · simp
  · rfl

theorem open_listen (impl : SocketImpl) (maxConn : UInt32) (ans : Answer) (k : Kernel) (fd : Fd) :
    (impl.listen maxConn ans k).2.Open fd ↔ k.Open fd := by
  unfold SocketImpl.listen
  split
  · simp [Kernel.listen]
  · rfl

theorem open_destroy (impl : SocketImpl) (k : Kernel) (fd : Fd) :
    (impl.destroy k).Open fd ↔ k.Open fd ∧ impl.fd ≠ some fd := by
  unfold SocketImpl.destroy SocketImpl.close SocketImpl.empty
  cases h : impl.fd with
  | none => simp
  | some held => simp [and_comm, eq_comm]

end SocketImpl

theorem Kernel.install_opens {k k' : Kernel} {c : SysCall} {op : FdOp} {ans : Except Errno Fd}
    {r : Option Fd} (h : (k.issue c).install op ans = (r, k')) : Opens k k' r := by
  rcases (k.issue c).install_cases op ans with ⟨fd, hr, -, fresh, hfds⟩ | ⟨hr, hfds⟩ <;>
    rw [h] at hr hfds <;> simp only [issue_fds] at hr hfds <;> subst hr
  · constructor
    · intro fd'
      rw [Kernel.Open, Kernel.Open, hfds]
      by_cases hfd : fd = fd'
      · simp [hfd]
      · simp [Function.update_of_ne (Ne.symm hfd), hfd]
    · rintro fd' ⟨⟩
      exact fresh
  · exact ⟨fun fd => by simp [Kernel.Open, hfds], by simp⟩

theorem SocketT.create_opens (proto : Proto) (af : Int) (ans : Except Errno Fd) (k : Kernel) :
    Opens k (SocketT.create proto af ans k).2
      ((SocketT.create proto af ans k).1.bind fun s => s.impl.fd) := by
  unfold SocketT.create SocketImpl.openFd
  cases h : k.socket af (sockNonblock ||| proto.type) (proto.flags.getD 0) ans with
  | mk r k' =>
    have hopens : Opens k k' r := Kernel.install_opens h
    cases r <;> exact hopens

theorem ListeningSocket.accept_opens (s : ListeningSocket)
    (ans : Except Errno (Fd × FilledAddr)) (k : Kernel) :
    Opens k (s.accept ans k).2 ((s.accept ans k).1.bind fun a => a.impl.fd) := by
  have same : Opens k k none := ⟨by simp, by simp⟩
  unfold ListeningSocket.accept SocketImpl.accept
  split_ifs
  · cases s.impl.fd with
    | none => exact same
    | some fd =>
      cases ans with
      | error e => exact ⟨by simp [Kernel.accept4], by simp [Kernel.accept4]⟩
      | ok got =>
        obtain ⟨new, peer⟩ := got
        cases h : (k.issue (.accept fd)).install (.accept fd peer) (.ok new) with
        | mk r k' =>
          have hopens : Opens k k' r := Kernel.install_opens h
          -- an address that the kernel filled in always parses
          cases r <;> cases hp : peer.addr <;>
            simpa [Kernel.accept4, h, parseAddr, hp] using hopens
  · exact same

theorem EpollT.create_opens (queueSize : Int) (maxEvents : Nat) (ans : Except Errno Fd)
    (k : Kernel) :
    Opens k (EpollT.create queueSize maxEvents ans k).2
      ((EpollT.create queueSize maxEvents ans k).1.bind fun e => (Obj.epoll e).fd?) := by
  unfold EpollT.create
  cases h : k.epollCreate queueSize ans with
  | mk r k' =>
    have hopens : Opens k k' r := Kernel.install_opens h
    cases r with
    | none => exact hopens
    | some fd =>
      have hfd : fd ≠ -1 := by
        rw [Kernel.epollCreate] at h
        rcases (k.issue (.epollCreate queueSize)).install_cases .epollCreate ans with
          ⟨fd', hr, hpos, -, -⟩ | ⟨hr, -⟩ <;> rw [h] at hr <;> cases hr
        rintro rfl
        exact absurd hpos (by decide)
      simpa [Obj.fd?, hfd] using hopens

theorem Obj.open_destroy (o : Obj) (k : Kernel) (fd : Fd) :
    (o.destroy k).Open fd ↔ k.Open fd ∧ o.fd? ≠ some fd := by
  cases o with
  | epoll e =>
    simp only [Obj.destroy, EpollT.destroy, Obj.fd?]
    by_cases h : e.fd = -1
    · simp [h]
    · simp [h, and_comm, eq_comm]
  | _ => exact SocketImpl.open_destroy _ k fd

/-- A transition moves the descriptor into its result when the system call succeeds. -/
theorem Passes.of_call {α β : Type} {k : Kernel} {call : Bool × Kernel} {result : β}
    {moved kept : α} {out : Option β × α × Kernel}
    (h : out = match call with
      | (true, k) => (some result, moved, k)
      | (false, k) => (none, kept, k))
    (fdOf : α → Option Fd) (resultFd : β → Option Fd)
    (opened : ∀ fd, call.2.Open fd ↔ k.Open fd) (takes : resultFd result = fdOf kept)
    (gives : fdOf moved = none) :
    Passes k out.2.2 (fdOf kept) (out.1.bind resultFd) (fdOf out.2.1) := by
  obtain ⟨zero, k'⟩ := call
  subst h
  cases zero with
  | false => exact ⟨opened, Or.inr ⟨rfl, rfl⟩⟩
  | true => exact ⟨opened, Or.inl ⟨takes, gives⟩⟩

theorem SocketT.bind_passes (s : SocketT) (local_ : InAddressPort) (ans : Answer) (k : Kernel) :
    Passes k (s.bind local_ ans k).2.2 s.impl.fd ((s.bind local_ ans k).1.bind fun b => b.impl.fd)
      (s.bind local_ ans k).2.1.impl.fd :=
  Passes.of_call rfl (fun s : SocketT => s.impl.fd) (fun r : BindedSocket => r.impl.fd)
    (s.impl.open_bind local_ ans k) rfl rfl

theorem SocketT.bindConnectionless_passes (s : SocketT) (local_ : InAddressPort) (ans : Answer)
    (k : Kernel) :
    Passes k (s.bindConnectionless local_ ans k).2.2 s.impl.fd
      ((s.bindConnectionless local_ ans k).1.bind fun a => a.impl.fd)
      (s.bindConnectionless local_ ans k).2.1.impl.fd :=
  Passes.of_call rfl (fun s : SocketT => s.impl.fd) (fun r : ActiveSocket => r.impl.fd)
    (s.impl.open_bind local_ ans k) rfl rfl

theorem SocketT.connect_passes (s : SocketT) (remote : InAddressPort) (ans : Answer)
    (k : Kernel) :
    Passes k (s.connect remote ans k).2.2 s.impl.fd
      ((s.connect remote ans k).1.bind fun a => a.impl.fd)
      (s.connect remote ans k).2.1.impl.fd :=
  Passes.of_call rfl (fun s : SocketT => s.impl.fd) (fun r : ActiveSocket => r.impl.fd)
    (s.impl.open_connect remote ans k) rfl rfl

theorem BindedSocket.connect_passes (s : BindedSocket) (remote : InAddressPort) (ans : Answer)
    (k : Kernel) :
    Passes k (s.connect remote ans k).2.2 s.impl.fd
      ((s.connect remote ans k).1.bind fun a => a.impl.fd)
      (s.connect remote ans k).2.1.impl.fd :=
  Passes.of_call rfl (fun s : BindedSocket => s.impl.fd) (fun r : ActiveSocket => r.impl.fd)
    (s.impl.open_connect remote ans k) rfl rfl

theorem BindedSocket.listen_passes (s : BindedSocket) (maxConn : UInt32) (ans : Answer)
    (k : Kernel) :
    Passes k (s.listen maxConn ans k).2.2 s.impl.fd
      ((s.listen maxConn ans k).1.bind fun l => l.impl.fd)
      (s.listen maxConn ans k).2.1.impl.fd :=
  Passes.of_call rfl (fun s : BindedSocket => s.impl.fd) (fun r : ListeningSocket => r.impl.fd)
    (s.impl.open_listen maxConn ans k) rfl rfl

/-! ### The variables as owners -/

namespace Program

def owners (p : Program) : Owners ObjId Fd :=
  ⟨{fd | p.kernel.Open fd}, fun i => (p.heap i).bind Cell.fd?⟩

/-- Every open descriptor is held by a live object. -/
def NoLeak (p : Program) : Prop :=
  ∀ fd, p.kernel.Open fd → ∃ i, (p.heap i).bind Cell.fd? = some fd

/-- `old` is assigned from `new`, an object of its class, and still holds a descriptor. -/
def overwritten (old new : Option Obj) : Bool :=
  match old, new with
  | some old, some new => old.tag = new.tag && old.fd?.isSome
  | _, _ => false

/-- The statement assigns to an object, from another one of its class, while it holds a
descriptor. -/
def overwrites (p : Program) : Stmt → Bool
  | .moveAssign dst src =>
    match p.heap dst, p.heap src with
    | some d, some c => dst ≠ src && overwritten d.val c.val
    | _, _ => false
  | _ => false

theorem owners_define_acquire {p : Program} {k : Kernel} {dst : ObjId} {new : Cell} {fd : Fd}
    (hopen : ∀ fd', k.Open fd' ↔ p.kernel.Open fd' ∨ some fd = some fd') (hnew : new.fd? = some fd) :
    (p.define k dst new).owners = p.owners.acquire dst fd := by
  ext i
  · simp [owners, Owners.acquire, define, hopen, or_comm, eq_comm]
  · by_cases hi : i = dst
    · simp [owners, Owners.acquire, define, hi, hnew]
    · simp [owners, Owners.acquire, define, hi]

theorem owners_define_none {p : Program} {k : Kernel} {dst : ObjId} {new : Cell}
    (hopen : ∀ fd, k.Open fd ↔ p.kernel.Open fd) (free : p.heap dst = none)
    (hnew : new.fd? = none) : (p.define k dst new).owners = p.owners := by
  ext i
  · simp [owners, define, hopen]
  · by_cases hi : i = dst
    · simp [owners, define, hi, hnew, free]
    · simp [owners, define, hi]

theorem owners_transfer_move {p : Program} {k : Kernel} {dst src : ObjId} {new left : Cell}
    (hopen : ∀ fd, k.Open fd ↔ p.kernel.Open fd) (hnew : new.fd? = p.owners.holds src)
    (hleft : left.fd? = none) : (p.transfer k dst src new left).owners = p.owners.move src dst := by
  ext i
  · simp [owners, Owners.move, transfer, hopen]
  · by_cases hs : i = src
    · simp [owners, Owners.move, transfer, hs, hleft]
    · by_cases hd : i = dst
      · simp only [owners] at hnew
        simp [owners, Owners.move, transfer, hd, hd ▸ hs, hnew]
      · simp [owners, Owners.move, transfer, hs, hd]

theorem owners_transfer_keep {p : Program} {k : Kernel} {dst src : ObjId} {new left : Cell}
    (hopen : ∀ fd, k.Open fd ↔ p.kernel.Open fd) (free : p.heap dst = none)
    (hnew : new.fd? = none) (hleft : left.fd? = p.owners.holds src) :
    (p.transfer k dst src new left).owners = p.owners := by
  ext i
  · simp [owners, transfer, hopen]
  · by_cases hs : i = src
    · simp only [owners] at hleft
      simp [owners, transfer, hs, hleft]
    · by_cases hd : i = dst
      · simp [owners, transfer, hd, hd ▸ hs, hnew, free]
      · simp [owners, transfer, hs, hd]

/-- A call that passes its descriptor on hands it over from variable to variable. -/
theorem handover_transfer {p : Program} {k : Kernel} {dst src : ObjId} {c new left : Cell}
    (free : p.heap dst = none) (used : p.heap src = some c)
    (hpass : Passes p.kernel k c.fd? new.fd? left.fd?) :
    Owners.Handover p.owners (p.transfer k dst src new left).owners := by
  have hne : src ≠ dst := by
    rintro rfl
    simp [free] at used
  have hsrc : p.owners.holds src = c.fd? := by simp [owners, used]
  have hdst : p.owners.holds dst = none := by simp [owners, free]
  rcases hpass.goes with ⟨hnew, hleft⟩ | ⟨hnew, hleft⟩
  · rw [owners_transfer_move hpass.opened (hnew.trans hsrc.symm) hleft]
    exact .move hne hdst
  · rw [owners_transfer_keep hpass.opened free hnew (hleft.trans hsrc.symm)]
    exact .refl _

/-- A call that opens a descriptor for its result gives it to the variable that it defines. -/
theorem handover_define {p : Program} {k : Kernel} {dst : ObjId} {new : Cell}
    (free : p.heap dst = none) (hopens : Opens p.kernel k new.fd?) :
    Owners.Handover p.owners (p.define k dst new).owners := by
  cases h : new.fd? with
  | none =>
    have hopen : ∀ fd, k.Open fd ↔ p.kernel.Open fd := by simpa [h] using hopens.opened
    rw [owners_define_none hopen free h]
    exact .refl _
  | some fd =>
    rw [h] at hopens
    rw [owners_define_acquire hopens.opened h]
    exact .acquire (hopens.fresh fd rfl) (by simp [owners, free])

@[simp] theorem result_fd? {α : Type} (t : Tag) (make : α → Obj) (h : ∀ a, (make a).tag = t)
    (r : Option α) : (Cell.result t make h r).fd? = r.bind fun a => (make a).fd? := by
  cases r <;> rfl

@[simp] theorem moved_fd? (c : Cell) : c.moved.fd? = none := by
  cases h : c.val <;> simp [Cell.fd?, Cell.moved, h]

theorem fd?_eq {c : Cell} {o : Obj} (h : c.val = some o) : c.fd? = o.fd? := by
  simp [Cell.fd?, h]

theorem put_fd? {c : Cell} {old o : Obj} (h : c.val = some old) (same : old.tag = o.tag) :
    (c.put o).fd? = o.fd? := by
  simp [Cell.fd?, Cell.put, h, same]

/-- A transition of the object of `c`, whose result is the object of the new variable. -/
theorem handover_call {α : Type} {p : Program} {k : Kernel} {dst src : ObjId} {c : Cell}
    {old left : Obj} {t : Tag} {make : α → Obj} {h : ∀ a, (make a).tag = t} {r : Option α}
    (free : p.heap dst = none) (used : p.heap src = some c) (hval : c.val = some old)
    (same : old.tag = left.tag)
    (hpass : Passes p.kernel k old.fd? (r.bind fun a => (make a).fd?) left.fd?) :
    Owners.Handover p.owners (p.transfer k dst src (.result t make h r) (c.put left)).owners := by
  apply handover_transfer free used
  rw [fd?_eq hval, put_fd? hval same, result_fd?]
  exact hpass

theorem handover_open {α : Type} {p : Program} {k : Kernel} {dst : ObjId} {t : Tag}
    {make : α → Obj} {h : ∀ a, (make a).tag = t} {r : Option α} (free : p.heap dst = none)
    (hopens : Opens p.kernel k (r.bind fun a => (make a).fd?)) :
    Owners.Handover p.owners (p.define k dst (.result t make h r)).owners := by
  apply handover_define free
  rw [result_fd?]
  exact hopens

section Calls

variable {p : Program} {dst src : ObjId} {c : Cell}

theorem bind_handover (free : p.heap dst = none) (used : p.heap src = some c)
    (addr : InAddressPort) (ans : Answer) :
    Owners.Handover p.owners (p.bind dst src c addr ans).owners := by
  unfold Program.bind
  split
  · rename_i proto s hval
    split
    · exact handover_call free used hval rfl (s.bindConnectionless_passes addr ans p.kernel)
    · exact handover_call free used hval rfl (s.bind_passes addr ans p.kernel)
  · exact .refl _

theorem listen_handover (free : p.heap dst = none) (used : p.heap src = some c)
    (maxConn : UInt32) (ans : Answer) :
    Owners.Handover p.owners (p.listen dst src c maxConn ans).owners := by
  unfold Program.listen
  split
  · rename_i proto s hval
    split
    · exact .refl _
    · exact handover_call free used hval rfl (s.listen_passes maxConn ans p.kernel)
  · exact .refl _

theorem connect_handover (free : p.heap dst = none) (used : p.heap src = some c)
    (remote : InAddressPort) (ans : Answer) :
    Owners.Handover p.owners (p.connect dst src c remote ans).owners := by
  unfold Program.connect
  split
  · rename_i proto s hval
    split
    · exact .refl _
    · exact handover_call free used hval rfl (s.connect_passes remote ans p.kernel)
  · rename_i proto s hval
    split
    · exact .refl _
    · exact handover_call free used hval rfl (s.connect_passes remote ans p.kernel)
  · exact .refl _

theorem accept_handover (free : p.heap dst = none) (ans : Except Errno (Fd × FilledAddr)) :
    Owners.Handover p.owners (p.accept dst c ans).owners := by
  unfold Program.accept
  split
  · rename_i proto s hval
    split
    · exact .refl _
    · exact handover_open free (s.accept_opens ans p.kernel)
  · exact .refl _

theorem wrap_handover (free : p.heap dst = none) (used : p.heap src = some c)
    (remote : InAddressPort) : Owners.Handover p.owners (p.wrap dst src c remote).owners := by
  unfold Program.wrap
  split
  · rename_i proto s hval
    split
    · exact .refl _
    · apply handover_transfer free used
      rw [fd?_eq hval]
      exact ⟨fun _ => Iff.rfl, Or.inl ⟨rfl, moved_fd? c⟩⟩
  · exact .refl _

theorem moveConstruct_handover (free : p.heap dst = none) (used : p.heap src = some c)
    {type : CellType} (h : type.Admits c.val) :
    Owners.Handover p.owners (p.transfer p.kernel dst src ⟨type, c.val, h⟩ c.moved).owners :=
  handover_transfer free used ⟨fun _ => Iff.rfl, Or.inl ⟨rfl, moved_fd? c⟩⟩

/-- An assignment closes the descriptor of its target, unless it overwrites it. -/
theorem open_assigned (k : Kernel) (old new : Option Obj) (fd : Fd) :
    (assigned k old new).Open fd ↔
      k.Open fd ∧ (overwritten old new = true ∨ old.bind Obj.fd? ≠ some fd) := by
  cases old with
  | none => cases new <;> simp [assigned]
  | some old =>
    cases new with
    | none => simp [assigned, overwritten, old.open_destroy]
    | some new =>
      by_cases same : old.tag = new.tag
      · cases h : old.fd? <;> simp [assigned, overwritten, same, h]
      · simp [assigned, overwritten, same, old.open_destroy]

theorem owners_reset (used : p.heap dst = some c) {new : Option Cell}
    (hnew : new.bind Cell.fd? = none) :
    (⟨assigned p.kernel c.val none, Function.update p.heap dst new⟩ : Program).owners =
      p.owners.release dst := by
  ext i
  · have hkept : overwritten c.val none = false := by cases c.val <;> rfl
    simp [owners, Owners.release, open_assigned, hkept, used, Cell.fd?]
  · by_cases hi : i = dst
    · simp [owners, Owners.release, hi, hnew]
    · simp [owners, Owners.release, hi]

/-- An assignment between variables moves the descriptor.  It releases the one that the target
held, unless it overwrites it. -/
theorem owners_moveAssign {d : Cell} (hd : p.heap dst = some d) (hc : p.heap src = some c)
    (hne : dst ≠ src) (h : d.type.Admits c.val) :
    (p.moveAssign dst src d c).owners =
      if overwritten d.val c.val then p.owners.move src dst
      else (p.owners.release dst).move src dst := by
  simp only [Program.moveAssign, hne, h, ↓reduceIte, ↓reduceDIte]
  ext i
  · by_cases hover : overwritten d.val c.val = true
    · simp [owners, Owners.move, transfer, open_assigned, hover]
    · simp [owners, Owners.move, Owners.release, transfer, open_assigned, hover, hd, Cell.fd?]
  · by_cases hs : i = src
    · split_ifs <;> simp [owners, Owners.move, transfer, hs]
    · by_cases hi : i = dst
      · subst hi
        split_ifs <;>
          simp [owners, Owners.move, Owners.release, transfer, hs, Ne.symm hs, hc, Cell.fd?]
      · split_ifs <;> simp [owners, Owners.move, Owners.release, transfer, hs, hi]

theorem admits_of_tag {t : CellType} {old new : Obj} (h : t.Admits (some old))
    (same : old.tag = new.tag) : t.Admits (some new) := by
  cases t <;> simp_all [CellType.Admits]

theorem overwritten_cases {d : Cell} (h : overwritten d.val c.val = true) :
    d.type.Admits c.val ∧ ∃ fd, d.fd? = some fd := by
  unfold overwritten at h
  split at h
  · rename_i old new hold hnew
    obtain ⟨same, held⟩ := (Bool.and_eq_true ..).mp h
    rw [hnew, fd?_eq hold]
    exact ⟨admits_of_tag (hold ▸ d.ok) (of_decide_eq_true same), Option.isSome_iff_exists.mp held⟩
  · cases h

theorem moveAssign_handover {d : Cell} (hd : p.heap dst = some d) (hc : p.heap src = some c)
    (h : (dst ≠ src && overwritten d.val c.val) = false) :
    Owners.Handover p.owners (p.moveAssign dst src d c).owners := by
  by_cases hne : dst = src
  · simpa [Program.moveAssign, hne] using .refl _
  · by_cases hadmits : d.type.Admits c.val
    · have hkept : overwritten d.val c.val = false := by simpa [hne] using h
      rw [owners_moveAssign hd hc hne hadmits, hkept, if_neg Bool.false_ne_true]
      exact .trans .release (.move (Ne.symm hne) (by simp [Owners.release]))
    · simpa [Program.moveAssign, hne, hadmits] using .refl _

end Calls

/-- Every statement hands the descriptors over, unless it overwrites one. -/
theorem step_handover {p : Program} {st : Stmt} (h : p.overwrites st = false) :
    Owners.Handover p.owners (p.step st).owners := by
  cases st with
  | create dst proto af ans =>
    cases hd : p.heap dst with
    | some d => simpa [step, hd] using .refl _
    | none =>
      simp only [step, hd]
      exact handover_open hd (SocketT.create_opens proto af ans p.kernel)
  | epoll dst queueSize maxEvents ans =>
    cases hd : p.heap dst with
    | some d => simpa [step, hd] using .refl _
    | none =>
      simp only [step, hd]
      exact handover_open hd (EpollT.create_opens queueSize maxEvents ans p.kernel)
  | bind dst src addr ans =>
    cases hd : p.heap dst <;> cases hs : p.heap src <;> simp only [step, hd, hs]
    case none.some c => exact bind_handover hd hs addr ans
    all_goals exact .refl _
  | listen dst src maxConn ans =>
    cases hd : p.heap dst <;> cases hs : p.heap src <;> simp only [step, hd, hs]
    case none.some c => exact listen_handover hd hs maxConn ans
    all_goals exact .refl _
  | connect dst src remote ans =>
    cases hd : p.heap dst <;> cases hs : p.heap src <;> simp only [step, hd, hs]
    case none.some c => exact connect_handover hd hs remote ans
    all_goals exact .refl _
  | accept dst src ans =>
    cases hd : p.heap dst <;> cases hs : p.heap src <;> simp only [step, hd, hs]
    case none.some c => exact accept_handover hd ans
    all_goals exact .refl _
  | wrap dst src remote =>
    cases hd : p.heap dst <;> cases hs : p.heap src <;> simp only [step, hd, hs]
    case none.some c => exact wrap_handover hd hs remote
    all_goals exact .refl _
  | moveConstruct dst type src =>
    cases hd : p.heap dst <;> cases hs : p.heap src <;> simp only [step, hd, hs]
    case none.some c =>
      split
      · exact moveConstruct_handover hd hs _
      · exact .refl _
    all_goals exact .refl _
  | moveAssign dst src =>
    cases hd : p.heap dst <;> cases hs : p.heap src <;> simp only [step, hd, hs]
    case some.some d c => exact moveAssign_handover hd hs (by simpa [overwrites, hd, hs] using h)
    all_goals exact .refl _
  | reset dst =>
    cases hd : p.heap dst with
    | none => simpa [step, hd] using .refl _
    | some d =>
      simp only [step, hd]
      split
      · rw [define, owners_reset hd (by simp [Cell.fd?])]
        exact .release
      · exact .refl _
  | destroy dst =>
    cases hd : p.heap dst with
    | none => simpa [step, hd] using .refl _
    | some d =>
      simp only [step, hd]
      rw [owners_reset hd rfl]
      exact .release

/-- A statement that overwrites a descriptor moves another one in its place. -/
theorem step_overwrites {p : Program} {st : Stmt} (h : p.overwrites st = true) :
    ∃ dst src fd, src ≠ dst ∧ p.owners.holds dst = some fd ∧
      (p.step st).owners = p.owners.move src dst := by
  unfold overwrites at h
  split at h
  · rename_i dst src
    split at h
    · rename_i d c hd hc
      obtain ⟨hne, hover⟩ := (Bool.and_eq_true ..).mp h
      have hne : dst ≠ src := of_decide_eq_true hne
      obtain ⟨hadmits, fd, hfd⟩ := overwritten_cases hover
      refine ⟨dst, src, fd, hne.symm, by simp [owners, hd, hfd], ?_⟩
      simp only [step, hd, hc]
      rw [owners_moveAssign hd hc hne hadmits, if_pos hover]
    · cases h
  · cases h

theorem step_exclusive {p : Program} (h : p.owners.Exclusive) (st : Stmt) :
    (p.step st).owners.Exclusive := by
  cases hover : p.overwrites st with
  | false => exact (step_handover hover).exclusive h
  | true =>
    obtain ⟨dst, src, fd, hne, -, heq⟩ := step_overwrites hover
    rw [heq]
    exact h.move hne

theorem initial_exclusive : initial.owners.Exclusive :=
  ⟨by simp [owners, initial], by simp [owners, initial]⟩

/-- Every open descriptor has one holder, and nothing else is held. -/
structure Owned (p : Program) : Prop where
  exclusive : p.owners.Exclusive
  noLeak : p.NoLeak

theorem initial_owned : initial.Owned :=
  ⟨initial_exclusive, by simp [NoLeak, initial, Kernel.initial, Kernel.Open]⟩

/-- A statement keeps every descriptor held exactly when it overwrites none. -/
theorem noLeak_step_iff {p : Program} (h : p.Owned) (st : Stmt) :
    (p.step st).NoLeak ↔ p.overwrites st = false := by
  constructor
  · intro hnext
    by_contra hover
    obtain ⟨dst, src, fd, hne, hfd, heq⟩ := step_overwrites (Bool.not_eq_false _ ▸ hover)
    have hcovered : (p.step st).owners.Covered := hnext
    rw [heq] at hcovered
    exact h.exclusive.not_covered_move hne hfd hcovered
  · intro hover
    exact (step_handover hover).covered h.noLeak

theorem step_owned {p : Program} (h : p.Owned) {st : Stmt} (hover : p.overwrites st = false) :
    (p.step st).Owned :=
  ⟨step_exclusive h.exclusive st, (noLeak_step_iff h st).mpr hover⟩

/-- `step` as the step of a run. -/
def next (p : Program) (st : Stmt) : Option Program := some (p.step st)

theorem always_noLeak_iff (sts : List Stmt) :
    Always next NoLeak initial sts ↔
      Along next (fun p st => p.overwrites st = false) initial sts := by
  refine always_iff (fun p (h : Owned p) => h.noLeak) ?_ ?_ initial_owned sts
  · intro p st h
    rw [← noLeak_step_iff h st]
    simp [next]
  · intro p st p' h hover hstep
    cases hstep
    exact step_owned h hover

/-- No descriptor leaks in a run exactly when none of its statements overwrites one; then all is
closed once no object is left. -/
theorem noLeak_run (sts : List Stmt) :
    (Always next NoLeak initial sts ↔
        Along next (fun p st => p.overwrites st = false) initial sts) ∧
      ∀ p, Along next (fun p st => p.overwrites st = false) initial sts →
        exec next initial sts = some p → (∀ i, p.heap i = none) → ∀ fd, ¬p.kernel.Open fd := by
  refine ⟨always_noLeak_iff sts, fun p halong hrun hgone fd => ?_⟩
  have hcovered : p.owners.Covered := ((always_noLeak_iff sts).mpr halong).last hrun
  exact hcovered.closed (by simp [owners, hgone]) fd

/-- Two sockets are created, and the first one is assigned from the second. -/
def overwriteRun : List Stmt :=
  [.create 0 tcp 2 (.ok 3), .create 1 tcp 2 (.ok 4), .moveAssign 0 1]

theorem overwriteRun_leaks : ¬Always next NoLeak initial overwriteRun := by
  intro h
  obtain ⟨i, hi⟩ := h.last rfl 3 (by decide)
  match i with
  | 0 => exact absurd hi (by decide)
  | 1 => exact absurd hi (by decide)
  | i + 2 => cases hi

end Program

end TypedSockets.Socket
