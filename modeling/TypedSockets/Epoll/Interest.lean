import TypedSockets.Epoll.Event

/-! The interest list of an epoll instance, and the functions of `epoll_t` that change it.  Closing a
descriptor takes it off every list. -/

namespace TypedSockets.Epoll

open TypedSockets.Socket EpollFlags

def eNoEnt : Errno := 2

def eFault : Errno := 14

def eExist : Errno := 17

/-- The operations of `::epoll_ctl`. -/
inductive CtlOp where
  | add
  | mod
  | del
  deriving DecidableEq

/-- The `epoll_event` of each descriptor that is watched. -/
abbrev InterestList := Fd → Option RawEvent

namespace InterestList

def empty : InterestList := fun _ => none

/-- `::epoll_ctl` on an instance that is open.  `room` is the answer of the kernel when a new entry
needs memory. -/
def ctl (l : InterestList) (k : Kernel) (room : Answer) (op : CtlOp) (fd : Fd)
    (event : Option RawEvent) : Answer × InterestList :=
  if k.Open fd then
    match op, event with
    | .add, some event =>
      match l fd, room with
      | some _, _ => (.error eExist, l)
      | none, .ok () => (.ok (), Function.update l fd (some event))
      | none, .error e => (.error e, l)
    | .mod, some event =>
      match l fd with
      | some _ => (.ok (), Function.update l fd (some event))
      | none => (.error eNoEnt, l)
    | .del, _ =>
      match l fd with
      | some _ => (.ok (), Function.update l fd none)
      | none => (.error eNoEnt, l)
    | _, none => (.error eFault, l)
  else (.error eBadf, l)

/-- `epoll_t::epoll_ctl`. -/
def epollCtl (l : InterestList) (k : Kernel) (room : Answer) (fd : Fd) (ctlOp : CtlOp)
    (op : Option SockOp) : Bool × InterestList :=
  let (ans, l) := l.ctl k room ctlOp fd (op.map fun op => ⟨fd, flagsFromOp op⟩)
  (ans.isOk, l)

/-- `epoll_t::add_socket`. -/
def addSocket (l : InterestList) (k : Kernel) (room : Answer) (fd : Fd) (op : SockOp) :
    Bool × InterestList :=
  l.epollCtl k room fd .add (some op)

/-- `epoll_t::mod_socket`. -/
def modSocket (l : InterestList) (k : Kernel) (room : Answer) (fd : Fd) (op : SockOp) :
    Bool × InterestList :=
  l.epollCtl k room fd .mod (some op)

/-- `epoll_t::del_socket`. -/
def delSocket (l : InterestList) (k : Kernel) (room : Answer) (fd : Fd) : Bool × InterestList :=
  l.epollCtl k room fd .del none

/-- The list once the descriptors that are not open are gone. -/
def sweep (l : InterestList) (k : Kernel) : InterestList :=
  fun fd => if k.Open fd then l fd else none

/-- The list that watches descriptors for operations. -/
def ofOps (ops : Fd → Option SockOp) : InterestList :=
  fun fd => (ops fd).map fun op => ⟨fd, flagsFromOp op⟩

/-- Only open descriptors are watched. -/
def OnlyOpen (ops : Fd → Option SockOp) (k : Kernel) : Prop := ∀ fd, (ops fd).isSome → k.Open fd

/-- The flags that a descriptor may be reported with: those that it is watched for, and `EPOLLERR`
and `EPOLLHUP` in any case. -/
def reportable (flags : EpollFlags) : EpollFlags := (flags &&& ~~~epollEt) ||| epollErr ||| epollHup

/-- What `epoll_wait` may store: each descriptor once, with some of its flags. -/
structure Reports (l : InterestList) (maxEvents : Nat) (raw : List RawEvent) : Prop where
  fits : raw.length ≤ maxEvents
  once : (raw.map RawEvent.fd).Nodup
  watched : ∀ r ∈ raw, ∃ event, l r.fd = some event ∧ r.flags ≠ 0 ∧
    r.flags &&& reportable event.flags = r.flags

/-! ### What the calls do to a list of operations -/

variable {ops : Fd → Option SockOp} {k : Kernel}

theorem ofOps_update (ops : Fd → Option SockOp) (fd : Fd) (op : Option SockOp) :
    ofOps (Function.update ops fd op) =
      Function.update (ofOps ops) fd (op.map fun op => ⟨fd, flagsFromOp op⟩) := by
  funext fd'
  by_cases h : fd' = fd
  · subst h
    simp [ofOps]
  · simp [ofOps, h]

/-- A descriptor that is open and not watched is added unless there is no room. -/
theorem addSocket_new (room : Answer) {fd : Fd} (op : SockOp) (hopen : k.Open fd)
    (new : ops fd = none) :
    (ofOps ops).addSocket k room fd op = (room.isOk,
      ofOps (if room.isOk then Function.update ops fd (some op) else ops)) := by
  have hnone : ofOps ops fd = none := by rw [ofOps, new, Option.map_none]
  rcases room with e | ⟨⟨⟩⟩
  · simp [addSocket, epollCtl, ctl, hopen, hnone, Except.isOk, Except.toBool]
  · simp [addSocket, epollCtl, ctl, hopen, hnone, Except.isOk, Except.toBool, ofOps_update]

/-- A descriptor that is deleted is not watched, whether or not it was before. -/
theorem delSocket_ofOps (h : OnlyOpen ops k) (room : Answer) (fd : Fd) :
    ((ofOps ops).delSocket k room fd).2 = ofOps (Function.update ops fd none) := by
  rw [ofOps_update, Option.map_none]
  cases hfd : ops fd with
  | none =>
    have hnone : ofOps ops fd = none := by rw [ofOps, hfd, Option.map_none]
    have hsame : Function.update (ofOps ops) fd none = ofOps ops := by
      rw [← hnone, Function.update_eq_self]
    by_cases hopen : k.Open fd <;> simp [delSocket, epollCtl, ctl, hopen, hnone, hsame]
  | some op =>
    have hopen : k.Open fd := h fd (by rw [hfd]; rfl)
    have hsome : ofOps ops fd = some ⟨fd, flagsFromOp op⟩ := by rw [ofOps, hfd, Option.map_some]
    simp [delSocket, epollCtl, ctl, hopen, hsome]

theorem sweep_ofOps (ops : Fd → Option SockOp) (k : Kernel) :
    (ofOps ops).sweep k = ofOps fun fd => if k.Open fd then ops fd else none := by
  funext fd
  simp only [sweep, ofOps]
  split_ifs <;> rfl

/-! ### What is reported -/

/-- The flags that have an event type. -/
def typed : EpollFlags := epollIn ||| epollOut ||| epollPri ||| epollHup ||| epollErr ||| epollRdHup

theorem reportable_typed (op : SockOp) : reportable (flagsFromOp op) &&& typed =
    reportable (flagsFromOp op) := by
  cases op <;> decide

/-- What is reported of a descriptor that is watched for an operation has an event type. -/
theorem reported_typed {flags : EpollFlags} {op : SockOp} (some : flags ≠ 0)
    (within : flags &&& reportable (flagsFromOp op) = flags) :
    flags &&& epollIn ≠ 0 ∨ flags &&& epollOut ≠ 0 ∨ flags &&& epollPri ≠ 0 ∨
      flags &&& epollHup ≠ 0 ∨ flags &&& epollErr ≠ 0 ∨ flags &&& epollRdHup ≠ 0 := by
  by_contra hnone
  simp only [not_or, not_not] at hnone
  obtain ⟨hin, hout, hpri, hhup, herr, hrdHup⟩ := hnone
  have htyped : flags &&& typed = flags := by
    rw [← within, BitVec.and_assoc, reportable_typed]
  refine some ?_
  rw [← htyped, typed]
  simp only [BitVec.and_or_distrib_left, hin, hout, hpri, hhup, herr, hrdHup]
  decide

end InterestList

end TypedSockets.Epoll
