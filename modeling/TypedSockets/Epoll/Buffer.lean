import TypedSockets.Lib.Run
import TypedSockets.Socket.Objects

/-! The buffer of `epoll_t::proceed`.  A thread has one for all its polls, and the first poll that
it proceeds with decides its size. -/

namespace TypedSockets.Epoll

open TypedSockets.Socket TypedSockets.Lib

namespace EpollT

/-- `m_max_events`, an `unsigned`, as the size of the buffer. -/
def slots (e : EpollT) : Nat := (BitVec.ofNat 32 e.maxEvents).toNat

/-- `static_cast<int>(m_max_events)`, which `epoll_wait` gets. -/
def limit (e : EpollT) : Int := (BitVec.ofNat 32 e.maxEvents).toInt

/-- What `epoll_wait` stores from the events that are ready: no more than its limit, and nothing
under a limit that is not positive or without a descriptor. -/
def stored (e : EpollT) (ready : Except Errno (List RawEvent)) : List RawEvent :=
  match ready with
  | .ok raw => if 0 ≤ e.fd then raw.take e.limit.toNat else []
  | .error _ => []

theorem limit_le_slots (e : EpollT) : e.limit ≤ e.slots := by
  unfold limit slots
  rw [BitVec.toInt_eq_toNat_cond]
  split_ifs <;> omega

theorem stored_length (e : EpollT) (ready : Except Errno (List RawEvent)) :
    (e.stored ready).length ≤ e.limit.toNat := by
  unfold stored
  cases ready with
  | error _ => exact Nat.zero_le _
  | ok raw =>
    simp only
    split_ifs
    · exact List.length_take_le _ _
    · exact Nat.zero_le _

end EpollT

/-- A thread: its objects, and the slots of its buffer once `proceed` was called. -/
structure Poller where
  program : Program
  buffer : Option Nat

/-- A statement over the objects, or a call of `proceed` on a poll. -/
inductive PollOp where
  | stmt (s : Stmt)
  | proceed (src : ObjId) (ready : Except Errno (List RawEvent))

/-- The poll in a variable. -/
def epollAt (p : Program) (src : ObjId) : Option EpollT :=
  match (p.heap src).bind fun c => c.val with
  | some (.epoll e) => some e
  | _ => none

namespace Poller

/-- The slots of the buffer that `proceed` gives to `epoll_wait`. -/
def slots (s : Poller) (e : EpollT) : Nat := s.buffer.getD e.slots

def step (s : Poller) : PollOp → Poller
  | .stmt st => { s with program := s.program.step st }
  | .proceed src _ =>
    match epollAt s.program src with
    | some e => { s with buffer := some (s.slots e) }
    | none => s

/-- `step` as the step of a run. -/
def next (s : Poller) (op : PollOp) : Option Poller := some (s.step op)

/-- The limit of the call is not above the slots of the buffer, and every event that is returned is
in it. -/
def Inside (s : Poller) : PollOp → Prop
  | .stmt _ => True
  | .proceed src ready => ∀ e ∈ epollAt s.program src,
      e.limit ≤ s.slots e ∧ (e.stored ready).length ≤ s.slots e

/-- The polls that `proceed` is called on, call by call. -/
def polled (p : Program) : List PollOp → List EpollT
  | [] => []
  | .stmt st :: ops => polled (p.step st) ops
  | .proceed src _ :: ops => (epollAt p src).toList ++ polled p ops

/-- No later poll has a greater limit than the first one has slots. -/
def FirstIsLargest : List EpollT → Prop
  | [] => True
  | e :: es => ∀ e' ∈ es, e'.limit ≤ e.slots

instance : (es : List EpollT) → Decidable (FirstIsLargest es)
  | [] => inferInstanceAs (Decidable True)
  | e :: es => inferInstanceAs (Decidable (∀ e' ∈ es, e'.limit ≤ e.slots))

theorem inside_proceed (s : Poller) (src : ObjId) (ready : Except Errno (List RawEvent)) :
    s.Inside (.proceed src ready) ↔ ∀ e ∈ epollAt s.program src, e.limit ≤ s.slots e := by
  refine forall₂_congr fun e _ => and_iff_left_of_imp fun h => ?_
  have hlength := e.stored_length ready
  omega

/-- Once the buffer is there, its slots bound every limit. -/
theorem along_sized (p : Program) (n : Nat) (ops : List PollOp) :
    Along next Inside ⟨p, some n⟩ ops ↔ ∀ e ∈ polled p ops, e.limit ≤ n := by
  induction ops generalizing p with
  | nil => simp [polled]
  | cons op ops ih =>
    rw [along_cons]
    simp only [next, Option.some.injEq, forall_eq']
    cases op with
    | stmt st =>
      rw [polled, ← ih]
      exact and_iff_right trivial
    | proceed src ready =>
      have hslots : ∀ e, slots ⟨p, some n⟩ e = n := fun _ => rfl
      rw [inside_proceed, polled]
      simp only [hslots, step]
      cases epollAt p src with
      | none => simp [ih]
      | some e => simp [ih]

/-- `epoll_wait` never gets a limit above the slots of its buffer exactly when the poll that the
thread calls `proceed` on first has the largest limit. -/
theorem inside_run (p : Program) (ops : List PollOp) :
    Along next Inside ⟨p, none⟩ ops ↔ FirstIsLargest (polled p ops) := by
  induction ops generalizing p with
  | nil => simp [polled, FirstIsLargest]
  | cons op ops ih =>
    rw [along_cons]
    simp only [next, Option.some.injEq, forall_eq']
    cases op with
    | stmt st =>
      rw [polled, ← ih]
      exact and_iff_right trivial
    | proceed src ready =>
      have hslots : ∀ e, slots ⟨p, none⟩ e = e.slots := fun _ => rfl
      rw [inside_proceed, polled]
      simp only [hslots, step]
      cases epollAt p src with
      | none => simp [ih]
      | some e => simp [along_sized, FirstIsLargest, e.limit_le_slots]

/-- Two polls for one and two events, and a call of `proceed` on each. -/
def growingRun : List PollOp :=
  [.stmt (.epoll 0 1 1 (.ok 3)), .stmt (.epoll 1 1 2 (.ok 4)), .proceed 0 (.ok []),
    .proceed 1 (.ok [⟨5, EpollFlags.epollIn⟩, ⟨6, EpollFlags.epollIn⟩])]

theorem growingRun_not_inside : ¬Along next Inside ⟨.initial, none⟩ growingRun := by
  intro h
  have last := (((h.2 _ rfl).2 _ rfl).2 _ rfl).1
  exact absurd (last ⟨4, 2⟩ rfl).1 (by decide)

end Poller

end TypedSockets.Epoll
