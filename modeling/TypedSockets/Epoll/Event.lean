import Mathlib.Data.BitVec
import TypedSockets.Socket.Kernel

/-! Poll events and the epoll flags that they are made from. -/

namespace TypedSockets.Epoll

open TypedSockets.Socket

/-- `event_type`: an enumeration of single bits, whose values are combined with `|` and `&`. -/
abbrev EventType := BitVec 32

namespace EventType

def none : EventType := 0
def exception : EventType := 1
def readReady : EventType := 1 <<< 1
def writeReady : EventType := 1 <<< 2
def peerClosed : EventType := 1 <<< 3
def error : EventType := 1 <<< 4
def hangup : EventType := 1 <<< 5

/-- The six types with one bit. -/
def singles : List EventType := [exception, readReady, writeReady, peerClosed, error, hangup]

/-- The types whose handler ends a connection. -/
def terminations : List EventType := [exception, hangup, error, peerClosed]

end EventType

/-- A mask with one type gives the type or nothing. -/
theorem mask_single {x tp : EventType} (h : tp ∈ EventType.singles) :
    x &&& tp = if x &&& tp ≠ 0 then tp else 0 := by
  have hbit : ∃ i, tp = BitVec.twoPow 32 i := by
    simp only [EventType.singles, List.mem_cons, List.not_mem_nil, or_false] at h
    rcases h with rfl | rfl | rfl | rfl | rfl | rfl
    · exact ⟨0, by decide⟩
    · exact ⟨1, by decide⟩
    · exact ⟨2, by decide⟩
    · exact ⟨3, by decide⟩
    · exact ⟨4, by decide⟩
    · exact ⟨5, by decide⟩
  obtain ⟨i, rfl⟩ := hbit
  rw [BitVec.and_twoPow]
  split_ifs <;> simp_all

structure Event where
  fd : Fd
  type : EventType
  deriving DecidableEq

/-- The event carries the type. -/
def Event.has (e : Event) (tp : EventType) : Bool := e.type &&& tp ≠ 0

/-- The event carries a type that ends a connection. -/
def Event.terminates (e : Event) : Bool := EventType.terminations.any e.has

/-- `sock_op`. -/
inductive SockOp where
  | read
  | write
  | readWrite
  deriving DecidableEq

/-- The event mask of `epoll_event`. -/
abbrev EpollFlags := BitVec 32

namespace EpollFlags

def epollIn : EpollFlags := 0x001
def epollPri : EpollFlags := 0x002
def epollOut : EpollFlags := 0x004
def epollErr : EpollFlags := 0x008
def epollHup : EpollFlags := 0x010
def epollRdHup : EpollFlags := 0x2000
def epollEt : EpollFlags := 1 <<< 31

end EpollFlags

open EpollFlags

/-- `epoll_t::flags_from_op`. -/
def flagsFromOp (op : SockOp) : EpollFlags :=
  let flags := epollRdHup ||| epollEt ||| epollPri ||| epollErr ||| epollHup
  match op with
  | .read => flags ||| epollIn
  | .write => flags ||| epollOut
  | .readWrite => flags ||| (epollOut ||| epollIn)

/-- `epoll_t::event_type_from_flags`. -/
def eventTypeFromFlags (flags : EpollFlags) : EventType :=
  let ret := EventType.none
  let ret := if flags &&& epollIn ≠ 0 then ret ||| EventType.readReady else ret
  let ret := if flags &&& epollOut ≠ 0 then ret ||| EventType.writeReady else ret
  let ret := if flags &&& epollPri ≠ 0 then ret ||| EventType.exception else ret
  let ret := if flags &&& epollHup ≠ 0 then ret ||| EventType.hangup else ret
  let ret := if flags &&& epollErr ≠ 0 then ret ||| EventType.error else ret
  if flags &&& epollRdHup ≠ 0 then ret ||| EventType.peerClosed else ret

/-- `epoll_event`: the descriptor in `data.fd` and the mask. -/
structure RawEvent where
  fd : Fd
  flags : EpollFlags
  deriving DecidableEq

def RawEvent.toEvent (raw : RawEvent) : Event := ⟨raw.fd, eventTypeFromFlags raw.flags⟩

/-- `epoll_t`: the descriptor, or -1 when it was moved from. -/
structure EpollT where
  fd : Fd
  maxEvents : Nat
  deriving DecidableEq

namespace EpollT

/-- `epoll_t::create` and the constructor, which throws where `create` returns nothing. -/
def create (queueSize : Int) (maxEvents : Nat) (ans : Except Errno Fd) (k : Kernel) :
    Option EpollT × Kernel :=
  match k.epollCreate queueSize ans with
  | (some fd, k) => (some ⟨fd, maxEvents⟩, k)
  | (none, k) => (none, k)

/-- The source of `epoll_t::exchange`, after it. -/
def moved (_ : EpollT) : EpollT := ⟨-1, 0⟩

def destroy (e : EpollT) (k : Kernel) : Kernel := if e.fd ≠ -1 then k.close e.fd else k

/-- The events of `epoll_t::proceed`, from those that `epoll_wait` stored. -/
def proceed (raw : List RawEvent) : List Event := raw.map RawEvent.toEvent

end EpollT

end TypedSockets.Epoll
