import Mathlib.Logic.Function.Basic
import TypedSockets.Socket.Address

/-! The part of the operating system that the sockets use: the open descriptors with their past,
`errno`, and the calls issued.  Every system call takes the answer that the kernel gives. -/

namespace TypedSockets.Socket

abbrev Fd := Int

abbrev Errno := Nat

def eBadf : Errno := 9

/-- `EAGAIN`, and `EWOULDBLOCK`, which is the same number on Linux. -/
def eAgain : Errno := 11

def eWouldBlock : Errno := 11

def eMfile : Errno := 24

def eInProgress : Errno := 115

/-- A call that opened a descriptor or succeeded on it.  A `connect` in progress counts. -/
inductive FdOp where
  | socket (family : Int) (type protocol : Nat)
  | accept (listener : Fd) (peer : FilledAddr)
  | epollCreate
  | bind (addr : SockAddr)
  | listen (backlog : Int)
  | connect (addr : SockAddr)
  deriving DecidableEq

/-- A system call as issued.  `connect` is issued without looking whether there is a descriptor. -/
inductive SysCall where
  | socket (family : Int) (type protocol : Nat)
  | bind (fd : Fd) (addr : SockAddr)
  | listen (fd : Fd) (backlog : Int)
  | connect (fd : Option Fd) (addr : SockAddr)
  | accept (fd : Fd)
  | close (fd : Fd)
  | epollCreate (size : Int)
  deriving DecidableEq

/-- `fds fd` is the past of `fd`, oldest call first, when `fd` is open.  `log` holds the calls
issued, latest first. -/
structure Kernel where
  fds : Fd → Option (List FdOp)
  errno : Errno
  log : List SysCall

abbrev Answer := Except Errno Unit

namespace Kernel

def initial : Kernel := ⟨fun _ => none, 0, []⟩

def Open (k : Kernel) (fd : Fd) : Prop := (k.fds fd).isSome

instance (k : Kernel) (fd : Fd) : Decidable (k.Open fd) :=
  inferInstanceAs (Decidable ((k.fds fd).isSome = true))

def issue (k : Kernel) (c : SysCall) : Kernel := { k with log := c :: k.log }

def fail (k : Kernel) (e : Errno) : Kernel := { k with errno := e }

/-- A call that returns a descriptor.  The kernel returns only descriptors that are not open: an
answer that it cannot give counts as a failure. -/
def install (k : Kernel) (op : FdOp) : Except Errno Fd → Option Fd × Kernel
  | .ok fd =>
    if 0 ≤ fd ∧ ¬k.Open fd then (some fd, { k with fds := Function.update k.fds fd (some [op]) })
    else (none, k.fail eMfile)
  | .error e => (none, k.fail e)

/-- `op` becomes part of the past of `fd`. -/
def record (k : Kernel) (fd : Fd) (op : FdOp) : Kernel :=
  { k with fds := Function.update k.fds fd ((k.fds fd).map (· ++ [op])) }

/-- A call on `fd` that returns zero or fails. -/
def apply (k : Kernel) (fd : Fd) (op : FdOp) : Answer → Bool × Kernel
  | .ok () => if k.Open fd then (true, k.record fd op) else (false, k.fail eBadf)
  | .error e => (false, k.fail e)

def socket (k : Kernel) (family : Int) (type protocol : Nat) (ans : Except Errno Fd) :
    Option Fd × Kernel :=
  (k.issue (.socket family type protocol)).install (.socket family type protocol) ans

def epollCreate (k : Kernel) (size : Int) (ans : Except Errno Fd) : Option Fd × Kernel :=
  (k.issue (.epollCreate size)).install .epollCreate ans

def bind (k : Kernel) (fd : Fd) (addr : SockAddr) (ans : Answer) : Bool × Kernel :=
  (k.issue (.bind fd addr)).apply fd (.bind addr) ans

def listen (k : Kernel) (fd : Fd) (backlog : Int) (ans : Answer) : Bool × Kernel :=
  (k.issue (.listen fd backlog)).apply fd (.listen backlog) ans

/-- `::connect` on a non-blocking socket: a failure with `EINPROGRESS` leaves the connection under
way.  Without a descriptor the call reads an absent value, and no descriptor is touched. -/
def connect (k : Kernel) (fd : Option Fd) (addr : SockAddr) (ans : Answer) : Bool × Kernel :=
  let k := k.issue (.connect fd addr)
  match fd, ans with
  | some fd, .ok () => k.apply fd (.connect addr) (.ok ())
  | some fd, .error e =>
    if e = eInProgress ∧ k.Open fd then (false, (k.record fd (.connect addr)).fail e)
    else (false, k.fail (if e = eInProgress then eBadf else e))
  | none, .ok () => (true, k)
  | none, .error e => (false, k.fail e)

/-- `::accept4`: the new descriptor and the address of its peer. -/
def accept4 (k : Kernel) (fd : Fd) (ans : Except Errno (Fd × FilledAddr)) :
    Option (Fd × FilledAddr) × Kernel :=
  let k := k.issue (.accept fd)
  match ans with
  | .ok (new, peer) =>
    match k.install (.accept fd peer) (.ok new) with
    | (some new, k) => (some (new, peer), k)
    | (none, k) => (none, k)
  | .error e => (none, k.fail e)

/-- `::close`, which releases the descriptor whatever it returns. -/
def close (k : Kernel) (fd : Fd) : Kernel :=
  { k.issue (.close fd) with fds := Function.update k.fds fd none }

end Kernel

end TypedSockets.Socket
