import TypedSockets.Socket.Calls
import TypedSockets.Socket.Transfer

/-! Handles that are used again after their descriptor went: after a move, or after the `bind`,
`listen` or `connect` that took it.  Every operation looks for the descriptor first, but
`connect`. -/

namespace TypedSockets.Socket

open TypedSockets.Lib

/-! ### Operations that leave the descriptor open -/

inductive ShutdownDir where
  | read
  | write
  | both
  deriving DecidableEq

/-- `SHUT_RD`, `SHUT_WR` and `SHUT_RDWR`. -/
def ShutdownDir.macroDir : ShutdownDir → Nat
  | read => 0
  | write => 1
  | both => 2

/-- A call that transfers data or shuts a direction down, as issued. -/
inductive DataCall where
  | send (call : SendCall)
  | recv (fd : Fd)
  | recvfrom (fd : Fd)
  | shutdown (fd : Fd) (macroDir : Nat)
  deriving DecidableEq

namespace SocketImpl

/-- `receive`, with the call that it issues. -/
def receiveIssued (impl : SocketImpl) (ans : Except Errno (List UInt8)) (k : Kernel) :
    Option (List UInt8) × Option DataCall × Kernel :=
  match impl.fd with
  | some fd =>
    let (got, k) := k.transferred ans
    (got, some (.recv fd), k)
  | none => (none, none, k)

/-- `receive_from`, with the call that it issues. -/
def receiveFromIssued (impl : SocketImpl) (ans : Except Errno (List UInt8 × FilledAddr))
    (k : Kernel) : Option (InAddressPort × List UInt8) × Option DataCall × Kernel :=
  match impl.fd with
  | some fd =>
    if impl.family = AfInet.ipv4.toInt ∨ impl.family = AfInet.ipv6.toInt then
      match k.transferred ans with
      | (some (data, peer), k) =>
        ((parseAddr peer).map fun remote => (remote, data), some (.recvfrom fd), k)
      | (none, k) => (none, some (.recvfrom fd), k)
    else (none, none, k)
  | none => (none, none, k)

def shutdown (impl : SocketImpl) (dir : ShutdownDir) (ans : Answer) (k : Kernel) :
    Bool × Option DataCall × Kernel :=
  match impl.fd with
  | some fd =>
    let (r, k) := k.transferred ans
    (r.isSome, some (.shutdown fd dir.macroDir), k)
  | none => (true, none, k)

theorem receiveIssued_eq (impl : SocketImpl) (ans : Except Errno (List UInt8)) (k : Kernel) :
    ((impl.receiveIssued ans k).1, (impl.receiveIssued ans k).2.2) = impl.receive ans k := by
  unfold receiveIssued receive
  cases impl.fd <;> rfl

theorem receiveFromIssued_eq (impl : SocketImpl) (ans : Except Errno (List UInt8 × FilledAddr))
    (k : Kernel) :
    ((impl.receiveFromIssued ans k).1, (impl.receiveFromIssued ans k).2.2) =
      impl.receiveFrom ans k := by
  unfold receiveFromIssued receiveFrom
  cases impl.fd with
  | none => rfl
  | some fd =>
    simp only
    split_ifs
    · rcases k.transferred ans with ⟨_ | got, k'⟩ <;> rfl
    · rfl

end SocketImpl

namespace ActiveSocket

/-- `receive` of `send_recv_policy`, with the call that it issues. -/
def receiveIssued (s : ActiveSocket) (proto : Proto) (ans : Except Errno (List UInt8 × FilledAddr))
    (k : Kernel) : Option (Option InAddressPort × List UInt8) × Option DataCall × Kernel :=
  if proto.isConnectionless then
    let (got, call, k) := s.impl.receiveFromIssued ans k
    (got.map fun got => (some got.1, got.2), call, k)
  else
    let (got, call, k) := s.impl.receiveIssued (ans.map Prod.fst) k
    (got.map fun data => (none, data), call, k)

theorem receiveIssued_eq (s : ActiveSocket) (proto : Proto)
    (ans : Except Errno (List UInt8 × FilledAddr)) (k : Kernel) :
    ((s.receiveIssued proto ans k).1, (s.receiveIssued proto ans k).2.2) =
      s.receive proto ans k := by
  unfold receiveIssued receive
  simp only [← SocketImpl.receiveFromIssued_eq, ← SocketImpl.receiveIssued_eq]
  split_ifs <;> rfl

/-- `active_socket_t::shutdown`. -/
def shutdown (s : ActiveSocket) (dir : ShutdownDir) (ans : Answer) (k : Kernel) :
    Bool × Option DataCall × Kernel :=
  if s.impl.empty then (true, none, k) else s.impl.shutdown dir ans k

end ActiveSocket

/-! ### Runs -/

/-- The socket that an object sends and receives on. -/
def Obj.active? : Obj → Option (Proto × ActiveSocket)
  | .active proto s => some (proto, s)
  | .accepted proto s => some (proto, s.sock)
  | _ => none

/-- The objects that `connect` may be called on. -/
def Obj.connects : Obj → Bool
  | .socket proto _ => !proto.isConnectionless
  | .binded proto _ => !proto.isConnectionless
  | _ => false

/-- A program with the calls of the other kind that it issued, latest first. -/
structure Handles where
  program : Program
  data : List DataCall

/-- A statement, or an operation on an active socket. -/
inductive HandleOp where
  | stmt (st : Stmt)
  | send (src : ObjId) (remote : InAddressPort) (data : List UInt8) (ans : Except Errno Nat)
  | receive (src : ObjId) (ans : Except Errno (List UInt8 × FilledAddr))
  | shutdown (src : ObjId) (dir : ShutdownDir) (ans : Answer)

namespace Handles

def initial : Handles := ⟨.initial, []⟩

/-- The kernel after an operation, and the call that it issued. -/
def issued (s : Handles) (call : Option DataCall) (k : Kernel) : Handles :=
  ⟨{ s.program with kernel := k }, call.toList ++ s.data⟩

/-- One operation, and whether it returned a value, or true. -/
def act (s : Handles) : HandleOp → Bool × Handles
  | .stmt st => (false, { s with program := s.program.step st })
  | .send src remote data ans =>
    match (s.program.object src).bind Obj.active? with
    | some (proto, sock) =>
      let (sent, call, k) := sock.send proto remote data ans s.program.kernel
      (sent.isSome, s.issued (call.map .send) k)
    | none => (false, s)
  | .receive src ans =>
    match (s.program.object src).bind Obj.active? with
    | some (proto, sock) =>
      let (got, call, k) := sock.receiveIssued proto ans s.program.kernel
      (got.isSome, s.issued call k)
    | none => (false, s)
  | .shutdown src dir ans =>
    match (s.program.object src).bind Obj.active? with
    | some (_, sock) =>
      let (r, call, k) := sock.shutdown dir ans s.program.kernel
      (r, s.issued call k)
    | none => (false, s)

def next (s : Handles) (op : HandleOp) : Option Handles := some (s.act op).2

/-- The handle has no descriptor. -/
def Consumed (s : Handles) (src : ObjId) : Prop :=
  ∃ o, s.program.object src = some o ∧ o.fd? = none

/-- The transition issues nothing, and its result is empty. -/
def Fails (s : Handles) (dst : ObjId) (st : Stmt) : Prop :=
  (s.program.step st).kernel = s.program.kernel ∧
    (s.program.heap dst = none → (s.program.step st).object dst = none)

/-- On a handle without a descriptor the operation fails or does nothing, without a call. -/
def Inert (s : Handles) : HandleOp → Prop
  | .stmt (.bind dst src addr ans) => s.Consumed src → s.Fails dst (.bind dst src addr ans)
  | .stmt (.listen dst src maxConn ans) => s.Consumed src → s.Fails dst (.listen dst src maxConn ans)
  | .stmt (.connect dst src remote ans) => s.Consumed src → s.Fails dst (.connect dst src remote ans)
  | .stmt (.accept dst src ans) => s.Consumed src → s.Fails dst (.accept dst src ans)
  | .stmt _ => True
  | .send src remote data ans => s.Consumed src → s.act (.send src remote data ans) = (false, s)
  | .receive src ans => s.Consumed src → s.act (.receive src ans) = (false, s)
  | .shutdown src dir ans => s.Consumed src → (s.act (.shutdown src dir ans)).2 = s

/-- No `connect` to an IPv4 or IPv6 address is made on a handle without a descriptor. -/
def ConnectsHeld (s : Handles) : HandleOp → Prop
  | .stmt (.connect dst src remote _) => s.program.heap dst = none →
      ∀ o, s.program.object src = some o → o.connects = true → remote.sockAddr.isSome →
        o.fd?.isSome
  | _ => True

end Handles

/-! ### Calls without a descriptor -/

namespace SocketImpl

variable {impl : SocketImpl} (h : impl.fd = none)
include h

theorem bind_consumed (local_ : InAddressPort) (ans : Answer) (k : Kernel) :
    impl.bind local_ ans k = (false, k) := by
  unfold SocketImpl.bind
  rw [h]
  cases local_.sockAddr <;> rfl

theorem listen_consumed (maxConn : UInt32) (ans : Answer) (k : Kernel) :
    impl.listen maxConn ans k = (false, k) := by
  rw [SocketImpl.listen, h]

theorem accept_consumed (ans : Except Errno (Fd × FilledAddr)) (k : Kernel) :
    impl.accept ans k = (none, k) := by
  simp only [SocketImpl.accept, h, ite_self]

/-- `connect` fails too, but not before it issued its call. -/
theorem connect_consumed (remote : InAddressPort) (ans : Answer) (k : Kernel) :
    (impl.connect remote ans k).1 = false ∧
      ((impl.connect remote ans k).2 = k ↔ remote.sockAddr = none) := by
  unfold SocketImpl.connect
  cases hsa : remote.sockAddr with
  | none => exact ⟨rfl, by simp⟩
  | some sa =>
    refine ⟨by simp [h], iff_of_false (fun hsame => ?_) (by simp)⟩
    have hlog := congrArg (fun k : Kernel => k.log.length) hsame
    simp at hlog

end SocketImpl

theorem ActiveSocket.send_consumed {s : ActiveSocket} (h : s.impl.fd = none) (proto : Proto)
    (remote : InAddressPort) (data : List UInt8) (ans : Except Errno Nat) (k : Kernel) :
    s.send proto remote data ans k = (none, none, k) := by
  unfold ActiveSocket.send SocketImpl.send SocketImpl.sendTo
  rw [h]
  exact ite_self _

theorem ActiveSocket.receive_consumed {s : ActiveSocket} (h : s.impl.fd = none) (proto : Proto)
    (ans : Except Errno (List UInt8 × FilledAddr)) (k : Kernel) :
    s.receiveIssued proto ans k = (none, none, k) := by
  unfold ActiveSocket.receiveIssued SocketImpl.receiveIssued SocketImpl.receiveFromIssued
  rw [h]
  exact ite_self _

theorem ActiveSocket.shutdown_consumed {s : ActiveSocket} (h : s.impl.fd = none) (dir : ShutdownDir)
    (ans : Answer) (k : Kernel) : s.shutdown dir ans k = (true, none, k) := by
  simp [ActiveSocket.shutdown, SocketImpl.empty, h]

theorem Obj.active?_fd {o : Obj} {proto : Proto} {sock : ActiveSocket}
    (h : o.active? = some (proto, sock)) : o.fd? = sock.impl.fd := by
  cases o with
  | active proto' s =>
    cases h
    rfl
  | accepted proto' s =>
    cases h
    rfl
  | _ => cases h

namespace Program

/-- The kernel is as it was, and the variable has no object. -/
def Unmade (p : Program) (dst : ObjId) (p' : Program) : Prop :=
  p'.kernel = p.kernel ∧ p'.object dst = none

section

variable {p : Program} {dst src : ObjId} {c : Cell} {o : Obj} (free : p.heap dst = none)
include free

theorem unmade_self : p.Unmade dst p := ⟨rfl, by rw [object, free]; rfl⟩

/-- A call that returns nothing. -/
theorem unmade_transfer (used : p.heap src = some c) {α : Type} (t : Tag) (make : α → Obj)
    (h : ∀ a, (make a).tag = t) (left : Cell) :
    p.Unmade dst (p.transfer p.kernel dst src (.result t make h none) left) := by
  refine ⟨rfl, ?_⟩
  have hne : dst ≠ src := by
    rintro rfl
    rw [used] at free
    cases free
  simp [object, transfer, hne, Cell.result]

variable (used : p.heap src = some c) (hval : c.val = some o) (hfd : o.fd? = none)
include used hval hfd

theorem bind_unmade (addr : InAddressPort) (ans : Answer) :
    p.Unmade dst (p.bind dst src c addr ans) := by
  unfold Program.bind
  rw [hval]
  cases o with
  | socket proto s =>
    have hbind := SocketImpl.bind_consumed hfd addr ans p.kernel
    simp only [SocketT.bind, SocketT.bindConnectionless, hbind]
    split_ifs
    · exact unmade_transfer free used _ _ _ _
    · exact unmade_transfer free used _ _ _ _
  | _ => exact unmade_self free

theorem listen_unmade (maxConn : UInt32) (ans : Answer) :
    p.Unmade dst (p.listen dst src c maxConn ans) := by
  unfold Program.listen
  rw [hval]
  cases o with
  | binded proto s =>
    have hlisten := SocketImpl.listen_consumed hfd maxConn ans p.kernel
    simp only [BindedSocket.listen, hlisten]
    split_ifs
    · exact unmade_self free
    · exact unmade_transfer free used _ _ _ _
  | _ => exact unmade_self free

omit used in
theorem accept_unmade (ans : Except Errno (Fd × FilledAddr)) :
    p.Unmade dst (p.accept dst c ans) := by
  unfold Program.accept
  rw [hval]
  cases o with
  | listening proto s =>
    have haccept := SocketImpl.accept_consumed hfd ans p.kernel
    simp only [ListeningSocket.accept, haccept]
    split_ifs
    · exact unmade_self free
    · exact ⟨rfl, by simp [object, define, Cell.result]⟩
  | _ => exact unmade_self free

/-- A `connect` issues its call where its object has one to make. -/
theorem connect_unmade_iff (remote : InAddressPort) (ans : Answer) :
    p.Unmade dst (p.connect dst src c remote ans) ↔
      (o.connects = true → remote.sockAddr = none) := by
  have through (impl : SocketImpl) (himpl : impl.fd = none) (t : Tag) (make : ActiveSocket → Obj)
      (h : ∀ a, (make a).tag = t) (left : Cell) :
      p.Unmade dst (p.transfer (impl.connect remote ans p.kernel).2 dst src (.result t make h none)
        left) ↔ remote.sockAddr = none := by
    rw [← (SocketImpl.connect_consumed himpl remote ans p.kernel).2]
    constructor
    · exact fun unmade => unmade.1
    · intro hsame
      rw [hsame]
      exact unmade_transfer free used t make h left
  have refused (impl : SocketImpl) (himpl : impl.fd = none) : impl.connect remote ans p.kernel =
      (false, (impl.connect remote ans p.kernel).2) :=
    Prod.ext (SocketImpl.connect_consumed himpl remote ans p.kernel).1 rfl
  unfold Program.connect
  rw [hval]
  cases o with
  | socket proto s =>
    have himpl : s.impl.fd = none := hfd
    cases hproto : proto.isConnectionless with
    | true =>
      exact iff_of_true (by simpa [hproto] using unmade_self free) (by simp [Obj.connects, hproto])
    | false =>
      simp only [hproto, SocketT.connect, Obj.connects]
      rw [refused s.impl himpl]
      simpa using through s.impl himpl _ _ _ _
  | binded proto s =>
    have himpl : s.impl.fd = none := hfd
    cases hproto : proto.isConnectionless with
    | true =>
      exact iff_of_true (by simpa [hproto] using unmade_self free) (by simp [Obj.connects, hproto])
    | false =>
      simp only [hproto, BindedSocket.connect, Obj.connects]
      rw [refused s.impl himpl]
      simpa using through s.impl himpl _ _ _ _
  | _ => exact iff_of_true (unmade_self free) (fun h => by cases h)

end

end Program

namespace Handles

variable {s : Handles} {dst src : ObjId}

/-! ### One operation -/

theorem consumed_cell (h : s.Consumed src) :
    ∃ c o, s.program.heap src = some c ∧ c.val = some o ∧ o.fd? = none := by
  obtain ⟨o, hobject, hfd⟩ := h
  obtain ⟨c, used, hval⟩ := Option.bind_eq_some_iff.mp hobject
  exact ⟨c, o, used, hval, hfd⟩

/-- A variable that is already defined stops the statement. -/
theorem fails_of_taken {st : Stmt} (taken : s.program.heap dst ≠ none)
    (h : s.program.step st = s.program) : s.Fails dst st :=
  ⟨by rw [h], fun free => absurd free taken⟩

theorem fails_iff {st : Stmt} (free : s.program.heap dst = none) :
    s.Fails dst st ↔ s.program.Unmade dst (s.program.step st) := by
  unfold Fails Program.Unmade
  exact and_congr_right fun _ => ⟨fun h => h free, fun h _ => h⟩

theorem fails_of {st : Stmt}
    (taken : ∀ d, s.program.heap dst = some d → s.program.step st = s.program)
    (free : s.program.heap dst = none → s.program.Unmade dst (s.program.step st)) :
    s.Fails dst st := by
  cases hdst : s.program.heap dst with
  | some d => exact fails_of_taken (by simp [hdst]) (taken d hdst)
  | none => exact (fails_iff hdst).mpr (free hdst)

/-- A transition other than `connect` fails on a handle without a descriptor. -/
theorem bind_fails (h : s.Consumed src) (addr : InAddressPort) (ans : Answer) :
    s.Fails dst (.bind dst src addr ans) := by
  obtain ⟨c, o, used, hval, hfd⟩ := consumed_cell h
  refine fails_of (fun d taken => by simp only [Program.step, taken]) fun free => ?_
  simp only [Program.step, free, used]
  exact Program.bind_unmade free used hval hfd addr ans

theorem listen_fails (h : s.Consumed src) (maxConn : UInt32) (ans : Answer) :
    s.Fails dst (.listen dst src maxConn ans) := by
  obtain ⟨c, o, used, hval, hfd⟩ := consumed_cell h
  refine fails_of (fun d taken => by simp only [Program.step, taken]) fun free => ?_
  simp only [Program.step, free, used]
  exact Program.listen_unmade free used hval hfd maxConn ans

theorem accept_fails (h : s.Consumed src) (ans : Except Errno (Fd × FilledAddr)) :
    s.Fails dst (.accept dst src ans) := by
  obtain ⟨c, o, used, hval, hfd⟩ := consumed_cell h
  refine fails_of (fun d taken => by simp only [Program.step, taken]) fun free => ?_
  simp only [Program.step, free, used]
  exact Program.accept_unmade free hval hfd ans

/-- `connect` fails without its call exactly when it has no call to make. -/
theorem connect_fails_iff (s : Handles) (dst src : ObjId) (remote : InAddressPort) (ans : Answer) :
    s.Inert (.stmt (.connect dst src remote ans)) ↔
      s.ConnectsHeld (.stmt (.connect dst src remote ans)) := by
  cases hdst : s.program.heap dst with
  | some d =>
    refine iff_of_true (fun _ => ?_) (fun free => ?_)
    · exact fails_of_taken (by simp [hdst]) (by simp [Program.step, hdst])
    · rw [hdst] at free
      cases free
  | none =>
    have step {c : Cell} (used : s.program.heap src = some c) :
        s.program.step (.connect dst src remote ans) =
          s.program.connect dst src c remote ans := by
      simp only [Program.step, hdst, used]
    constructor
    · intro inert _ o hobject connects hsome
      obtain ⟨c, used, hval⟩ := Option.bind_eq_some_iff.mp hobject
      by_contra hfd
      have hnone := Option.not_isSome_iff_eq_none.mp hfd
      have unmade := (fails_iff hdst).mp (inert ⟨o, hobject, hnone⟩)
      rw [step used, Program.connect_unmade_iff hdst used hval hnone] at unmade
      rw [unmade connects] at hsome
      cases hsome
    · intro held consumed
      obtain ⟨c, o, used, hval, hfd⟩ := consumed_cell consumed
      rw [fails_iff hdst, step used, Program.connect_unmade_iff hdst used hval hfd]
      intro connects
      by_contra hsome
      have open_ := held hdst o (Program.object_eq used hval) connects
        (Option.isSome_iff_ne_none.mpr hsome)
      rw [hfd] at open_
      cases open_

/-- The socket of a handle without a descriptor has none. -/
theorem active_consumed (h : s.Consumed src) {proto : Proto} {sock : ActiveSocket}
    (hactive : (s.program.object src).bind Obj.active? = some (proto, sock)) :
    sock.impl.fd = none := by
  obtain ⟨o, hobject, hfd⟩ := h
  rw [hobject, Option.bind_some] at hactive
  rw [← Obj.active?_fd hactive, hfd]

@[simp] theorem issued_none (s : Handles) : s.issued none s.program.kernel = s := rfl

theorem send_inert (h : s.Consumed src) (remote : InAddressPort) (data : List UInt8)
    (ans : Except Errno Nat) : s.act (.send src remote data ans) = (false, s) := by
  cases hactive : (s.program.object src).bind Obj.active? with
  | none => simp only [act, hactive]
  | some got =>
    obtain ⟨proto, sock⟩ := got
    have hsend := ActiveSocket.send_consumed (active_consumed h hactive)
    simp [act, hactive, hsend]

theorem receive_inert (h : s.Consumed src) (ans : Except Errno (List UInt8 × FilledAddr)) :
    s.act (.receive src ans) = (false, s) := by
  cases hactive : (s.program.object src).bind Obj.active? with
  | none => simp only [act, hactive]
  | some got =>
    obtain ⟨proto, sock⟩ := got
    have hreceive := ActiveSocket.receive_consumed (active_consumed h hactive)
    simp [act, hactive, hreceive]

theorem shutdown_inert (h : s.Consumed src) (dir : ShutdownDir) (ans : Answer) :
    (s.act (.shutdown src dir ans)).2 = s := by
  cases hactive : (s.program.object src).bind Obj.active? with
  | none => simp only [act, hactive]
  | some got =>
    obtain ⟨proto, sock⟩ := got
    have hshutdown := ActiveSocket.shutdown_consumed (active_consumed h hactive)
    simp [act, hactive, hshutdown]

theorem inert_iff (s : Handles) (op : HandleOp) : s.Inert op ↔ s.ConnectsHeld op := by
  cases op with
  | stmt st =>
    cases st with
    | connect dst src remote ans => exact connect_fails_iff s dst src remote ans
    | bind dst src addr ans => exact iff_of_true (fun h => bind_fails h addr ans) trivial
    | listen dst src maxConn ans => exact iff_of_true (fun h => listen_fails h maxConn ans) trivial
    | accept dst src ans => exact iff_of_true (fun h => accept_fails h ans) trivial
    | _ => exact Iff.rfl
  | send src remote data ans => exact iff_of_true (fun h => send_inert h remote data ans) trivial
  | receive src ans => exact iff_of_true (fun h => receive_inert h ans) trivial
  | shutdown src dir ans => exact iff_of_true (fun h => shutdown_inert h dir ans) trivial

/-! ### Any number of operations -/

/-- Handles without a descriptor are inert in a run exactly when no `connect` is made on one. -/
theorem consumed_run (ops : List HandleOp) :
    Along next Inert initial ops ↔ Along next ConnectsHeld initial ops :=
  along_congr inert_iff initial ops

/-- A TCP socket is connected, and then connected again on the handle that the first call
emptied. -/
def connectAgainRun : List HandleOp :=
  [.stmt (.create 0 tcp 2 (.ok 3)), .stmt (.connect 1 0 ⟨⟨fun _ => 0, 2⟩, 80⟩ (.ok ())),
    .stmt (.connect 2 0 ⟨⟨fun _ => 0, 2⟩, 80⟩ (.ok ()))]

/-- The second call goes to the kernel without a descriptor. -/
theorem connectAgainRun_not_inert : ¬Along next Inert initial connectAgainRun := by
  intro h
  have inert := ((h.2 _ rfl).2 _ rfl).1 ⟨_, rfl, rfl⟩
  have hlog := congrArg (fun k : Kernel => k.log.length) inert.1
  exact absurd hlog (by decide)

end Handles

end TypedSockets.Socket
