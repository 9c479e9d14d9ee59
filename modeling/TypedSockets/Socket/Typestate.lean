import TypedSockets.Socket.Past
import TypedSockets.Socket.Transfer

/-! The class of a socket object tells the past of its descriptor.  A transition that goes through
gives the descriptor to an object of the class that tells its new past, and one that does not leaves
both alone. -/

namespace TypedSockets.Socket

open TypedSockets.Lib TypedSockets.Epoll

/-! ### What a class says -/

/-- The past of a descriptor that `socket_t::create` made for the object. -/
def created (proto : Proto) (impl : SocketImpl) : List FdOp :=
  [.socket impl.family (sockNonblock ||| proto.type) (proto.flags.getD 0)]

section

variable (Means : SockAddr → InAddressPort → Prop)

/-- Bound once, to an address structure that means `local_`. -/
def BoundTo (proto : Proto) (impl : SocketImpl) (local_ : InAddressPort) (past : List FdOp) :
    Prop :=
  ∃ sa, Means sa local_ ∧ past = created proto impl ++ [.bind sa]

/-- Bound, and then listened with the limit of connections. -/
def ListenedOn (proto : Proto) (impl : SocketImpl) (local_ : InAddressPort) (maxConn : UInt32)
    (past : List FdOp) : Prop :=
  ∃ bound, BoundTo Means proto impl local_ bound ∧
    past = bound ++ [.listen (SocketImpl.backlog maxConn)]

/-- Bound to `local_` when there is one, and not bound otherwise. -/
def Unconnected (proto : Proto) (impl : SocketImpl) : Option InAddressPort → List FdOp → Prop
  | none, past => past = created proto impl
  | some local_, past => BoundTo Means proto impl local_ past

/-- Connected to `remote`, or on the way, once and after at most one `bind`. -/
def ConnectedTo (proto : Proto) (impl : SocketImpl) (remote : InAddressPort)
    (local_ : Option InAddressPort) (past : List FdOp) : Prop :=
  ∃ before sa, Means sa remote ∧ past = before ++ [.connect sa] ∧
    Unconnected Means proto impl local_ before

/-- Accepted from the peer `remote` on a listening descriptor with the past `origin`. -/
def AcceptedFrom (proto : Proto) (remote local_ : InAddressPort) (origin past : List FdOp) :
    Prop :=
  ∃ listener peer impl maxConn, past = [.accept listener peer] ∧ peer.addr.Names remote ∧
    ListenedOn Means proto impl local_ maxConn origin

def ActivePast (proto : Proto) (s : ActiveSocket) (origin past : List FdOp) : Prop :=
  (∃ remote local_, s.accepted = true ∧ s.remote = some remote ∧ s.local_ = some local_ ∧
    AcceptedFrom Means proto remote local_ origin past) ∨
  (∃ remote, s.accepted = false ∧ proto.isConnectionless = false ∧ s.remote = some remote ∧
    ConnectedTo Means proto s.impl remote s.local_ past) ∨
  ∃ local_, s.accepted = false ∧ proto.isConnectionless = true ∧ s.remote = none ∧
    s.local_ = some local_ ∧ BoundTo Means proto s.impl local_ past

/-- The past of the descriptor that the object holds.  `origin` is that of the descriptor that it
was accepted on. -/
def Obj.Tells (origin : List FdOp) : Obj → List FdOp → Prop
  | .socket proto s, past => past = created proto s.impl
  | .binded proto s, past => BoundTo Means proto s.impl s.local_ past
  | .listening proto s, past => ListenedOn Means proto s.impl s.local_ s.maxConn past
  | .active proto s, past => ActivePast Means proto s origin past
  | .accepted proto s, past => ActivePast Means proto s.sock origin past
  | .epoll _, _ => True

/-- The object of the variable tells the past of its descriptor. -/
def Cell.Tells (k : Kernel) (origin : Fd → List FdOp) (c : Cell) : Prop :=
  ∀ o fd, c.val = some o → o.fd? = some fd →
    ∃ past, k.fds fd = some past ∧ o.Tells Means (origin fd) past

end

/-! ### Programs that also send and receive -/

/-- A program with the past, at the time of the accept, of the descriptor that each accepted one
comes from. -/
structure Traced where
  program : Program
  origin : Fd → List FdOp

/-- A statement, or a transfer of data on an active socket. -/
inductive Use where
  | stmt (st : Stmt)
  | send (src : ObjId) (remote : InAddressPort) (data : List UInt8) (ans : Except Errno Nat)
  | receive (src : ObjId) (ans : Except Errno (List UInt8 × FilledAddr))

namespace Program

/-- The past of the descriptor that an object holds. -/
def pastOf (p : Program) (src : ObjId) : List FdOp :=
  (((p.object src).bind Obj.fd?).bind p.kernel.fds).getD []

def send (p : Program) (src : ObjId) (remote : InAddressPort) (data : List UInt8)
    (ans : Except Errno Nat) : Program :=
  match p.object src with
  | some (.active proto s) => { p with kernel := (s.send proto remote data ans p.kernel).2.2 }
  | _ => p

def receive (p : Program) (src : ObjId) (ans : Except Errno (List UInt8 × FilledAddr)) :
    Program :=
  match p.object src with
  | some (.active proto s) => { p with kernel := (s.receive proto ans p.kernel).2 }
  | _ => p

end Program

namespace Traced

def initial : Traced := ⟨.initial, fun _ => []⟩

def step (t : Traced) : Use → Traced
  | .stmt (.accept dst src ans) =>
    ⟨t.program.step (.accept dst src ans), fun fd =>
      if t.program.kernel.Open fd then t.origin fd else t.program.pastOf src⟩
  | .stmt st => ⟨t.program.step st, t.origin⟩
  | .send src remote data ans => ⟨t.program.send src remote data ans, t.origin⟩
  | .receive src ans => ⟨t.program.receive src ans, t.origin⟩

def next (t : Traced) (u : Use) : Option Traced := some (t.step u)

/-- Every object tells the past of its descriptor. -/
def Typed (Means : SockAddr → InAddressPort → Prop) (t : Traced) : Prop :=
  ∀ i c, t.program.heap i = some c → c.Tells Means t.program.kernel t.origin

/-- A `bind` or `connect` goes through, with the address. -/
inductive GoesThrough (t : Traced) : Use → InAddressPort → Prop
  | bind {dst src proto s addr} : t.program.heap dst = none →
      t.program.object src = some (.socket proto s) → s.impl.fd.isSome → addr.sockAddr.isSome →
      GoesThrough t (.stmt (.bind dst src addr (.ok ()))) addr
  | connect {dst src proto s remote ans} : t.program.heap dst = none →
      t.program.object src = some (.socket proto s) → proto.isConnectionless = false →
      s.impl.fd.isSome → remote.sockAddr.isSome → ans = .ok () ∨ ans = .error eInProgress →
      GoesThrough t (.stmt (.connect dst src remote ans)) remote
  | connectBinded {dst src proto s remote ans} : t.program.heap dst = none →
      t.program.object src = some (.binded proto s) → proto.isConnectionless = false →
      s.impl.fd.isSome → remote.sockAddr.isSome → ans = .ok () ∨ ans = .error eInProgress →
      GoesThrough t (.stmt (.connect dst src remote ans)) remote

/-- An address that gets to the kernel has a port of 16 bits. -/
def PortsFit (t : Traced) (u : Use) : Prop :=
  ∀ addr, t.GoesThrough u addr → addr.port.toNat < 65536

/-- The calls that a statement issues are right for the past of their descriptors. -/
def IssuesRight (t : Traced) : Use → Prop
  | .stmt st => ∀ call ∈ t.program.issued st, match call with
    | .bind fd _ => ∃ proto impl, t.program.kernel.fds fd = some (created proto impl)
    | .listen fd _ => ∃ proto impl sa,
        t.program.kernel.fds fd = some (created proto impl ++ [.bind sa])
    | .accept fd => ∃ proto impl sa n,
        t.program.kernel.fds fd = some (created proto impl ++ [.bind sa] ++ [.listen n])
    | .connect (some fd) _ => ∃ past, t.program.kernel.fds fd = some past ∧
        ∀ sa, .connect sa ∉ past
    | _ => True
  | _ => True

end Traced

section

variable {Means : SockAddr → InAddressPort → Prop}

theorem Cell.tells_free {c : Cell} (free : c.fd? = none) (k : Kernel) (origin : Fd → List FdOp) :
    c.Tells Means k origin := by
  intro o fd hval hfd
  rw [Program.fd?_eq hval, hfd] at free
  cases free

/-- A variable with the same object tells the same, when its descriptor kept its past. -/
theorem Cell.Tells.same {c c' : Cell} {k k' : Kernel} {origin origin' : Fd → List FdOp}
    (h : c.Tells Means k origin) (val : c'.val = c.val)
    (kept : ∀ fd, c.fd? = some fd → k'.fds fd = k.fds fd ∧ origin' fd = origin fd) :
    c'.Tells Means k' origin' := by
  intro o fd hval hfd
  rw [val] at hval
  obtain ⟨hfds, horigin⟩ := kept fd ((Program.fd?_eq hval).trans hfd)
  rw [hfds, horigin]
  exact h o fd hval hfd

namespace Traced

variable {t : Traced}

/-- A step that touches two variables, and the descriptors that they held, leaves the others to tell
what they told. -/
theorem typed_frame (h : t.Typed Means) (hx : t.program.owners.Exclusive) {p : Program}
    {origin : Fd → List FdOp} (dst src : ObjId)
    (frame : ∀ i, i ≠ dst → i ≠ src → p.heap i = t.program.heap i)
    (kept : ∀ fd, t.program.kernel.Open fd → t.program.owners.holds dst ≠ some fd →
      t.program.owners.holds src ≠ some fd →
      p.kernel.fds fd = t.program.kernel.fds fd ∧ origin fd = t.origin fd)
    (hdst : ∀ c, p.heap dst = some c → c.Tells Means p.kernel origin)
    (hsrc : ∀ c, p.heap src = some c → c.Tells Means p.kernel origin) :
    (⟨p, origin⟩ : Traced).Typed Means := by
  intro i c hc
  by_cases hid : i = dst
  · exact hdst c (hid ▸ hc)
  · by_cases his : i = src
    · exact hsrc c (his ▸ hc)
    · have hold : t.program.heap i = some c := (frame i hid his).symm.trans hc
      refine (h i c hold).same rfl fun fd hfd => ?_
      have holds : t.program.owners.holds i = some fd := by simp [Program.owners, hold, hfd]
      exact kept fd (hx.sound i fd holds) (fun hd => hid (hx.unique i dst fd holds hd))
        (fun hs => his (hx.unique i src fd holds hs))

/-- A program that keeps its variables and the open descriptors. -/
theorem typed_kernel (h : t.Typed Means) {k : Kernel} (same : k.fds = t.program.kernel.fds) :
    (⟨{ t.program with kernel := k }, t.origin⟩ : Traced).Typed Means :=
  fun i c hc => (h i c hc).same rfl fun _ _ => ⟨by rw [same], rfl⟩

theorem typed_origin (h : t.Typed Means) (hx : t.program.owners.Exclusive)
    {origin : Fd → List FdOp} (kept : ∀ fd, t.program.kernel.Open fd → origin fd = t.origin fd) :
    (⟨t.program, origin⟩ : Traced).Typed Means := by
  intro i c hc
  have hc : t.program.heap i = some c := hc
  refine (h i c hc).same rfl fun fd hfd => ⟨rfl, kept fd (hx.sound i fd ?_)⟩
  simp [Program.owners, hc, hfd]

section

variable {dst src : ObjId} {c : Cell} {old : Obj} {k : Kernel}

/-- A call that was refused leaves the object. -/
theorem typed_refused {α : Type} (h : t.Typed Means) (hx : t.program.owners.Exclusive)
    (used : t.program.heap src = some c) (hval : c.val = some old)
    (same : k.fds = t.program.kernel.fds) {tag : Tag} {make : α → Obj}
    {htag : ∀ a, (make a).tag = tag} :
    (⟨t.program.transfer k dst src (.result tag make htag none) (c.put old), t.origin⟩ :
      Traced).Typed Means := by
  have hput : (c.put old).val = c.val := by simp [Cell.put, hval]
  refine typed_frame h hx dst src ?_ (fun fd _ _ _ => ⟨congrFun same fd, rfl⟩) ?_ ?_
  · intro i hid his
    simp [Program.transfer, hid, his]
  · intro d hd
    by_cases hds : dst = src
    · obtain rfl : c.put old = d := by simpa [Program.transfer, hds] using hd
      exact (h src c used).same hput fun fd _ => ⟨congrFun same fd, rfl⟩
    · obtain rfl : Cell.result tag make htag none = d := by
        simpa [Program.transfer, hds] using hd
      exact Cell.tells_free rfl _ _
  · intro d hd
    obtain rfl : c.put old = d := by simpa [Program.transfer] using hd
    exact (h src c used).same hput fun fd _ => ⟨congrFun same fd, rfl⟩

/-- A call that went through gives the descriptor to its result, which tells the new past or does
not. -/
theorem typed_passed {α : Type} (h : t.Typed Means) (hx : t.program.owners.Exclusive)
    (free : t.program.heap dst = none) (used : t.program.heap src = some c)
    {left : Obj} {fd : Fd} {past : List FdOp} (hval : c.val = some old) (hold : old.fd? = some fd)
    (tag' : old.tag = left.tag) (gives : left.fd? = none)
    (fds : k.fds = Function.update t.program.kernel.fds fd (some past)) {tag : Tag}
    {make : α → Obj} {htag : ∀ a, (make a).tag = tag} {a : α} (takes : (make a).fd? = some fd) :
    (⟨t.program.transfer k dst src (.result tag make htag (some a)) (c.put left), t.origin⟩ :
      Traced).Typed Means ↔ (make a).Tells Means (t.origin fd) past := by
  have hne : dst ≠ src := by
    rintro rfl
    rw [free] at used
    cases used
  constructor
  · intro htyped
    have hd : (t.program.transfer k dst src (.result tag make htag (some a)) (c.put left)).heap dst =
        some (.result tag make htag (some a)) := by
      simp [Program.transfer, hne]
    obtain ⟨past', hpast, htells⟩ := htyped dst _ hd (make a) fd rfl takes
    have hsame : past' = past := by
      simpa [Program.transfer, fds, eq_comm] using hpast
    exact hsame ▸ htells
  · intro htells
    refine typed_frame h hx dst src ?_ ?_ ?_ ?_
    · intro i hid his
      simp [Program.transfer, hid, his]
    · intro fd' _ _ hsrc
      have hother : fd' ≠ fd := by
        rintro rfl
        exact hsrc (by simp [Program.owners, used, Program.fd?_eq hval, hold])
      simp [Program.transfer, fds, hother]
    · intro d hd
      obtain rfl : Cell.result tag make htag (some a) = d := by
        simpa [Program.transfer, hne] using hd
      rintro o fd' hmake hfd'
      cases hmake
      obtain rfl : fd = fd' := Option.some.inj (takes.symm.trans hfd')
      exact ⟨past, by simp [Program.transfer, fds], htells⟩
    · intro d hd
      obtain rfl : c.put left = d := by simpa [Program.transfer] using hd
      exact Cell.tells_free ((Program.put_fd? hval tag').trans gives) _ _

/-- A transition tells the truth exactly when its result does, in case it goes through. -/
theorem typed_call {α β : Type} (h : t.Typed Means) (hx : t.program.owners.Exclusive)
    (free : t.program.heap dst = none) (used : t.program.heap src = some c)
    {call : Bool × Kernel} (out : Option α × β × Kernel) (result : α) (moved kept : β)
    (hout : out = match call with
      | (true, k) => (some result, moved, k)
      | (false, k) => (none, kept, k))
    (objOf : β → Obj) (hval : c.val = some (objOf kept)) {op : FdOp → Prop}
    (hrec : Records t.program.kernel (objOf kept).fd? op call)
    (same : (objOf kept).tag = (objOf moved).tag) (gives : (objOf moved).fd? = none) {tag : Tag}
    {make : α → Obj} {htag : ∀ a, (make a).tag = tag}
    (takes : (make result).fd? = (objOf kept).fd?) {Fit : Prop}
    (went : call.1 = true → ∀ fd past done, (objOf kept).fd? = some fd → op done →
      (objOf kept).Tells Means (t.origin fd) past →
      ((make result).Tells Means (t.origin fd) (past ++ [done]) ↔ Fit))
    (refused : call.1 = false → Fit) :
    (⟨t.program.transfer out.2.2 dst src (.result tag make htag out.1) (c.put (objOf out.2.1)),
      t.origin⟩ : Traced).Typed Means ↔ Fit := by
  obtain ⟨zero, k'⟩ := call
  subst hout
  rcases hrec with ⟨fd, past, done, hfd, hop, hpast, htrue, hfds⟩ | ⟨hfalse, hfds⟩
  · obtain rfl : zero = true := htrue
    obtain ⟨past', hpast', htells⟩ := h src c used _ fd hval hfd
    obtain rfl : past = past' := Option.some.inj (hpast.symm.trans hpast')
    rw [typed_passed h hx free used hval hfd same gives hfds (takes.trans hfd)]
    exact went rfl fd past done hfd hop htells
  · obtain rfl : zero = false := hfalse
    exact iff_of_true (typed_refused h hx used hval hfds) (refused rfl)

end

/-- The addresses that get to the kernel are those that it is told. -/
def MeansFit (Means : SockAddr → InAddressPort → Prop) (t : Traced) (u : Use) : Prop :=
  ∀ addr, t.GoesThrough u addr → ∀ sa, addr.sockAddr = some sa → Means sa addr

section

variable {dst src : ObjId} {c : Cell}

theorem goesThrough_bind {proto : Proto} {s : SocketT} (free : t.program.heap dst = none)
    (hobj : t.program.object src = some (.socket proto s)) {addr a : InAddressPort} {ans : Answer}
    (sound : ∀ fd, s.impl.fd = some fd → t.program.kernel.Open fd) :
    t.GoesThrough (.stmt (.bind dst src addr ans)) a ↔
      a = addr ∧ (s.impl.bind addr ans t.program.kernel).1 = true := by
  rw [SocketImpl.bind_goes sound]
  constructor
  · intro h
    cases h with
    | bind _ hobj' hfd hsa =>
      cases hobj.symm.trans hobj'
      exact ⟨rfl, rfl, hfd, hsa⟩
  · rintro ⟨rfl, rfl, hfd, hsa⟩
    exact .bind free hobj hfd hsa

theorem goesThrough_connect {proto : Proto} {s : SocketT} (free : t.program.heap dst = none)
    (hobj : t.program.object src = some (.socket proto s)) (based : proto.isConnectionless = false)
    {remote a : InAddressPort} {ans : Answer}
    (sound : ∀ fd, s.impl.fd = some fd → t.program.kernel.Open fd) :
    t.GoesThrough (.stmt (.connect dst src remote ans)) a ↔
      a = remote ∧ (s.impl.connect remote ans t.program.kernel).1 = true := by
  rw [SocketImpl.connect_goes sound]
  constructor
  · intro h
    cases h with
    | connect _ hobj' _ hfd hsa hans =>
      cases hobj.symm.trans hobj'
      exact ⟨rfl, hans, hfd, hsa⟩
    | connectBinded _ hobj' _ _ _ _ => cases hobj.symm.trans hobj'
  · rintro ⟨rfl, hans, hfd, hsa⟩
    exact .connect free hobj based hfd hsa hans

theorem goesThrough_connectBinded {proto : Proto} {s : BindedSocket}
    (free : t.program.heap dst = none) (hobj : t.program.object src = some (.binded proto s))
    (based : proto.isConnectionless = false) {remote a : InAddressPort} {ans : Answer}
    (sound : ∀ fd, s.impl.fd = some fd → t.program.kernel.Open fd) :
    t.GoesThrough (.stmt (.connect dst src remote ans)) a ↔
      a = remote ∧ (s.impl.connect remote ans t.program.kernel).1 = true := by
  rw [SocketImpl.connect_goes sound]
  constructor
  · intro h
    cases h with
    | connect _ hobj' _ _ _ _ => cases hobj.symm.trans hobj'
    | connectBinded _ hobj' _ hfd hsa hans =>
      cases hobj.symm.trans hobj'
      exact ⟨rfl, hans, hfd, hsa⟩
  · rintro ⟨rfl, hans, hfd, hsa⟩
    exact .connectBinded free hobj based hfd hsa hans

theorem sound_of_used (hx : t.program.owners.Exclusive) (used : t.program.heap src = some c)
    {o : Obj} (hval : c.val = some o) (fd : Fd) (hfd : o.fd? = some fd) :
    t.program.kernel.Open fd :=
  hx.sound src fd (by simp [Program.owners, used, Program.fd?_eq hval, hfd])

theorem typed_bind (h : t.Typed Means) (hx : t.program.owners.Exclusive)
    (free : t.program.heap dst = none) (used : t.program.heap src = some c)
    (addr : InAddressPort) (ans : Answer) :
    (⟨t.program.bind dst src c addr ans, t.origin⟩ : Traced).Typed Means ↔
      t.MeansFit Means (.stmt (.bind dst src addr ans)) := by
  unfold Program.bind MeansFit
  split
  · rename_i proto s hval
    have hobj := Program.object_eq used hval
    have sound := sound_of_used hx used hval
    simp only [goesThrough_bind free hobj sound]
    -- the structure that got to the kernel is that of the address
    have bound (hgo : (s.impl.bind addr ans t.program.kernel).1 = true) {sa : SockAddr}
        (hsa : addr.sockAddr = some sa) :
        BoundTo Means proto s.impl addr (created proto s.impl ++ [.bind sa]) ↔
          ∀ a, a = addr ∧ (s.impl.bind addr ans t.program.kernel).1 = true →
            ∀ sa, a.sockAddr = some sa → Means sa a := by
      simp [BoundTo, hgo, hsa]
    have refused (hfalse : (s.impl.bind addr ans t.program.kernel).1 = false) :
        ∀ a, a = addr ∧ (s.impl.bind addr ans t.program.kernel).1 = true →
          ∀ sa, a.sockAddr = some sa → Means sa a := by
      simp [hfalse]
    split_ifs with hproto
    · refine typed_call h hx free used (s.bindConnectionless addr ans t.program.kernel) _ _ s rfl
        (Obj.socket proto) hval (s.impl.bind_records addr ans _) rfl rfl rfl ?_ refused
      rintro hgo fd past _ hfd ⟨sa, hsa, rfl⟩ rfl
      rw [← bound hgo hsa]
      simp [Obj.Tells, ActivePast, hproto]
    · refine typed_call h hx free used (s.bind addr ans t.program.kernel) _ _ s rfl
        (Obj.socket proto) hval (s.impl.bind_records addr ans _) rfl rfl rfl ?_ refused
      rintro hgo fd past _ hfd ⟨sa, hsa, rfl⟩ rfl
      exact bound hgo hsa
  · rename_i hother
    have hobject : t.program.object src = c.val := by rw [Program.object, used, Option.bind_some]
    refine iff_of_true h fun a hgo => ?_
    cases hgo with
    | bind _ hobj _ _ => exact absurd (hobject.symm.trans hobj) (hother _ _)

/-- `listen` takes no address: its result tells the truth whenever the bound socket does. -/
theorem typed_listen (h : t.Typed Means) (hx : t.program.owners.Exclusive)
    (free : t.program.heap dst = none) (used : t.program.heap src = some c) (maxConn : UInt32)
    (ans : Answer) :
    (⟨t.program.listen dst src c maxConn ans, t.origin⟩ : Traced).Typed Means := by
  unfold Program.listen
  split
  · rename_i proto s hval
    split_ifs
    · exact h
    · apply of_iff_true
      refine typed_call h hx free used (s.listen maxConn ans t.program.kernel) _ _ s rfl
        (Obj.binded proto) hval (s.impl.listen_records maxConn ans _) rfl rfl rfl ?_
        fun _ => trivial
      rintro - fd past _ - rfl htells
      exact iff_of_true ⟨past, htells, rfl⟩ trivial
  · exact h

/-- Where the object says that it is connected to `remote`, the kernel was told so. -/
theorem activePast_connect {impl : SocketImpl} {proto : Proto}
    (hproto : ¬proto.isConnectionless = true) {remote : InAddressPort} {sa : SockAddr}
    (local_ : Option InAddressPort) {origin past : List FdOp}
    (before : Unconnected Means proto impl local_ past) :
    ActivePast Means proto { impl, remote := some remote, local_ } origin (past ++ [.connect sa]) ↔
      Means sa remote := by
  constructor
  · rintro (⟨_, _, haccepted, -⟩ | ⟨_, -, -, hremote, _, sa', hmeans, heq, -⟩ | ⟨_, -, hconn, -⟩)
    · cases haccepted
    · cases hremote
      obtain ⟨-, hlast⟩ := List.append_inj' heq rfl
      cases hlast
      exact hmeans
    · exact absurd hconn hproto
  · intro hmeans
    exact Or.inr (Or.inl ⟨remote, rfl, by simpa using hproto, rfl, past, sa, hmeans, rfl, before⟩)

theorem typed_connect (h : t.Typed Means) (hx : t.program.owners.Exclusive)
    (free : t.program.heap dst = none) (used : t.program.heap src = some c)
    (remote : InAddressPort) (ans : Answer) :
    (⟨t.program.connect dst src c remote ans, t.origin⟩ : Traced).Typed Means ↔
      t.MeansFit Means (.stmt (.connect dst src remote ans)) := by
  have connected {impl : SocketImpl} {proto : Proto} (hproto : ¬proto.isConnectionless = true)
      (hgo : (impl.connect remote ans t.program.kernel).1 = true) {sa : SockAddr}
      (hsa : remote.sockAddr = some sa) (local_ : Option InAddressPort) {origin past : List FdOp}
      (before : Unconnected Means proto impl local_ past) :
      ActivePast Means proto { impl, remote := some remote, local_ } origin
          (past ++ [.connect sa]) ↔
        ∀ a, a = remote ∧ (impl.connect remote ans t.program.kernel).1 = true →
          ∀ sa, a.sockAddr = some sa → Means sa a := by
    rw [activePast_connect hproto local_ before]
    simp [hgo, hsa]
  have refused {impl : SocketImpl}
      (hfalse : (impl.connect remote ans t.program.kernel).1 = false) :
      ∀ a, a = remote ∧ (impl.connect remote ans t.program.kernel).1 = true →
        ∀ sa, a.sockAddr = some sa → Means sa a := by
    simp [hfalse]
  unfold Program.connect MeansFit
  split
  · rename_i proto s hval
    have hobj := Program.object_eq used hval
    split_ifs with hproto
    · refine iff_of_true h fun a hgo => ?_
      cases hgo with
      | connect _ hobj' hbased _ _ _ =>
        cases hobj.symm.trans hobj'
        simp [hproto] at hbased
      | connectBinded _ hobj' _ _ _ _ => cases hobj.symm.trans hobj'
    · simp only [goesThrough_connect free hobj (by simpa using hproto)
        (sound_of_used hx used hval)]
      refine typed_call h hx free used (s.connect remote ans t.program.kernel) _ _ s rfl
        (Obj.socket proto) hval (s.impl.connect_records remote ans _) rfl rfl rfl ?_ refused
      rintro hgo fd past _ hfd ⟨sa, hsa, rfl⟩ hpast
      exact connected hproto hgo hsa none hpast
  · rename_i proto s hval
    have hobj := Program.object_eq used hval
    split_ifs with hproto
    · refine iff_of_true h fun a hgo => ?_
      cases hgo with
      | connect _ hobj' _ _ _ _ => cases hobj.symm.trans hobj'
      | connectBinded _ hobj' hbased _ _ _ =>
        cases hobj.symm.trans hobj'
        simp [hproto] at hbased
    · simp only [goesThrough_connectBinded free hobj (by simpa using hproto)
        (sound_of_used hx used hval)]
      refine typed_call h hx free used (s.connect remote ans t.program.kernel) _ _ s rfl
        (Obj.binded proto) hval (s.impl.connect_records remote ans _) rfl rfl rfl ?_ refused
      rintro hgo fd past _ hfd ⟨sa, hsa, rfl⟩ hpast
      exact connected hproto hgo hsa (some s.local_) hpast
  · rename_i hsocket hbinded
    have hobject : t.program.object src = c.val := by rw [Program.object, used, Option.bind_some]
    refine iff_of_true h fun a hgo => ?_
    cases hgo with
    | connect _ hobj _ _ _ _ => exact absurd (hobject.symm.trans hobj) (hsocket _ _)
    | connectBinded _ hobj _ _ _ _ => exact absurd (hobject.symm.trans hobj) (hbinded _ _)

/-- A descriptor that a call opens for a new variable. -/
theorem typed_define (h : t.Typed Means) (hx : t.program.owners.Exclusive) {k : Kernel}
    {origin : Fd → List FdOp} {new : Cell}
    (kept : ∀ fd, t.program.kernel.Open fd →
      k.fds fd = t.program.kernel.fds fd ∧ origin fd = t.origin fd)
    (hnew : new.Tells Means k origin) :
    (⟨t.program.define k dst new, origin⟩ : Traced).Typed Means := by
  have hdst : ∀ c, (t.program.define k dst new).heap dst = some c → c.Tells Means k origin := by
    intro c hc
    obtain rfl : new = c := by simpa [Program.define] using hc
    exact hnew
  refine typed_frame h hx dst dst ?_ (fun fd hopen _ _ => kept fd hopen) hdst hdst
  intro i hid _
  simp [Program.define, hid]

/-- An object that goes to another variable, in the place of what that one held. -/
theorem typed_move (h : t.Typed Means) (hx : t.program.owners.Exclusive) (hne : dst ≠ src)
    (used : t.program.heap src = some c) {k : Kernel} {new : Cell}
    (kept : ∀ fd, t.program.owners.holds dst ≠ some fd → k.fds fd = t.program.kernel.fds fd)
    (hnew : c.Tells Means k t.origin → new.Tells Means k t.origin) :
    (⟨t.program.transfer k dst src new c.moved, t.origin⟩ : Traced).Typed Means := by
  refine typed_frame h hx dst src ?_ (fun fd _ hd _ => ⟨kept fd hd, rfl⟩) ?_ ?_
  · intro i hid his
    simp [Program.transfer, hid, his]
  · intro d hd
    obtain rfl : new = d := by simpa [Program.transfer, hne] using hd
    -- what `dst` held is not what `src` held
    refine hnew ((h src c used).same rfl fun fd hfd => ⟨kept fd fun hdst => ?_, rfl⟩)
    exact hne (hx.unique dst src fd hdst (by simp [Program.owners, used, hfd]))
  · intro d hd
    obtain rfl : c.moved = d := by simpa [Program.transfer] using hd
    exact Cell.tells_free (Program.moved_fd? c) _ _

/-- The result of `accept` gets the past of the listening descriptor as its origin. -/
theorem typed_accept (h : t.Typed Means) (hx : t.program.owners.Exclusive)
    (used : t.program.heap src = some c)
    (ans : Except Errno (Fd × FilledAddr)) :
    (⟨t.program.accept dst c ans, fun fd =>
      if t.program.kernel.Open fd then t.origin fd else t.program.pastOf src⟩ :
      Traced).Typed Means := by
  have unchanged : (⟨t.program, fun fd =>
      if t.program.kernel.Open fd then t.origin fd else t.program.pastOf src⟩ :
      Traced).Typed Means := typed_origin h hx fun fd hopen => if_pos hopen
  unfold Program.accept
  split
  · rename_i proto s hval
    split_ifs with hproto
    · exact unchanged
    · rcases s.impl.accept_fds ans t.program.kernel with
        ⟨fd, new, peer, remote, k', hfd, hpeer, fresh, heq, hfds⟩ | ⟨k', heq, hfds⟩
      · have hacc : s.accept ans t.program.kernel =
            (some { impl := ⟨some new, s.impl.family⟩, remote := some remote,
                    local_ := some s.local_, accepted := true }, k') := by
          unfold ListeningSocket.accept
          rw [heq]
        have kept : ∀ fd', t.program.kernel.Open fd' →
            k'.fds fd' = t.program.kernel.fds fd' := by
          intro fd' hopen
          have hother : fd' ≠ new := by
            rintro rfl
            exact fresh hopen
          rw [hfds, Function.update_of_ne hother]
        simp only [hacc]
        refine typed_define h hx (fun fd' hopen => ⟨kept fd' hopen, if_pos hopen⟩) ?_
        rintro o fd' hmake hfd'
        cases hmake
        cases hfd'
        obtain ⟨past, hpast, htells⟩ := h src c used _ fd hval hfd
        have hfrom : t.program.pastOf src = past := by
          have hobj : t.program.object src = some (.listening proto s) :=
            Program.object_eq used hval
          have hheld : (Obj.listening proto s).fd? = some fd := hfd
          simp [Program.pastOf, hobj, hheld, hpast]
        refine ⟨[.accept fd peer], by rw [hfds]; simp, Or.inl ⟨remote, s.local_, rfl, rfl, rfl, ?_⟩⟩
        simp only [if_neg fresh, hfrom]
        exact ⟨fd, peer, s.impl, s.maxConn, rfl, parseAddr_names hpeer, htells⟩
      · have hacc : s.accept ans t.program.kernel = (none, k') := by
          unfold ListeningSocket.accept
          rw [heq]
        simp only [hacc]
        exact typed_define h hx (fun fd hopen => ⟨by rw [hfds], if_pos hopen⟩)
          (Cell.tells_free rfl _ _)
  · exact unchanged

theorem typed_create (h : t.Typed Means) (hx : t.program.owners.Exclusive) (proto : Proto) (af : Int)
    (ans : Except Errno Fd) :
    (⟨t.program.define (SocketT.create proto af ans t.program.kernel).2 dst
      (.result (.socket proto) (.socket proto) (fun _ => rfl)
        (SocketT.create proto af ans t.program.kernel).1), t.origin⟩ : Traced).Typed Means := by
  rcases SocketT.create_fds proto af ans t.program.kernel with
    ⟨fd, k', fresh, heq, hfds⟩ | ⟨k', heq, hfds⟩
  · rw [heq]
    refine typed_define h hx (fun fd' hopen => ⟨?_, rfl⟩) ?_
    · have hother : fd' ≠ fd := by
        rintro rfl
        exact fresh hopen
      rw [hfds, Function.update_of_ne hother]
    · rintro o fd' hmake hfd'
      cases hmake
      cases hfd'
      exact ⟨created proto ⟨some fd, af⟩, by rw [hfds, Function.update_self]; rfl, rfl⟩
  · rw [heq]
    exact typed_define h hx (fun fd hopen => ⟨by rw [hfds], rfl⟩) (Cell.tells_free rfl _ _)

theorem typed_epoll (h : t.Typed Means) (hx : t.program.owners.Exclusive) (queueSize : Int)
    (maxEvents : Nat) (ans : Except Errno Fd) :
    (⟨t.program.define (EpollT.create queueSize maxEvents ans t.program.kernel).2 dst
      (.result .epoll .epoll (fun _ => rfl)
        (EpollT.create queueSize maxEvents ans t.program.kernel).1), t.origin⟩ :
      Traced).Typed Means := by
  refine typed_define h hx (fun fd hopen => ⟨EpollT.create_fds _ _ _ _ hopen, rfl⟩) ?_
  intro o fd hval hfd
  have hopens := EpollT.create_opens queueSize maxEvents ans t.program.kernel
  obtain ⟨e, he, rfl⟩ := Option.map_eq_some_iff.mp hval
  have hopen := (hopens.opened fd).mpr (Or.inr (by rw [he]; exact hfd))
  obtain ⟨past, hpast⟩ := Kernel.open_iff.mp hopen
  exact ⟨past, hpast, trivial⟩

theorem typed_assigned (h : t.Typed Means) (hx : t.program.owners.Exclusive)
    (used : t.program.heap dst = some c) (new : Option Cell)
    (hnew : ∀ d ∈ new, d.val = none) :
    (⟨⟨Program.assigned t.program.kernel c.val none, Function.update t.program.heap dst new⟩,
      t.origin⟩ : Traced).Typed Means := by
  have hdst : ∀ d, Function.update t.program.heap dst new dst = some d →
      d.Tells Means (Program.assigned t.program.kernel c.val none) t.origin := by
    intro d hd
    rw [Function.update_self] at hd
    exact Cell.tells_free (by simp [Cell.fd?, hnew d hd]) _ _
  refine typed_frame h hx dst dst ?_ ?_ hdst hdst
  · intro i hid _
    simp [hid]
  · intro fd _ hheld _
    exact ⟨Program.assigned_fds _ _ _ (by simpa [Program.owners, used, Cell.fd?] using hheld), rfl⟩

theorem typed_wrap (h : t.Typed Means) (hx : t.program.owners.Exclusive)
    (free : t.program.heap dst = none) (used : t.program.heap src = some c)
    (remote : InAddressPort) :
    (⟨t.program.wrap dst src c remote, t.origin⟩ : Traced).Typed Means := by
  have hne : dst ≠ src := by
    rintro rfl
    rw [free] at used
    cases used
  unfold Program.wrap
  split
  · rename_i proto s hval
    split_ifs
    · exact h
    · refine typed_move h hx hne used (fun _ _ => rfl) ?_
      rintro htells o fd hmake hfd
      cases hmake
      exact htells (.active proto s) fd hval hfd
  · exact h

theorem typed_moveConstruct (h : t.Typed Means) (hx : t.program.owners.Exclusive)
    (free : t.program.heap dst = none) (used : t.program.heap src = some c) {type : CellType}
    (hadmits : type.Admits c.val) :
    (⟨t.program.transfer t.program.kernel dst src ⟨type, c.val, hadmits⟩ c.moved, t.origin⟩ :
      Traced).Typed Means := by
  have hne : dst ≠ src := by
    rintro rfl
    rw [free] at used
    cases used
  exact typed_move h hx hne used (fun _ _ => rfl) fun htells => htells

theorem typed_moveAssign {d : Cell} (h : t.Typed Means) (hx : t.program.owners.Exclusive)
    (hd : t.program.heap dst = some d) (hc : t.program.heap src = some c) :
    (⟨t.program.moveAssign dst src d c, t.origin⟩ : Traced).Typed Means := by
  unfold Program.moveAssign
  split_ifs with heq hadmits
  · exact h
  · refine typed_move h hx heq hc ?_ fun htells => htells
    intro fd hheld
    exact Program.assigned_fds _ _ _ (by simpa [Program.owners, hd, Cell.fd?] using hheld)
  · exact h

end

/-- Only a `bind` or a `connect` goes through with an address. -/
theorem meansFit_other {u : Use} (hbind : ∀ dst src addr ans, u ≠ .stmt (.bind dst src addr ans))
    (hconnect : ∀ dst src remote ans, u ≠ .stmt (.connect dst src remote ans)) :
    t.MeansFit Means u := by
  intro addr hgo
  cases hgo with
  | bind => exact absurd rfl (hbind _ _ _ _)
  | connect => exact absurd rfl (hconnect _ _ _ _)
  | connectBinded => exact absurd rfl (hconnect _ _ _ _)

theorem meansFit_used {dst src : ObjId} (h : ∀ c, t.program.heap dst = none →
    t.program.heap src ≠ some c) {u : Use}
    (hu : (∃ addr ans, u = .stmt (.bind dst src addr ans)) ∨
      ∃ remote ans, u = .stmt (.connect dst src remote ans)) : t.MeansFit Means u := by
  have none_of {o : Obj} (hfree : t.program.heap dst = none)
      (hobj : t.program.object src = some o) : False := by
    obtain ⟨c, hc, -⟩ := Option.bind_eq_some_iff.mp hobj
    exact h c hfree hc
  rcases hu with ⟨addr, ans, rfl⟩ | ⟨remote, ans, rfl⟩
  · intro a hgo
    cases hgo with
    | bind hfree hobj => exact (none_of hfree hobj).elim
  · intro a hgo
    cases hgo with
    | connect hfree hobj => exact (none_of hfree hobj).elim
    | connectBinded hfree hobj => exact (none_of hfree hobj).elim

/-- A step keeps every object telling its past exactly when the addresses that it gets to the kernel
are those that it is told. -/
theorem typed_step (h : t.Typed Means) (hx : t.program.owners.Exclusive) (u : Use) :
    (t.step u).Typed Means ↔ t.MeansFit Means u := by
  have always {u : Use} (hbind : ∀ dst src addr ans, u ≠ .stmt (.bind dst src addr ans))
      (hconnect : ∀ dst src remote ans, u ≠ .stmt (.connect dst src remote ans))
      (typed : (t.step u).Typed Means) : (t.step u).Typed Means ↔ t.MeansFit Means u :=
    iff_of_true typed (meansFit_other hbind hconnect)
  cases u with
  | send src remote data ans =>
    refine always (by simp) (by simp) ?_
    simp only [step, Program.send]
    split
    · exact typed_kernel h (ActiveSocket.send_fds _ _ _ _ _ _)
    · exact h
  | receive src ans =>
    refine always (by simp) (by simp) ?_
    simp only [step, Program.receive]
    split
    · exact typed_kernel h (ActiveSocket.receive_fds _ _ _ _)
    · exact h
  | stmt st =>
    cases st with
    | create dst proto af ans =>
      refine always (by simp) (by simp) ?_
      cases hd : t.program.heap dst with
      | some d => simpa [step, Program.step, hd] using h
      | none =>
        simp only [step, Program.step, hd]
        exact typed_create h hx proto af ans
    | epoll dst queueSize maxEvents ans =>
      refine always (by simp) (by simp) ?_
      cases hd : t.program.heap dst with
      | some d => simpa [step, Program.step, hd] using h
      | none =>
        simp only [step, Program.step, hd]
        exact typed_epoll h hx queueSize maxEvents ans
    | bind dst src addr ans =>
      cases hd : t.program.heap dst <;> cases hs : t.program.heap src <;>
        simp only [step, Program.step, hd, hs]
      case none.some c => exact typed_bind h hx hd hs addr ans
      all_goals exact iff_of_true h (meansFit_used (by simp [hd, hs]) (Or.inl ⟨addr, ans, rfl⟩))
    | connect dst src remote ans =>
      cases hd : t.program.heap dst <;> cases hs : t.program.heap src <;>
        simp only [step, Program.step, hd, hs]
      case none.some c => exact typed_connect h hx hd hs remote ans
      all_goals exact iff_of_true h (meansFit_used (by simp [hd, hs]) (Or.inr ⟨remote, ans, rfl⟩))
    | listen dst src maxConn ans =>
      refine always (by simp) (by simp) ?_
      cases hd : t.program.heap dst <;> cases hs : t.program.heap src <;>
        simp only [step, Program.step, hd, hs]
      case none.some c => exact typed_listen h hx hd hs maxConn ans
      all_goals exact h
    | accept dst src ans =>
      refine always (by simp) (by simp) ?_
      cases hd : t.program.heap dst <;> cases hs : t.program.heap src <;>
        simp only [step, Program.step, hd, hs]
      case none.some c => exact typed_accept h hx hs ans
      all_goals exact typed_origin h hx fun fd hopen => if_pos hopen
    | wrap dst src remote =>
      refine always (by simp) (by simp) ?_
      cases hd : t.program.heap dst <;> cases hs : t.program.heap src <;>
        simp only [step, Program.step, hd, hs]
      case none.some c => exact typed_wrap h hx hd hs remote
      all_goals exact h
    | moveConstruct dst type src =>
      refine always (by simp) (by simp) ?_
      cases hd : t.program.heap dst <;> cases hs : t.program.heap src <;>
        simp only [step, Program.step, hd, hs]
      case none.some c =>
        split_ifs with hadmits
        · exact typed_moveConstruct h hx hd hs hadmits
        · exact h
      all_goals exact h
    | moveAssign dst src =>
      refine always (by simp) (by simp) ?_
      cases hd : t.program.heap dst <;> cases hs : t.program.heap src <;>
        simp only [step, Program.step, hd, hs]
      case some.some d c => exact typed_moveAssign h hx hd hs
      all_goals exact h
    | reset dst =>
      refine always (by simp) (by simp) ?_
      cases hd : t.program.heap dst with
      | none => simpa [step, Program.step, hd] using h
      | some d =>
        simp only [step, Program.step, hd]
        split_ifs
        · exact typed_assigned h hx hd (some _) (by simp)
        · exact h
    | destroy dst =>
      refine always (by simp) (by simp) ?_
      cases hd : t.program.heap dst with
      | none => simpa [step, Program.step, hd] using h
      | some d =>
        simp only [step, Program.step, hd]
        exact typed_assigned h hx hd none (by simp)

/-! ### Runs -/

structure Sound (Means : SockAddr → InAddressPort → Prop) (t : Traced) : Prop where
  exclusive : t.program.owners.Exclusive
  typed : t.Typed Means

/-- The structure built from an address, whatever becomes of the port. -/
def Encodes (sa : SockAddr) (addr : InAddressPort) : Prop := addr.sockAddr = some sa

theorem step_exclusive (h : t.program.owners.Exclusive) (u : Use) :
    (t.step u).program.owners.Exclusive := by
  have same {k : Kernel} (hfds : k.fds = t.program.kernel.fds) :
      ({ t.program with kernel := k } : Program).owners = t.program.owners := by
    simp [Program.owners, Kernel.Open, hfds]
  cases u with
  | stmt st => cases st <;> exact Program.step_exclusive h _
  | send src remote data ans =>
    simp only [step, Program.send]
    split
    · rw [same (ActiveSocket.send_fds _ _ _ _ _ _)]
      exact h
    · exact h
  | receive src ans =>
    simp only [step, Program.receive]
    split
    · rw [same (ActiveSocket.receive_fds _ _ _ _)]
      exact h
    · exact h

theorem step_sound (h : t.Sound Means) {u : Use} (hfit : t.MeansFit Means u) :
    (t.step u).Sound Means :=
  ⟨step_exclusive h.exclusive u, (typed_step h.typed h.exclusive u).mpr hfit⟩

variable (Means) in
theorem initial_sound : initial.Sound Means :=
  ⟨Program.initial_exclusive, fun _ _ hc => by cases hc⟩

theorem meansFit_names (t : Traced) (u : Use) : t.MeansFit SockAddr.Names u ↔ t.PortsFit u := by
  constructor
  · intro h addr hgo
    have hsa : addr.sockAddr.isSome := by cases hgo <;> assumption
    obtain ⟨sa, hsa⟩ := Option.isSome_iff_exists.mp hsa
    exact (InAddressPort.sockAddr_names hsa).mp (h addr hgo sa hsa)
  · intro h addr hgo sa hsa
    exact (InAddressPort.sockAddr_names hsa).mpr (h addr hgo)

/-- An object tells the past of the descriptor that a call about it gets. -/
theorem tells_object (h : t.Typed Means) {i : ObjId} {o : Obj} (hobj : t.program.object i = some o)
    {fd : Fd} (hfd : o.fd? = some fd) :
    ∃ past, t.program.kernel.fds fd = some past ∧ o.Tells Means (t.origin fd) past := by
  obtain ⟨c, hc, hval⟩ := Option.bind_eq_some_iff.mp hobj
  exact h i c hc o fd hval hfd

theorem issuesRight (h : t.Sound Means) (u : Use) : t.IssuesRight u := by
  cases u with
  | send => trivial
  | receive => trivial
  | stmt st =>
    intro call hcall
    have hbacked := (t.program.issued_backed st).2 call hcall
    cases call with
    | bind fd sa =>
      obtain ⟨i, proto, s, hobj, hfd⟩ := hbacked
      obtain ⟨past, hpast, rfl⟩ := tells_object h.typed hobj hfd
      exact ⟨proto, s.impl, hpast⟩
    | listen fd n =>
      obtain ⟨i, proto, s, hobj, hfd⟩ := hbacked
      obtain ⟨past, hpast, sa, -, rfl⟩ := tells_object h.typed hobj hfd
      exact ⟨proto, s.impl, sa, hpast⟩
    | accept fd =>
      obtain ⟨i, proto, s, hobj, hfd⟩ := hbacked
      obtain ⟨past, hpast, _, ⟨sa, -, rfl⟩, rfl⟩ := tells_object h.typed hobj hfd
      exact ⟨proto, s.impl, sa, _, hpast⟩
    | connect fd sa =>
      cases fd with
      | none => trivial
      | some fd =>
        obtain ⟨i, proto, ⟨s, hobj, hfd⟩ | ⟨s, hobj, hfd⟩⟩ := hbacked
        · obtain ⟨past, hpast, rfl⟩ := tells_object h.typed hobj hfd
          exact ⟨_, hpast, by simp [created]⟩
        · obtain ⟨past, hpast, sa, -, rfl⟩ := tells_object h.typed hobj hfd
          exact ⟨_, hpast, by simp [created]⟩
    | _ => trivial

theorem always_typed_iff (us : List Use) :
    Always next (Typed SockAddr.Names) initial us ↔ Along next PortsFit initial us := by
  have start := initial_sound SockAddr.Names
  refine always_iff (fun t (h : Sound SockAddr.Names t) => h.typed) ?_ ?_ start us
  · intro t u h
    rw [← (typed_step h.typed h.exclusive u).trans (meansFit_names t u)]
    exact ⟨fun hall => hall _ rfl, fun htyped t' hstep => Option.some.inj hstep ▸ htyped⟩
  · intro t u t' h hfit hstep
    cases hstep
    exact step_sound h ((meansFit_names t u).mpr hfit)

theorem step_encodes (t : Traced) (u : Use) (t' : Traced) (h : t.Sound Encodes)
    (hstep : t.next u = some t') : t'.Sound Encodes := by
  cases hstep
  exact step_sound h fun _ _ _ hsa => hsa

theorem always_encodes (us : List Use) : Always next (Typed Encodes) initial us :=
  (Always.of_inv step_encodes (initial_sound Encodes) us).mono fun _ h => h.typed

theorem along_issuesRight (us : List Use) : Along next IssuesRight initial us := by
  exact Along.of_inv step_encodes (fun t u h => issuesRight h u) (initial_sound Encodes) us

/-- In a run every object tells the past of its descriptor, with the addresses that the kernel got,
exactly when the ports of all addresses that get there fit.  Up to the ports it does so in every
run, and every call that a statement issues is right for the past of its descriptor. -/
theorem typed_run (us : List Use) :
    (Always next (Typed SockAddr.Names) initial us ↔ Along next PortsFit initial us) ∧
      Always next (Typed Encodes) initial us ∧ Along next IssuesRight initial us :=
  ⟨always_typed_iff us, always_encodes us, along_issuesRight us⟩

/-- A TCP socket is bound to port 65616. -/
def truncatedRun : List Use :=
  [.stmt (.create 0 tcp 2 (.ok 3)), .stmt (.bind 1 0 ⟨⟨fun _ => 0, 2⟩, 65616⟩ (.ok ()))]

/-- The kernel is told port 80. -/
theorem truncatedRun_not_typed : ¬Always next (Typed SockAddr.Names) initial truncatedRun := by
  intro h
  have htyped := h.last rfl
  obtain ⟨past, hpast, sa, hnames, hbound⟩ := htyped 1 _ rfl _ 3 rfl rfl
  cases hpast
  cases hbound
  exact absurd hnames (by decide)

end Traced

end

end TypedSockets.Socket
