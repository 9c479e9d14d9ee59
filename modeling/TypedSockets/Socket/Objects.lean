import TypedSockets.Epoll.Event
import TypedSockets.Socket.Impl

/-! Programs over the socket state objects and `epoll_t`: any number of objects, plain or in an
`std::optional` or an `std::variant`, made, moved, assigned and destroyed in any order. -/

namespace TypedSockets.Socket

open TypedSockets.Epoll

structure AcceptedSock where
  sock : ActiveSocket
  remote : InAddressPort
  deriving DecidableEq

/-- The class of an object. -/
inductive Tag where
  | socket (proto : Proto)
  | binded (proto : Proto)
  | listening (proto : Proto)
  | active (proto : Proto)
  | accepted (proto : Proto)
  | epoll
  deriving DecidableEq

inductive Obj where
  | socket (proto : Proto) (s : SocketT)
  | binded (proto : Proto) (s : BindedSocket)
  | listening (proto : Proto) (s : ListeningSocket)
  | active (proto : Proto) (s : ActiveSocket)
  | accepted (proto : Proto) (s : AcceptedSock)
  | epoll (e : EpollT)

namespace Obj

def tag : Obj → Tag
  | socket proto _ => .socket proto
  | binded proto _ => .binded proto
  | listening proto _ => .listening proto
  | active proto _ => .active proto
  | accepted proto _ => .accepted proto
  | epoll _ => .epoll

/-- The descriptor that the object holds. -/
def fd? : Obj → Option Fd
  | socket _ s => s.impl.fd
  | binded _ s => s.impl.fd
  | listening _ s => s.impl.fd
  | active _ s => s.impl.fd
  | accepted _ s => s.sock.impl.fd
  | epoll e => if e.fd = -1 then none else some e.fd

/-- The object after it was moved from: the descriptor goes with the move, and the addresses
stay. -/
def moved : Obj → Obj
  | socket proto s => socket proto ⟨s.impl.moved⟩
  | binded proto s => binded proto { s with impl := s.impl.moved }
  | listening proto s => listening proto { s with impl := s.impl.moved }
  | active proto s => active proto { s with impl := s.impl.moved }
  | accepted proto s => accepted proto { s with sock := { s.sock with impl := s.sock.impl.moved } }
  | epoll e => epoll e.moved

def destroy (k : Kernel) : Obj → Kernel
  | socket _ s => s.impl.destroy k
  | binded _ s => s.impl.destroy k
  | listening _ s => s.impl.destroy k
  | active _ s => s.impl.destroy k
  | accepted _ s => s.sock.impl.destroy k
  | epoll e => e.destroy k

@[simp] theorem moved_tag (o : Obj) : o.moved.tag = o.tag := by cases o <;> rfl

@[simp] theorem moved_fd? (o : Obj) : o.moved.fd? = none := by cases o <;> rfl

end Obj

/-- The static type of a variable. -/
inductive CellType where
  | object (t : Tag)
  | optional (t : Tag)
  | variant (ts : List Tag)
  deriving DecidableEq

/-- The values that a variable of the type can have.  A variant without an object stands for one
whose alternative is an empty `std::optional`. -/
def CellType.Admits : CellType → Option Obj → Prop
  | .object t, v => v.map Obj.tag = some t
  | .optional t, v => ∀ o ∈ v, o.tag = t
  | .variant ts, v => ∀ o ∈ v, o.tag ∈ ts

instance : (type : CellType) → (v : Option Obj) → Decidable (type.Admits v)
  | .object _, _ => inferInstanceAs (Decidable (_ = _))
  | .optional _, v => inferInstanceAs (Decidable (∀ o ∈ v, _))
  | .variant _, v => inferInstanceAs (Decidable (∀ o ∈ v, _))

/-- A live variable. -/
structure Cell where
  type : CellType
  val : Option Obj
  ok : type.Admits val

theorem CellType.admits_map {type : CellType} {v : Option Obj} {f : Obj → Obj}
    (same : ∀ o, (f o).tag = o.tag) (h : type.Admits v) : type.Admits (v.map f) := by
  cases type <;> cases v <;> simp_all [CellType.Admits]

namespace Cell

def fd? (c : Cell) : Option Fd := c.val.bind Obj.fd?

/-- The variable after its object was moved from. -/
def moved (c : Cell) : Cell :=
  ⟨c.type, c.val.map Obj.moved, CellType.admits_map Obj.moved_tag c.ok⟩

/-- The variable after a call changed its object to `o`, which is of the same class. -/
def put (c : Cell) (o : Obj) : Cell :=
  ⟨c.type, c.val.map fun old => if old.tag = o.tag then o else old,
    CellType.admits_map (fun old => by split <;> simp_all) c.ok⟩

/-- A variable that holds a result of class `t`. -/
def result {α : Type} (t : Tag) (make : α → Obj) (h : ∀ a, (make a).tag = t) (r : Option α) :
    Cell :=
  ⟨.optional t, r.map make, by cases r <;> simp [CellType.Admits, h]⟩

end Cell

abbrev ObjId := Nat

structure Program where
  kernel : Kernel
  heap : ObjId → Option Cell

/-- A statement of the program, with the answers of the system calls that it makes.  `dst` is the
variable that a statement defines, assigns or destroys, and `src` the one that it uses. -/
inductive Stmt where
  | create (dst : ObjId) (proto : Proto) (af : Int) (ans : Except Errno Fd)
  | bind (dst src : ObjId) (addr : InAddressPort) (ans : Answer)
  | listen (dst src : ObjId) (maxConn : UInt32) (ans : Answer)
  | connect (dst src : ObjId) (remote : InAddressPort) (ans : Answer)
  | accept (dst src : ObjId) (ans : Except Errno (Fd × FilledAddr))
  | wrap (dst src : ObjId) (remote : InAddressPort)
  | epoll (dst : ObjId) (queueSize : Int) (maxEvents : Nat) (ans : Except Errno Fd)
  | moveConstruct (dst : ObjId) (type : CellType) (src : ObjId)
  | moveAssign (dst src : ObjId)
  | reset (dst : ObjId)
  | destroy (dst : ObjId)

namespace Program

def initial : Program := ⟨Kernel.initial, fun _ => none⟩

/-- `dst` becomes a live variable. -/
def define (p : Program) (k : Kernel) (dst : ObjId) (new : Cell) : Program :=
  ⟨k, Function.update p.heap dst (some new)⟩

/-- `dst` becomes a live variable, and `src` keeps what the call left of its object. -/
def transfer (p : Program) (k : Kernel) (dst src : ObjId) (new left : Cell) : Program :=
  ⟨k, Function.update (Function.update p.heap dst (some new)) src (some left)⟩

def bind (p : Program) (dst src : ObjId) (c : Cell) (addr : InAddressPort) (ans : Answer) :
    Program :=
  match c.val with
  | some (.socket proto s) =>
    if proto.isConnectionless then
      let (r, s, k) := s.bindConnectionless addr ans p.kernel
      p.transfer k dst src (.result (.active proto) (.active proto) (fun _ => rfl) r)
        (c.put (.socket proto s))
    else
      let (r, s, k) := s.bind addr ans p.kernel
      p.transfer k dst src (.result (.binded proto) (.binded proto) (fun _ => rfl) r)
        (c.put (.socket proto s))
  | _ => p

def listen (p : Program) (dst src : ObjId) (c : Cell) (maxConn : UInt32) (ans : Answer) :
    Program :=
  match c.val with
  | some (.binded proto s) =>
    if proto.isConnectionless then p
    else
      let (r, s, k) := s.listen maxConn ans p.kernel
      p.transfer k dst src (.result (.listening proto) (.listening proto) (fun _ => rfl) r)
        (c.put (.binded proto s))
  | _ => p

def connect (p : Program) (dst src : ObjId) (c : Cell) (remote : InAddressPort) (ans : Answer) :
    Program :=
  match c.val with
  | some (.socket proto s) =>
    if proto.isConnectionless then p
    else
      let (r, s, k) := s.connect remote ans p.kernel
      p.transfer k dst src (.result (.active proto) (.active proto) (fun _ => rfl) r)
        (c.put (.socket proto s))
  | some (.binded proto s) =>
    if proto.isConnectionless then p
    else
      let (r, s, k) := s.connect remote ans p.kernel
      p.transfer k dst src (.result (.active proto) (.active proto) (fun _ => rfl) r)
        (c.put (.binded proto s))
  | _ => p

def accept (p : Program) (dst : ObjId) (c : Cell) (ans : Except Errno (Fd × FilledAddr)) :
    Program :=
  match c.val with
  | some (.listening proto s) =>
    if proto.isConnectionless then p
    else
      let (r, k) := s.accept ans p.kernel
      p.define k dst (.result (.active proto) (.active proto) (fun _ => rfl) r)
  | _ => p

/-- `accepted_sock{remote, std::move(active)}`. -/
def wrap (p : Program) (dst src : ObjId) (c : Cell) (remote : InAddressPort) : Program :=
  match c.val with
  | some (.active proto s) =>
    if proto.isConnectionless then p
    else p.transfer p.kernel dst src ⟨.object (.accepted proto), some (.accepted proto ⟨s, remote⟩), rfl⟩
      c.moved
  | _ => p

/-- The kernel after the assignment of `src` to `dst`.  An object of the same class is assigned to,
and its `m_fd` overwritten; any other object that `dst` held is destroyed. -/
def assigned (k : Kernel) (dst src : Option Obj) : Kernel :=
  match dst, src with
  | some old, some new => if old.tag = new.tag then k else old.destroy k
  | some old, none => old.destroy k
  | none, _ => k

def moveAssign (p : Program) (dst src : ObjId) (d c : Cell) : Program :=
  if dst = src then p
  else if h : d.type.Admits c.val then
    p.transfer (assigned p.kernel d.val c.val) dst src ⟨d.type, c.val, h⟩ c.moved
  else p

/-- One statement.  A statement that the type checker rejects changes nothing. -/
def step (p : Program) : Stmt → Program
  | .create dst proto af ans =>
    match p.heap dst with
    | none =>
      let (r, k) := SocketT.create proto af ans p.kernel
      p.define k dst (.result (.socket proto) (.socket proto) (fun _ => rfl) r)
    | some _ => p
  | .bind dst src addr ans =>
    match p.heap dst, p.heap src with
    | none, some c => p.bind dst src c addr ans
    | _, _ => p
  | .listen dst src maxConn ans =>
    match p.heap dst, p.heap src with
    | none, some c => p.listen dst src c maxConn ans
    | _, _ => p
  | .connect dst src remote ans =>
    match p.heap dst, p.heap src with
    | none, some c => p.connect dst src c remote ans
    | _, _ => p
  | .accept dst src ans =>
    match p.heap dst, p.heap src with
    | none, some c => p.accept dst c ans
    | _, _ => p
  | .wrap dst src remote =>
    match p.heap dst, p.heap src with
    | none, some c => p.wrap dst src c remote
    | _, _ => p
  | .epoll dst queueSize maxEvents ans =>
    match p.heap dst with
    | none =>
      let (r, k) := EpollT.create queueSize maxEvents ans p.kernel
      p.define k dst (.result .epoll .epoll (fun _ => rfl) r)
    | some _ => p
  | .moveConstruct dst type src =>
    match p.heap dst, p.heap src with
    | none, some c =>
      if h : type.Admits c.val then p.transfer p.kernel dst src ⟨type, c.val, h⟩ c.moved else p
    | _, _ => p
  | .moveAssign dst src =>
    match p.heap dst, p.heap src with
    | some d, some c => p.moveAssign dst src d c
    | _, _ => p
  | .reset dst =>
    match p.heap dst with
    | some c =>
      if h : c.type.Admits none then
        p.define (assigned p.kernel c.val none) dst ⟨c.type, none, h⟩
      else p
    | none => p
  | .destroy dst =>
    match p.heap dst with
    | some c => ⟨assigned p.kernel c.val none, Function.update p.heap dst none⟩
    | none => p

end Program

end TypedSockets.Socket
