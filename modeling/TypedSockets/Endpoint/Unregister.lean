import TypedSockets.Endpoint.CallOrder
import TypedSockets.Endpoint.FailedStart
import TypedSockets.Endpoint.ServerRun

/-! What `unregister_cbs` leaves in the table of handlers.  The list of a client lacks
`WRITE_READY`, which its `register_cbs` has. -/

namespace TypedSockets.Endpoint

open TypedSockets.Socket TypedSockets.Epoll TypedSockets.Lib

variable {proto : Proto} (pton : InetPton) (user : UserCode) (c : ClientId)

/-- The body of the destructor of a client. -/
def World.destroy (w : World proto) (c : ClientId) : World proto := w.unregisterCbs c

/-- A client, and whether a `start` returned true since it was constructed. -/
structure Life (proto : Proto) where
  world : World proto
  started : Bool

/-- A call on the client, or its destructor. -/
inductive LifeOp where
  | call (op : ClientOp)
  | destroy

def ClientOp.isStart : ClientOp → Bool
  | .start _ _ | .startLocal _ _ _ _ _ => true
  | _ => false

namespace Life

def initial (af : ClientId → Int) (unhandled : ClientId → Option Callback) : Life proto :=
  ⟨.initial af unhandled, false⟩

/-- Nothing comes after the destructor. -/
def next (s : Life proto) : LifeOp → Option (Life proto)
  | .call op =>
    let (b, w) := s.world.act pton user c op
    some ⟨w, s.started || op.isStart && b⟩
  | .destroy => none

end Life

/-- No handler is left, and so every event of every batch is unhandled. -/
def Undone {H σ E : Type} (invoke : H → Fd → σ → Except E Unit × σ) (table : Handlers H) (s : σ) :
    Prop :=
  table = .empty ∧ ∀ events, (handleEvents invoke table events s).1.1 = events

/-- After `stop` and the destructor the table of the client is as it was constructed. -/
def Life.Undoes (s : Life proto) : LifeOp → Prop
  | .call .stop =>
    Undone (World.invoke user c) ((s.world.stop c).clients c).handlers (s.world.stop c)
  | .destroy =>
    Undone (World.invoke user c) ((s.world.destroy c).clients c).handlers (s.world.destroy c)
  | .call _ => True

/-- `stop` and the destructor come only to a client that no `start` made one of the poll before. -/
def Life.NeverStarted (s : Life proto) : LifeOp → Prop
  | .call .stop | .destroy => s.started = false
  | .call _ => True

/-- The same of a server, where they return. -/
def Service.Undoes (user : ServerUser) (s : Service proto) : ServerCall → Prop
  | .stop => ∀ fd h new added, s.host.stop user = some (fd, h) →
      Undone (Host.invoke user new added) h.server.handlers h
  | .destroy => ∀ h new added, s.host.destroy user = some h →
      Undone (Host.invoke user new added) h.server.handlers h
  | _ => True

section

variable {pton} {user} {c}

theorem undone_empty {H σ E : Type} (invoke : H → Fd → σ → Except E Unit × σ) (s : σ) :
    Undone invoke .empty s := by
  refine ⟨rfl, fun events => ?_⟩
  induction events with
  | nil => rfl
  | cons event events ih => exact congrArg (event :: ·) ih

theorem undone_iff {H σ E : Type} {invoke : H → Fd → σ → Except E Unit × σ} {table : Handlers H}
    {s : σ} : Undone invoke table s ↔ table = .empty := by
  refine ⟨And.left, ?_⟩
  rintro rfl
  exact undone_empty invoke s

/-! ### A client -/

/-- The handlers of a client: none before the first `start`, and that of `WRITE_READY` ever
after. -/
structure Lives (c : ClientId) (s : Life proto) : Prop where
  handlers : Registered c s.world
  before : s.started = false → (s.world.clients c).handlers = .empty
  after : s.started = true → (s.world.clients c).handlers .writeReady = some .writeReady

variable {s : Life proto}

variable (c) in
theorem unregisterCbs_handlers (w : World proto) :
    ((w.unregisterCbs c).clients c).handlers =
      World.uncbs.foldl (fun t tp => (t.remove tp).2) (w.clients c).handlers := by
  simp [World.unregisterCbs]

variable (c) in
theorem stop_handlers (w : World proto) :
    ((w.stop c).clients c).handlers =
      World.uncbs.foldl (fun t tp => (t.remove tp).2) (w.clients c).handlers := by
  rw [World.stop, unregisterCbs_handlers, World.setState_handlers]
  rfl

/-- Taking out the types of `unregister_cbs` empties the table only when nothing was put in. -/
theorem Lives.unregistered_iff (h : Lives c s) :
    World.uncbs.foldl (fun t tp => (t.remove tp).2) (s.world.clients c).handlers = .empty ↔
      s.started = false := by
  constructor
  · intro hempty
    by_contra hstarted
    have hwrite := congrFun hempty .writeReady
    rw [Handlers.removeAll_apply, if_neg (by decide), h.after (by simpa using hstarted)] at hwrite
    cases hwrite
  · intro hstarted
    funext tp
    rw [Handlers.removeAll_apply, h.before hstarted]
    split_ifs <;> rfl

theorem lives_undoes_iff (h : Lives c s) (op : LifeOp) :
    s.Undoes user c op ↔ s.NeverStarted op := by
  cases op with
  | destroy =>
    rw [Life.Undoes, undone_iff, World.destroy, unregisterCbs_handlers, h.unregistered_iff]
    rfl
  | call op =>
    cases op with
    | stop =>
      rw [Life.Undoes, undone_iff, stop_handlers, h.unregistered_iff]
      rfl
    | _ => exact Iff.rfl

theorem started_writes {w : World proto} (h : AllRegistered c w) :
    (w.clients c).handlers .writeReady = some .writeReady :=
  h (.writeReady, .writeReady) (by decide)

theorem start_registers {w : World proto} (h : Registered c w) {ans : Except Errno Fd} {added : Bool}
    (started : (w.start c ans added).1 = true) : AllRegistered c (w.start c ans added).2 := by
  unfold World.start at started ⊢
  split_ifs at started ⊢ with hidle
  · rcases hcreate : SocketT.create proto (w.clients c).af ans w.kernel with ⟨_ | sock, k⟩
    · simp [hcreate] at started
    · exact allRegistered_started h _ _ added _

theorem startLocal_registers {w : World proto} (h : Registered c w) {address : List UInt8}
    {port : UInt64} {ans : Except Errno Fd} {bound : Answer} {added : Bool}
    (started : (w.startLocal pton c address port ans bound added).1 = true) :
    AllRegistered c (w.startLocal pton c address port ans bound added).2 := by
  unfold World.startLocal at started ⊢
  split_ifs at started ⊢ with hidle
  · cases hparse : fromStringAndPort pton address port with
    | none => simp [hparse] at started
    | some addr =>
      simp only [hparse] at started ⊢
      rcases hcreate : World.createBound proto (w.clients c).af addr ans bound w.kernel with
        ⟨_ | sock, k⟩
      · simp [hcreate] at started
      · exact allRegistered_started h _ _ added _

variable (pton) (user) in
theorem start_keeps {w : World proto} {op : ClientOp} (hop : op.isStart = true)
    (refused : (w.act pton user c op).1 = false) :
    ((w.act pton user c op).2.clients c).handlers = (w.clients c).handlers := by
  cases op with
  | start ans added =>
    have hkept : (w.act pton user c (.start ans added)).2 = _ := (World.start_failed refused).1
    rw [hkept]
  | startLocal address port ans bound added =>
    have hkept : (w.act pton user c (.startLocal address port ans bound added)).2 = _ :=
      (World.startLocal_failed refused).1
    rw [hkept]
  | _ => cases hop

theorem start_allRegistered {w : World proto} (h : Registered c w) {op : ClientOp}
    (hop : op.isStart = true) (started : (w.act pton user c op).1 = true) :
    AllRegistered c (w.act pton user c op).2 := by
  cases op with
  | start ans added => exact start_registers h started
  | startLocal address port ans bound added => exact startLocal_registers h started
  | _ => cases hop

/-- A `start` registers the handlers when it returns true, and nothing otherwise. -/
theorem lives_started {op : ClientOp} (h : Lives c s) (hop : op.isStart = true) :
    let r := s.world.act pton user c op
    Lives c ⟨r.2, s.started || r.1⟩ := by
  intro r
  have hhandlers : Registered c r.2 := registered_act pton user h.handlers op
  cases hr : r.1 with
  | false =>
    have hsame : (r.2.clients c).handlers = (s.world.clients c).handlers :=
      start_keeps pton user hop hr
    rw [Bool.or_false]
    exact ⟨hhandlers, fun hb => hsame ▸ h.before hb, fun ha => hsame ▸ h.after ha⟩
  | true =>
    have hall : AllRegistered c r.2 := start_allRegistered h.handlers hop hr
    rw [Bool.or_true]
    exact ⟨hhandlers, fun hb => (by cases hb), fun _ => started_writes hall⟩

/-- The calls that are no `start`, up to what they do to the handlers. -/
theorem lives_other (h : Lives c s) {op : ClientOp} (hop : op.isStart = false) :
    Lives c ⟨(s.world.act pton user c op).2, s.started⟩ := by
  have hhandlers : Registered c (s.world.act pton user c op).2 :=
    registered_act pton user h.handlers op
  have same (hsame : ((s.world.act pton user c op).2.clients c).handlers =
      (s.world.clients c).handlers) : Lives c ⟨(s.world.act pton user c op).2, s.started⟩ :=
    ⟨hhandlers, fun hb => hsame.trans (h.before hb), fun ha => by rw [hsame]; exact h.after ha⟩
  cases op with
  | start ans added => cases hop
  | startLocal address port ans bound added => cases hop
  | connect args ans dead => exact same (World.connect_handlers s.world c c args ans dead)
  | proceed events =>
    refine same ?_
    rw [World.act_proceed]
    exact (World.Calm.proceed user c s.world events).handlers c
  | stop =>
    have hstop := stop_handlers c s.world
    refine ⟨hhandlers, fun hb => hstop.trans (h.unregistered_iff.mpr hb), fun ha => ?_⟩
    refine (congrFun hstop _).trans ?_
    rw [Handlers.removeAll_apply, if_neg (by decide)]
    exact h.after ha

theorem lives_next (h : Lives c s) {op : LifeOp} {s' : Life proto}
    (hstep : s.next pton user c op = some s') : Lives c s' := by
  cases op with
  | destroy => cases hstep
  | call op =>
    let r := s.world.act pton user c op
    obtain rfl : (⟨r.2, s.started || op.isStart && r.1⟩ : Life proto) = s' := Option.some.inj hstep
    cases hop : op.isStart with
    | true =>
      rw [Bool.true_and]
      exact lives_started h hop
    | false =>
      rw [Bool.false_and, Bool.or_false]
      exact lives_other h hop

theorem lives_initial (af : ClientId → Int) (unhandled : ClientId → Option Callback) :
    Lives c (Life.initial af unhandled : Life proto) := by
  refine ⟨fun tp func hfunc => ?_, fun _ => rfl, fun ha => ?_⟩
  · cases hfunc
  · cases ha

/-! ### A server -/

/-- `unregister_cbs` of a server takes out whatever its table can have. -/
theorem Service.Made.removed {s : Service proto} (made : s.Made) :
    Host.uncbs.foldl (fun t tp => (t.remove tp).2) s.host.server.handlers = .empty := by
  unfold Service.Made at made
  cases hcurrent : s.current with
  | none =>
    rw [hcurrent] at made
    rw [made]
    funext tp
    rw [Handlers.removeAll_apply]
    split_ifs <;> rfl
  | some current =>
    rw [hcurrent] at made
    obtain ⟨state, -, -, hserver⟩ := made
    rw [hserver]
    exact uncbs_table

theorem destroy_handlers {suser : ServerUser} {h h' : Host proto}
    (hdestroy : h.destroy suser = some h') :
    h'.server.handlers = Host.uncbs.foldl (fun t tp => (t.remove tp).2) h.server.handlers := by
  unfold Host.destroy at hdestroy
  split_ifs at hdestroy
  · have hsame := callErase_server suser h (-1)
    rcases hcall : h.callErase suser (-1) with ⟨e | ⟨⟨⟩⟩, h1⟩
    · simp [hcall] at hdestroy
    · simp only [hcall, Option.some.injEq] at hdestroy
      rw [hcall] at hsame
      rw [← hdestroy, ← hsame]
      rfl
  · cases hdestroy
    rfl

theorem service_undoes {suser : ServerUser} {s : Service proto} (made : s.Made) (op : ServerCall) :
    s.Undoes suser op := by
  cases op with
  | stop =>
    intro fd h new added hstop
    obtain ⟨-, -, hserver⟩ := stop_server hstop
    rw [undone_iff, hserver]
    exact made.removed
  | destroy =>
    intro h new added hdestroy
    rw [undone_iff, destroy_handlers hdestroy]
    exact made.removed
  | _ => trivial

end

/-- In every run of a client `stop` and the destructor leave the table of a client just constructed
exactly when they come before any `start` that returned true.  Those of a server always leave
it. -/
theorem unregister_undoes (suser : ServerUser) (af : ClientId → Int)
    (unhandled : ClientId → Option Callback) (ops : List LifeOp) (saf : Int)
    (sunhandled : Option Callback) (sops : List ServerCall) :
    let client : Life proto := Life.initial af unhandled
    let server : Service proto := Service.initial saf sunhandled
    (Along (Life.next pton user c) (Life.Undoes user c) client ops ↔
      Along (Life.next pton user c) Life.NeverStarted client ops) ∧
    Along (Service.next pton suser) (Service.Undoes suser) server sops :=
  ⟨along_iff (fun _ op h => lives_undoes_iff h op) (fun _ _ _ h _ hstep => lives_next h hstep)
      (lives_initial af unhandled) ops,
    Along.of_inv (fun _ _ _ made hstep => made_next made hstep)
      (fun _ op made => service_undoes made op) (made_initial saf sunhandled) sops⟩

/-- A client that is started and stopped. -/
def startStop : List LifeOp := [.call (.start (.ok 3) true), .call .stop]

theorem startStop_not_undone :
    ¬Along (Life.next loopbackPton (fun _ => .ok ()) 0) (Life.Undoes (fun _ => .ok ()) 0)
      (Life.initial (fun _ => 2) fun _ => none : Life tcp) startStop := by
  intro h
  have hempty := (h.2 _ rfl).1.1
  exact absurd (congrFun hempty .writeReady) (by decide)

end TypedSockets.Endpoint
