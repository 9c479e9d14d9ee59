import TypedSockets.Endpoint.Observable
import TypedSockets.Socket.Past

/-! One session at a time: `idle` and the descriptor that the client holds.  `start()` leaves an
open socket in the state that `idle` takes for empty. -/

namespace TypedSockets.Endpoint

open TypedSockets.Socket TypedSockets.Epoll TypedSockets.Lib

variable {proto : Proto} (pton : InetPton) (user : UserCode) (c : ClientId)

/-- A client, and whether a `start` returned true since the last `stop`. -/
structure Session (proto : Proto) where
  world : World proto
  up : Bool

namespace Session

def initial (af : ClientId → Int) (unhandled : ClientId → Option Callback) : Session proto :=
  ⟨.initial af unhandled, false⟩

def next (s : Session proto) (op : ClientOp) : Option (Session proto) :=
  let (b, w) := s.world.act pton user c op
  some (match op with
    | .start _ _ | .startLocal _ _ _ _ _ => ⟨w, s.up || b⟩
    | .stop => ⟨w, false⟩
    | _ => ⟨w, s.up⟩)

/-- The client is idle when it holds no socket, and only its own descriptor is registered. -/
structure One (s : Session proto) : Prop where
  idle : (s.world.clients c).state.isIdle = true ↔ s.world.getFd c = -1
  registered : ∀ fd, (s.world.registered c fd).isSome → fd = s.world.getFd c

/-- A `start` on a client that is up returns false and changes nothing. -/
def Refuses (s : Session proto) : ClientOp → Prop
  | .start ans added => s.up = true → s.world.act pton user c (.start ans added) = (false, s.world)
  | .startLocal address port ans bound added => s.up = true →
      s.world.act pton user c (.startLocal address port ans bound added) = (false, s.world)
  | _ => True

/-- A step from one session to one session. -/
def Exclusive (s : Session proto) (op : ClientOp) : Prop :=
  s.Refuses pton user c op ∧ ∀ s', s.next pton user c op = some s' → s'.One c

/-- `start()` without an address does not create a socket on an idle client. -/
def Local (s : Session proto) : ClientOp → Prop
  | .start ans _ => ∀ fd, ans = .ok fd → 0 ≤ fd → ¬s.world.kernel.Open fd →
      (s.world.clients c).state.isIdle = false
  | _ => True

end Session

/-! ### What the calls do to the state and the registrations -/

section

variable {pton} {user} {c} {w : World proto}

variable (pton) in
/-- After `connect` the client has the socket that it had, or an active one. -/
theorem connect_state (h : OwnStatics w c) (args : ConnectArgs) (ans : Answer)
    (dead : ConnectArgs) :
    ((w.connect pton c args ans dead).2.clients c).state = (w.clients c).state ∨
      ∃ sock, ((w.connect pton c args ans dead).2.clients c).state = .active sock := by
  have inactive (based : proto.isConnectionless = false)
      (active : ∀ sock, (w.clients c).state ≠ .active sock) :
      ((w.connect pton c args ans dead).2.clients c).state = (w.clients c).state ∨
        ∃ sock, ((w.connect pton c args ans dead).2.clients c).state = .active sock := by
    obtain ⟨-, hcl, -⟩ := connect_inactive pton based h active args ans dead
    rw [hcl]
    rcases connectOwn_spec pton based active (frameOf w args dead) ans w.kernel with
      ⟨impl, addr, sock, -, -, heq⟩ | ⟨-, -, hsame⟩
    · rw [heq]
      exact Or.inr ⟨sock, rfl⟩
    · exact Or.inl (congrArg Client.state hsame)
  cases hst : (w.clients c).state with
  | active sock =>
    rw [← hst]
    refine Or.inl ?_
    simp only [World.connect, hst, h.getD]
    split <;> simp [hst]
  | binded based sock =>
    rw [← hst]
    exact inactive based (by simp [hst])
  | idle sock =>
    rw [← hst]
    by_cases hproto : proto.isConnectionless = true
    · cases sock <;> simp [World.connect, hst, hproto]
    · exact inactive (by simpa using hproto) (by simp [hst])

/-- A batch registers nothing. -/
theorem proceed_registered_of (w : World proto) (events : List Event) {i : ClientId} {fd : Fd} :
    ((w.proceed user c events).2.registered i fd).isSome → (w.registered i fd).isSome := by
  refine proceed_induction
    (fun w' : World proto => (w'.registered i fd).isSome → (w.registered i fd).isSome) ?_ ?_ id
  · intro event _ u hu
    refine handleEvent_induction
      (fun w' : World proto => (w'.registered i fd).isSome → (w.registered i fd).isSome) ?_ hu
    exact fun _ func _ v hv h => hv (invoke_registered_of func event.fd v h)
  · intro func hfunc missed u hu
    obtain ⟨f, -, rfl⟩ := Option.mem_map.mp hfunc
    exact hu

/-- A bound socket that `start(local)` makes holds a descriptor and is not idle. -/
theorem createBound_held {af : Int} {local_ : InAddressPort} {ans : Except Errno Fd}
    {bound : Answer} {k : Kernel} {state : ClientState proto}
    (h : (World.createBound proto af local_ ans bound k).1 = some state) :
    state.isIdle = false ∧ ∃ fd, heldFd state = some fd ∧ 0 ≤ fd := by
  unfold World.createBound at h
  split at h
  · rename_i sock k1 hcreate
    obtain ⟨fd, -, hpos, -, hsock⟩ := SocketT.create_eq proto af (congrArg Prod.fst hcreate)
    have hfd : sock.impl.fd = some fd := by rw [hsock]
    split at h
    · obtain ⟨b, hb, rfl⟩ := Option.map_eq_some_iff.mp h
      have hheld : b.impl.fd = some fd := by rw [SocketT.bind_impl (Option.mem_def.mpr hb), hfd]
      exact ⟨rfl, fd, hheld, hpos⟩
    · obtain ⟨a, ha, rfl⟩ := Option.map_eq_some_iff.mp h
      have hheld : a.impl.fd = some fd := by
        rw [SocketT.bindConnectionless_impl (Option.mem_def.mpr ha), hfd]
      exact ⟨rfl, fd, hheld, hpos⟩
  · cases h

end

/-! ### The invariant -/

/-- The invariant of a run in which no `start()` creates a socket. -/
structure Sole (s : Session proto) : Prop where
  grounded : Grounded c s.world
  idle : (s.world.clients c).state.isIdle = true → (s.world.clients c).state = .idle none
  up : s.up = true → (s.world.clients c).state.isIdle = false
  held : ∀ fd, heldFd (s.world.clients c).state = some fd → 0 ≤ fd
  registered : ∀ fd, (s.world.registered c fd).isSome →
    heldFd (s.world.clients c).state = some fd

section

variable {pton} {user} {c} {s : Session proto}

theorem Sole.one (h : Sole c s) : s.One c := by
  constructor
  · constructor
    · intro hidle
      rw [World.getFd, h.idle hidle]
      rfl
    · intro hfd
      cases hheld : heldFd (s.world.clients c).state with
      | none =>
        have hstate : (s.world.clients c).state = .idle none := h.grounded.free hheld
        rw [hstate]
        rfl
      | some fd =>
        have hpos := h.held fd hheld
        rw [World.getFd, getFd_of_held hheld] at hfd
        rw [hfd] at hpos
        exact absurd hpos (by decide)
  · intro fd hfd
    rw [World.getFd, getFd_of_held (h.registered fd hfd)]

theorem Sole.free (h : Sole c s) (hidle : (s.world.clients c).state.isIdle = true) (fd : Fd) :
    s.world.registered c fd = none := by
  rw [← Option.not_isSome_iff_eq_none]
  intro hfd
  have hheld := h.registered fd hfd
  rw [h.idle hidle] at hheld
  cases hheld

/-- The socket that a `start` made on an idle client is its only one. -/
theorem Sole.started (h : Sole c s) (hidle : (s.world.clients c).state.isIdle = true) {k : Kernel}
    {new : ClientState proto} {fd : Fd} (fresh : Fresh s.world.kernel k new fd) (hpos : 0 ≤ fd)
    (hnew : new.isIdle = false) (added : Bool) :
    Sole c ⟨((({ s.world with kernel := k } : World proto).registerCbs c).addSocket c new.getFd
      .readWrite added).setState c new, true⟩ := by
  have hstate := h.idle hidle
  have hfree := h.free hidle
  have hnewState : ((((({ s.world with kernel := k } : World proto).registerCbs c).addSocket c
      new.getFd .readWrite added).setState c new).clients c).state = new := by
    simp
  refine ⟨grounded_started h.grounded fresh added, ?_, ?_, ?_, ?_⟩
  · rw [hnewState, hnew]
    intro hidle'
    cases hidle'
  · exact fun _ => by rw [hnewState, hnew]
  · rw [hnewState, fresh.held]
    rintro _ ⟨⟩
    exact hpos
  · rw [hnewState, fresh.held]
    intro fd' hfd'
    by_cases heq : fd' = fd
    · rw [heq]
    · exfalso
      cases added <;>
        simp [World.setState, World.registerCbs, World.update, World.addSocket,
          getFd_of_held fresh.held, heq, hfree] at hfd'

/-- A system call that closes nothing keeps the invariant. -/
theorem Sole.kernel (h : Sole c s) {k : Kernel}
    (hopen : ∀ fd, s.world.kernel.Open fd → k.Open fd) :
    Sole c { s with world := { s.world with kernel := k } } :=
  ⟨grounded_kernel h.grounded hopen, h.idle, h.up, h.held, h.registered⟩

theorem start_local {ans : Except Errno Fd} {added : Bool}
    (hlocal : s.Local c (.start ans added)) : ∃ k, (∀ fd, s.world.kernel.Open fd → k.Open fd) ∧
      s.world.start c ans added = (false, { s.world with kernel := k }) := by
  unfold World.start
  split_ifs with hidle
  · cases hcreate : SocketT.create proto (s.world.clients c).af ans s.world.kernel with
    | mk r k =>
      cases r with
      | some sock =>
        obtain ⟨fd, hans, hpos, fresh, -⟩ := SocketT.create_eq proto _ (congrArg Prod.fst hcreate)
        have hnot := hlocal fd hans hpos fresh
        rw [hidle] at hnot
        cases hnot
      | none => exact ⟨k, fun fd => create_open hcreate, rfl⟩
  · exact ⟨s.world.kernel, fun _ hfd => hfd, rfl⟩

theorem sole_startLocal (h : Sole c s) (address : List UInt8) (port : UInt64)
    (ans : Except Errno Fd) (bound : Answer) (added : Bool) :
    Sole c ⟨(s.world.startLocal pton c address port ans bound added).2,
      s.up || (s.world.startLocal pton c address port ans bound added).1⟩ := by
  unfold World.startLocal
  split_ifs with hidle
  · cases fromStringAndPort pton address port with
    | none => simpa using h
    | some a =>
      simp only
      cases hbound : World.createBound proto (s.world.clients c).af a ans bound s.world.kernel with
      | mk r k =>
        obtain ⟨hfresh, hopen⟩ := createBound_spec hbound
        cases r with
        | none => simpa using h.kernel hopen
        | some state =>
          obtain ⟨fd, fresh⟩ := hfresh state rfl
          obtain ⟨hnotIdle, fd', hheld, hpos⟩ := createBound_held (congrArg Prod.fst hbound)
          obtain rfl : fd = fd' := Option.some.inj (fresh.held.symm.trans hheld)
          simpa using h.started hidle fresh hpos hnotIdle added
  · simpa using h

theorem sole_connect (h : Sole c s) (args : ConnectArgs) (ans : Answer)
    (dead : ConnectArgs) :
    Sole c { s with world := (s.world.connect pton c args ans dead).2 } := by
  have hkeeps : Keeps c s.world (s.world.connect pton c args ans dead).2 :=
    (connect_keeps h.grounded args ans dead).keeps
  have hstate := connect_state pton h.grounded.statics args ans dead
  refine ⟨h.grounded.keeps hkeeps, ?_, ?_, ?_, ?_⟩
  · intro hidle
    rcases hstate with hsame | ⟨sock, hactive⟩
    · rw [hsame] at hidle ⊢
      exact h.idle hidle
    · rw [hactive] at hidle
      cases hidle
  · intro hup
    rcases hstate with hsame | ⟨sock, hactive⟩
    · rw [hsame]
      exact h.up hup
    · rw [hactive]
      rfl
  · rw [hkeeps.held]
    exact h.held
  · rw [hkeeps.held]
    exact fun fd hfd => h.registered fd (connect_registered_of s.world c args ans dead hfd)

theorem sole_stop (h : Sole c s) : Sole c ⟨s.world.stop c, false⟩ := by
  have hstate : ((s.world.stop c).clients c).state = .idle none := by
    simp [World.stop, World.unregisterCbs]
  refine ⟨grounded_stop h.grounded, fun _ => hstate, by simp, by simp [hstate, heldFd], ?_⟩
  intro fd hfd
  -- only the own descriptor was registered, and `stop` takes it from the poll
  have hdel : ((s.world.delSocket c (s.world.getFd c)).registered c fd).isSome :=
    setState_registered_of hfd
  have hown := h.one.registered fd (delSocket_registered_of hdel)
  rw [hown] at hdel
  simp [World.delSocket] at hdel

variable (user) in
theorem sole_proceed (h : Sole c s) (events : List Event) :
    Sole c { s with world := (s.world.proceed user c events).2 } := by
  have calm := World.Calm.proceed user c s.world events
  refine ⟨grounded_proceed user h.grounded events, ?_, ?_, ?_, ?_⟩
  · rw [calm.state]
    exact h.idle
  · rw [calm.state]
    exact h.up
  · rw [calm.state]
    exact h.held
  · rw [calm.state]
    exact fun fd hfd => h.registered fd (proceed_registered_of s.world events hfd)

theorem sole_next (h : Sole c s) {op : ClientOp} {s' : Session proto}
    (hlocal : s.Local c op) (hstep : s.next pton user c op = some s') : Sole c s' := by
  cases hstep
  cases op with
  | start ans added =>
    obtain ⟨k, hopen, heq⟩ := start_local hlocal
    simpa [World.act, heq] using h.kernel hopen
  | startLocal address port ans bound added => exact sole_startLocal h address port ans bound added
  | connect args ans dead => exact sole_connect h args ans dead
  | stop => exact sole_stop h
  | proceed events =>
    have hproceed := sole_proceed user h events
    have heq : (s.world.act pton user c (.proceed events)).2 = (s.world.proceed user c events).2 :=
      World.act_proceed s.world events
    rw [← heq] at hproceed
    exact hproceed

theorem refuses (h : Sole c s) (op : ClientOp) : s.Refuses pton user c op := by
  cases op with
  | start ans added =>
    intro hup
    simp [World.act, World.start, h.up hup]
  | startLocal address port ans bound added =>
    intro hup
    simp [World.act, World.startLocal, h.up hup]
  | _ => trivial

/-- A socket that `start()` creates on an idle client leaves it idle. -/
theorem start_idle {fd : Fd} (hidle : (s.world.clients c).state.isIdle = true) (hpos : 0 ≤ fd)
    (fresh : ¬s.world.kernel.Open fd) (added : Bool) :
    ((s.world.start c (.ok fd) added).2.clients c).state =
      .idle (some ⟨⟨some fd, (s.world.clients c).af⟩⟩) := by
  have hsome := (SocketT.create_isSome proto (s.world.clients c).af (.ok fd)
    s.world.kernel).mpr ⟨fd, rfl, hpos, fresh⟩
  obtain ⟨sock, hsock⟩ := Option.isSome_iff_exists.mp hsome
  obtain ⟨fd', hans, -, -, rfl⟩ := SocketT.create_eq proto _ hsock
  cases hans
  unfold World.start
  rw [if_pos hidle]
  rcases hcreate : SocketT.create proto (s.world.clients c).af (.ok fd) s.world.kernel with ⟨r, k⟩
  rw [hcreate] at hsock
  obtain rfl : r = _ := hsock
  simp

theorem exclusive_iff (h : Sole c s) (op : ClientOp) :
    s.Exclusive pton user c op ↔ s.Local c op := by
  constructor
  · rintro ⟨-, hone⟩
    cases op with
    | start ans added =>
      rintro fd rfl hpos fresh
      by_contra hnot
      have hidle : (s.world.clients c).state.isIdle = true := by simpa using hnot
      have hstate := start_idle hidle hpos fresh added
      have hnext := (hone _ rfl).idle.mp (by
        change ((s.world.start c (.ok fd) added).2.clients c).state.isIdle = true
        rw [hstate]
        rfl)
      have hfd : (s.world.start c (.ok fd) added).2.getFd c = -1 := hnext
      rw [World.getFd, hstate] at hfd
      have hheld : fd = -1 := hfd
      rw [hheld] at hpos
      exact absurd hpos (by decide)
    | _ => trivial
  · exact fun hlocal => ⟨refuses h op, fun s' hstep => (sole_next h hlocal hstep).one⟩

end

/-! ### Runs -/

theorem sole_initial (af : ClientId → Int) (unhandled : ClientId → Option Callback) :
    Sole c (Session.initial af unhandled : Session proto) := by
  refine ⟨grounded_initial af unhandled, fun _ => rfl, ?_, ?_, ?_⟩ <;>
    simp [Session.initial, World.initial, heldFd]

/-- A client is idle exactly when it holds no socket, refuses a second `start` and has no other
descriptor registered, in every state of a run in which no `start()` creates a socket and in no
other. -/
theorem session_run (af : ClientId → Int) (unhandled : ClientId → Option Callback)
    (ops : List ClientOp) :
    let initial : Session proto := Session.initial af unhandled
    (Always (Session.next pton user c) (Session.One c) initial ops ∧
        Along (Session.next pton user c) (Session.Refuses pton user c) initial ops) ↔
      Along (Session.next pton user c) (Session.Local c) initial ops := by
  intro initial
  have start : Sole c initial := sole_initial c af unhandled
  rw [always_iff_along, and_iff_right start.one, ← along_and,
    ← along_iff (fun s op h => exclusive_iff h op) (fun s op s' h => sole_next h) start ops]
  refine ⟨Along.mono fun s op h => ⟨h.2, h.1⟩, Along.mono fun s op h => ⟨h.2, h.1⟩⟩

/-- A client is started twice. -/
def startTwice : List ClientOp := [.start (.ok 3) true, .start (.ok 4) true]

/-- The second `start` returns true, and the descriptor of the first stays registered. -/
theorem startTwice_not_one :
    ¬(Always (Session.next loopbackPton (fun _ => .ok ()) 0) (Session.One 0)
        (Session.initial (fun _ => 2) fun _ => none : Session tcp) startTwice ∧
      Along (Session.next loopbackPton (fun _ => .ok ()) 0)
        (Session.Refuses loopbackPton (fun _ => .ok ()) 0)
        (Session.initial (fun _ => 2) fun _ => none : Session tcp) startTwice) := by
  rintro ⟨hone, -⟩
  have hregistered := (hone.last rfl).registered 3 (by decide)
  exact absurd hregistered (by decide)

end TypedSockets.Endpoint
