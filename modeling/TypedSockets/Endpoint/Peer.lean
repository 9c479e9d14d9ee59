import TypedSockets.Endpoint.ClientRun
import TypedSockets.Endpoint.Connect

/-! Whom a connection based client says it talks to: the address in `m_remote`, against the address
that the kernel connected the held socket to. -/

namespace TypedSockets.Endpoint

open TypedSockets.Socket TypedSockets.Epoll TypedSockets.Lib

/-- The address of the last `::connect` that succeeded on the descriptor. -/
def lastConnect (k : Kernel) (fd : Fd) : Option SockAddr :=
  ((k.fds fd).getD []).reverse.findSome? fun
    | .connect sa => some sa
    | _ => none

/-- The kernel connected the socket to the address. -/
def Peer (k : Kernel) (impl : SocketImpl) (a : InAddressPort) : Prop :=
  ∃ fd sa, impl.fd = some fd ∧ lastConnect k fd = some sa ∧ sa.Names a

/-- `::connect` succeeds on the socket, or the connection is under way. -/
def Answers (k : Kernel) (impl : SocketImpl) (ans : Answer) : Prop :=
  ∃ fd, impl.fd = some fd ∧ k.Open fd ∧ (ans = .ok () ∨ ans = .error eInProgress)

theorem lastConnect_record {k : Kernel} {fd : Fd} (h : k.Open fd) (sa : SockAddr) :
    lastConnect (k.record fd (.connect sa)) fd = some sa := by
  obtain ⟨past, hpast⟩ := Kernel.open_iff.mp h
  simp [lastConnect, Kernel.record, hpast]

@[simp] theorem lastConnect_fail (k : Kernel) (e : Errno) (fd : Fd) :
    lastConnect (k.fail e) fd = lastConnect k fd := rfl

theorem impl_connect_iff {impl : SocketImpl} {addr : InAddressPort} {sa : SockAddr}
    (h : addr.sockAddr = some sa) (ans : Answer) (k : Kernel) :
    (impl.connect addr ans k).1 = true ↔ Answers k impl ans := by
  unfold SocketImpl.connect Answers
  rw [h]
  cases hfd : impl.fd with
  | none => simp
  | some fd =>
    cases ans with
    | ok u =>
      by_cases hopen : k.Open fd
      · simp [Kernel.connect, Kernel.apply, hopen]
      · simp [Kernel.connect, Kernel.apply, hopen, Kernel.fail, eInProgress, eBadf]
    | error e =>
      by_cases he : e = eInProgress
      · by_cases hopen : k.Open fd
        · simp [Kernel.connect, hopen, he, Kernel.fail]
        · simp [Kernel.connect, hopen, he, Kernel.fail, eInProgress, eBadf]
      · simp [Kernel.connect, he, Kernel.fail]

theorem impl_connect_last {impl : SocketImpl} {addr : InAddressPort} {sa : SockAddr}
    (h : addr.sockAddr = some sa) {ans : Answer} {k : Kernel} (hans : Answers k impl ans) :
    ∃ fd, impl.fd = some fd ∧ lastConnect (impl.connect addr ans k).2 fd = some sa := by
  obtain ⟨fd, hfd, hopen, hans⟩ := hans
  refine ⟨fd, hfd, ?_⟩
  have hrecord := lastConnect_record (k := k.issue (.connect (some fd) sa)) hopen sa
  unfold SocketImpl.connect
  rcases hans with rfl | rfl
  · simpa [h, hfd, Kernel.connect, Kernel.apply, hopen] using hrecord
  · simpa [h, hfd, Kernel.connect, hopen] using hrecord

section

variable {proto : Proto} (pton : InetPton)

theorem connectSock_spec {state : ClientState proto} {impl : SocketImpl}
    (h : unconnected state = some impl) {addr : InAddressPort} {sa : SockAddr}
    (hsa : addr.sockAddr = some sa) (ans : Answer) (k : Kernel) :
    (Answers k impl ans ∧ ∃ sock left, sock.impl = impl ∧
        World.connectSock state addr ans k = (some sock, left, (impl.connect addr ans k).2)) ∨
      (¬Answers k impl ans ∧ (World.connectSock state addr ans k).1 = none) := by
  rw [← impl_connect_iff hsa]
  rcases connectSock_cases state addr ans k with
    ⟨impl', sock, left, held, himpl, -, hb, hc⟩ | ⟨impl', held, hb, hc⟩ | ⟨held, -⟩
  · obtain rfl : impl = impl' := Option.some.inj (h.symm.trans held)
    exact Or.inl ⟨hb, sock, left, himpl, hc⟩
  · obtain rfl : impl = impl' := Option.some.inj (h.symm.trans held)
    exact Or.inr ⟨by simp [hb], by rw [hc]⟩
  · simp [h] at held

/-- A `connect` on an unconnected socket that succeeds. -/
structure Connected (cl : Client proto) (args : ConnectArgs) (ans : Answer) (k : Kernel)
    (impl : SocketImpl) (addr : InAddressPort) : Prop where
  held : unconnected cl.state = some impl
  parsed : fromStringAndPort pton args.remoteAddress args.remotePort = some addr
  answers : Answers k impl ans

theorem connectOwn_spec {cl : Client proto} (based : proto.isConnectionless = false)
    (active : ∀ sock, cl.state ≠ .active sock) (args : ConnectArgs) (ans : Answer) (k : Kernel) :
    (∃ impl addr sock, Connected pton cl args ans k impl addr ∧ sock.impl = impl ∧
        connectOwn pton cl args ans k =
          (true, connectedClient cl args addr sock, (impl.connect addr ans k).2)) ∨
      ((∀ impl addr, ¬Connected pton cl args ans k impl addr) ∧
        (connectOwn pton cl args ans k).1 = false ∧ (connectOwn pton cl args ans k).2.1 = cl) := by
  have idle : (cl.state.isIdle && proto.isConnectionless) = false := by rw [based, Bool.and_false]
  cases parsed : fromStringAndPort pton args.remoteAddress args.remotePort with
  | none =>
    refine Or.inr ⟨fun impl addr h => ?_, ?_, ?_⟩
    · simp [h.parsed] at parsed
    · simp [connectOwn, parsed]
    · simp [connectOwn, parsed]
  | some addr =>
    obtain ⟨sa, hsa⟩ := fromStringAndPort_sockAddr parsed
    rw [connectOwn_inactive active idle parsed]
    cases held : unconnected cl.state with
    | none =>
      have hidle : cl.state = .idle none := by
        rcases hst : cl.state with (_ | sock) | ⟨_, sock⟩ | sock
        · rfl
        · simp [hst, unconnected] at held
        · simp [hst, unconnected] at held
        · exact absurd hst (active sock)
      refine Or.inr ⟨fun impl addr h => ?_, ?_, ?_⟩
      · simp [h.held] at held
      · simp [hidle, World.connectSock]
      · simp [hidle, World.connectSock]
    | some impl =>
      rcases connectSock_spec held hsa ans k with ⟨answers, sock, left, himpl, hc⟩ | ⟨hans, hc⟩
      · exact Or.inl ⟨impl, addr, sock, ⟨held, parsed, answers⟩, himpl, by rw [hc]⟩
      · refine Or.inr ⟨fun impl' addr' h => ?_, ?_⟩
        · obtain rfl : impl = impl' := Option.some.inj (held.symm.trans h.held)
          exact hans h.answers
        · rcases hsock : World.connectSock cl.state addr ans k with ⟨r, left, k'⟩
          rw [hsock] at hc
          obtain rfl : r = none := hc
          exact ⟨rfl, rfl⟩

/-- `m_remote` has the address that the held socket is connected to. -/
def Truthful (w : World proto) (c : ClientId) : Prop :=
  ∀ sock, (w.clients c).state = .active sock →
    ∃ r, (w.clients c).remote = some r ∧ Peer w.kernel sock.impl r

/-- After the call `m_remote` is right, and a `connect` that returned true left a socket that is
connected to the requested address. -/
def Good (user : UserCode) (c : ClientId) (w : World proto) (op : ClientOp) : Prop :=
  Truthful (w.act pton user c op).2 c ∧
    ∀ args ans dead, op = .connect args ans dead → (w.act pton user c op).1 = true →
      ∃ sock a, ((w.act pton user c op).2.clients c).state = .active sock ∧
        fromStringAndPort pton args.remoteAddress args.remotePort = some a ∧
        Peer (w.act pton user c op).2.kernel sock.impl a

/-- The parameters that the static lambdas read in a call of `connect`. -/
def frameOf (w : World proto) (args dead : ConnectArgs) : ConnectArgs :=
  if w.statics.isNone then args else dead

/-- A `connect` on an active socket has the address that the socket is connected to.  One that
succeeds on an unconnected socket has a port of 16 bits, and what a later call finds in the memory
of the dead parameters names the requested address. -/
def Consistent (c : ClientId) (w : World proto) : ClientOp → Prop
  | .connect args ans dead =>
    match (w.clients c).state with
    | .active sock => ∀ a, fromStringAndPort pton args.remoteAddress args.remotePort = some a →
        Peer w.kernel sock.impl a
    | _ => ∀ impl a, Connected pton (w.clients c) (frameOf w args dead) ans w.kernel impl a →
        a.port.toNat < 65536 ∧
          ∃ own sa, fromStringAndPort pton args.remoteAddress args.remotePort = some own ∧
            a.sockAddr = some sa ∧ sa.Names own
  | _ => True

variable {pton} {user : UserCode} {c : ClientId} {w : World proto}

/-- The static lambdas, when they are there, captured this client. -/
def OwnStatics (w : World proto) (c : ClientId) : Prop := w.statics = none ∨ w.statics = some c

theorem OwnStatics.getD (h : OwnStatics w c) : w.statics.getD c = c := by
  rcases h with h | h <;> rw [h] <;> rfl

variable (pton) in
/-- On an unconnected socket `connect` does with the parameters that it reads what the first call
of the process does with its own. -/
theorem connect_inactive (based : proto.isConnectionless = false) (h : OwnStatics w c)
    (active : ∀ sock, (w.clients c).state ≠ .active sock) (args : ConnectArgs) (ans : Answer)
    (dead : ConnectArgs) :
    let out := w.connect pton c args ans dead
    let own := connectOwn pton (w.clients c) (frameOf w args dead) ans w.kernel
    out.1 = own.1 ∧ out.2.clients c = own.2.1 ∧ out.2.kernel = own.2.2 := by
  obtain ⟨hb, hcl, hk, -⟩ :=
    connectLambda_own pton { w with statics := some c } c (frameOf w args dead) ans active
      (by simp [based])
  simp only [World.connect, h.getD]
  cases hst : (w.clients c).state with
  | active sock => exact absurd hst (active sock)
  | binded based' sock => exact ⟨hb, hcl, hk⟩
  | idle sock =>
    cases sock with
    | some sock =>
      simp only [based, Bool.false_eq_true, ↓reduceIte]
      exact ⟨hb, hcl, hk⟩
    | none =>
      rw [connectOwn_idle hst]
      exact ⟨rfl, rfl, rfl⟩

/-- A `connect` on an active socket sets `m_remote` to a valid address, and is not given another. -/
theorem good_connect_active {sock : ActiveSocket} (h : OwnStatics w c) (ht : Truthful w c)
    (hst : (w.clients c).state = .active sock) (args : ConnectArgs) (ans : Answer)
    (dead : ConnectArgs) :
    Good pton user c w (.connect args ans dead) ↔
      ∀ a, fromStringAndPort pton args.remoteAddress args.remotePort = some a →
        Peer w.kernel sock.impl a := by
  simp only [Good, World.act, World.connect, hst, h.getD]
  cases parsed : fromStringAndPort pton args.remoteAddress args.remotePort with
  | none =>
    have kept : Truthful ({ w with statics := some c } : World proto) c := ht
    simp [kept]
  | some a =>
    have truthful :
        Truthful (({ w with statics := some c } : World proto).setFields c a (frameOf w args dead)) c ↔
          Peer w.kernel sock.impl a := by
      simp [Truthful, hst]
    constructor
    · rintro ⟨htruth, -⟩ a' ha
      cases ha
      exact truthful.mp htruth
    · intro hpeer
      refine ⟨truthful.mpr (hpeer a rfl), ?_⟩
      rintro args' ans' dead' hop -
      cases hop
      exact ⟨sock, a, by simp [hst], parsed, hpeer a rfl⟩

theorem good_connect_inactive (based : proto.isConnectionless = false) (h : OwnStatics w c)
    (active : ∀ sock, (w.clients c).state ≠ .active sock) (args : ConnectArgs) (ans : Answer)
    (dead : ConnectArgs) :
    Good pton user c w (.connect args ans dead) ↔
      ∀ impl a, Connected pton (w.clients c) (frameOf w args dead) ans w.kernel impl a →
        a.port.toNat < 65536 ∧
          ∃ own sa, fromStringAndPort pton args.remoteAddress args.remotePort = some own ∧
            a.sockAddr = some sa ∧ sa.Names own := by
  obtain ⟨hb, hcl, hk⟩ := connect_inactive pton based h active args ans dead
  simp only [Good, World.act, Truthful, hb, hcl, hk]
  rcases connectOwn_spec pton based active (frameOf w args dead) ans w.kernel with
    ⟨impl, a, sock, hconn, himpl, heq⟩ | ⟨hnone, hfalse, hsame⟩
  · -- the socket is connected to the address that the static lambdas read
    obtain ⟨sa, hsa⟩ := fromStringAndPort_sockAddr hconn.parsed
    obtain ⟨fd, hfd, hlast⟩ := impl_connect_last hsa hconn.answers
    have peer : ∀ r, Peer (impl.connect a ans w.kernel).2 sock.impl r ↔ sa.Names r := by
      intro r
      constructor
      · rintro ⟨fd', sa', hfd', hlast', hnames⟩
        rw [himpl, hfd] at hfd'
        cases hfd'
        rw [hlast] at hlast'
        cases hlast'
        exact hnames
      · exact fun hnames => ⟨fd, sa, himpl ▸ hfd, hlast, hnames⟩
    have hport : sa.Names a ↔ a.port.toNat < 65536 := InAddressPort.sockAddr_names hsa
    rw [heq]
    constructor
    · rintro ⟨htruth, hreq⟩ impl' a' hconn'
      obtain rfl : a = a' := Option.some.inj (hconn.parsed.symm.trans hconn'.parsed)
      obtain ⟨r, hr, hpeer⟩ := htruth sock rfl
      cases hr
      obtain ⟨sock', own, hsock', hown, hpeer'⟩ := hreq args ans dead rfl rfl
      cases hsock'
      exact ⟨hport.mp ((peer a).mp hpeer), own, sa, hown, hsa, (peer own).mp hpeer'⟩
    · intro hcond
      obtain ⟨hlt, own, sa', hown, hsa', hnames⟩ := hcond impl a hconn
      rw [hsa] at hsa'
      cases hsa'
      constructor
      · rintro sock' hsock'
        cases hsock'
        exact ⟨a, rfl, (peer a).mpr (hport.mpr hlt)⟩
      · rintro args' ans' dead' hop -
        cases hop
        exact ⟨sock, own, rfl, hown, (peer own).mpr hnames⟩
  · rw [hfalse, hsame]
    constructor
    · intro _ impl a hconn
      exact absurd hconn (hnone impl a)
    · intro _
      exact ⟨fun sock hsock => absurd hsock (active sock), fun _ _ _ _ hb => by cases hb⟩

theorem good_connect_iff (based : proto.isConnectionless = false) (h : OwnStatics w c)
    (ht : Truthful w c) (args : ConnectArgs) (ans : Answer) (dead : ConnectArgs) :
    Good pton user c w (.connect args ans dead) ↔
      Consistent pton c w (.connect args ans dead) := by
  cases hst : (w.clients c).state with
  | active sock =>
    rw [good_connect_active h ht hst]
    simp only [Consistent, hst]
  | _ =>
    rw [good_connect_inactive based h (by simp [hst])]
    simp only [Consistent, hst]

theorem truthful_of_inactive (h : ∀ sock, (w.clients c).state ≠ .active sock) : Truthful w c :=
  fun sock hsock => absurd hsock (h sock)

theorem createBound_inactive (based : proto.isConnectionless = false) {af : Int}
    {local_ : InAddressPort} {ans : Except Errno Fd} {bound : Answer} {k k' : Kernel}
    {state : ClientState proto} (h : World.createBound proto af local_ ans bound k = (some state, k'))
    (sock : ActiveSocket) : state ≠ .active sock := by
  unfold World.createBound at h
  split at h
  · simp only [based, ↓reduceDIte] at h
    obtain ⟨sock', -, rfl⟩ := Option.map_eq_some_iff.mp (congrArg Prod.fst h)
    simp
  · cases h

theorem isIdle_inactive {state : ClientState proto} (h : state.isIdle = true)
    (sock : ActiveSocket) : state ≠ .active sock := by
  rintro rfl
  cases h

theorem truthful_start (ht : Truthful w c) (ans : Except Errno Fd) (added : Bool) :
    Truthful (w.start c ans added).2 c := by
  unfold World.start
  split_ifs with hidle
  · split
    · exact truthful_of_inactive (by simp)
    · exact truthful_of_inactive (isIdle_inactive hidle)
  · exact ht

theorem truthful_startLocal (based : proto.isConnectionless = false) (ht : Truthful w c)
    (address : List UInt8) (port : UInt64) (ans : Except Errno Fd) (bound : Answer)
    (added : Bool) : Truthful (w.startLocal pton c address port ans bound added).2 c := by
  unfold World.startLocal
  split_ifs with hidle
  · split
    · split
      · rename_i hbound
        exact truthful_of_inactive (by simpa using createBound_inactive based hbound)
      · exact truthful_of_inactive (isIdle_inactive hidle)
    · exact ht
  · exact ht

theorem truthful_stop : Truthful (w.stop c) c :=
  truthful_of_inactive (by simp [World.stop, World.unregisterCbs])

theorem truthful_proceed (ht : Truthful w c) (events : List Event) :
    Truthful (w.proceed user c events).2 c := by
  have calm := World.Calm.proceed user c w events
  intro sock hsock
  rw [calm.state] at hsock
  rw [calm.remote, calm.kernel]
  exact ht sock hsock

theorem connect_ownStatics (h : OwnStatics w c) (args : ConnectArgs) (ans : Answer)
    (dead : ConnectArgs) : OwnStatics (w.connect pton c args ans dead).2 c := by
  right
  rw [World.connect_statics, h.getD]

theorem ownStatics_act (h : OwnStatics w c) (op : ClientOp) :
    OwnStatics (w.act pton user c op).2 c := by
  cases op with
  | start ans added =>
    simp only [World.act, World.start]
    split_ifs
    · split
      · cases added <;> exact h
      · exact h
    · exact h
  | startLocal address port ans bound added =>
    simp only [World.act, World.startLocal]
    split_ifs
    · split
      · split
        · cases added <;> exact h
        · exact h
      · exact h
    · exact h
  | connect args ans dead => exact connect_ownStatics h args ans dead
  | stop => exact h
  | proceed events =>
    rw [World.act_proceed]
    have calm := World.Calm.proceed user c w events
    unfold OwnStatics
    rw [calm.statics]
    exact h

/-- The invariant of a run. -/
structure Settled (c : ClientId) (w : World proto) : Prop where
  statics : OwnStatics w c
  truthful : Truthful w c

theorem good_iff (based : proto.isConnectionless = false) (h : OwnStatics w c)
    (ht : Truthful w c) (op : ClientOp) :
    Good pton user c w op ↔ Consistent pton c w op := by
  have silent (keep : Truthful (w.act pton user c op).2 c)
      (other : ∀ args ans dead, op ≠ .connect args ans dead) : Good pton user c w op :=
    ⟨keep, fun args ans dead hop => absurd hop (other args ans dead)⟩
  cases op with
  | start ans added =>
    exact iff_of_true (silent (truthful_start ht ans added) (by simp)) trivial
  | startLocal address port ans bound added =>
    exact iff_of_true (silent (truthful_startLocal based ht address port ans bound added) (by simp))
      trivial
  | connect args ans dead => exact good_connect_iff based h ht args ans dead
  | stop => exact iff_of_true (silent truthful_stop (by simp)) trivial
  | proceed events =>
    refine iff_of_true (silent ?_ (by simp)) trivial
    rw [World.act_proceed]
    exact truthful_proceed ht events

end

section Runs

variable {proto : Proto}

/-- In a run of a connection based client `m_remote` is always right, and a `connect` that returns
true leaves a socket connected to the requested address, exactly when every `connect` is
consistent. -/
theorem truthful_run (based : proto.isConnectionless = false) (pton : InetPton)
    (user : UserCode) (af : ClientId → Int) (unhandled : ClientId → Option Callback)
    (c : ClientId) (ops : List ClientOp) :
    let initial : World proto := World.initial af unhandled
    Along (World.next pton user c) (Good pton user c) initial ops ↔
      Along (World.next pton user c) (Consistent pton c) initial ops := by
  have start : Settled c (World.initial af unhandled : World proto) :=
    ⟨Or.inl rfl, truthful_of_inactive (by simp [World.initial])⟩
  refine along_iff (fun w op (h : Settled c w) => good_iff based h.statics h.truthful op) ?_ start ops
  intro w op w' h hcond hstep
  cases hstep
  exact ⟨ownStatics_act h.statics op, ((good_iff based h.statics h.truthful op).mpr hcond).1⟩

/-- A TCP client connects to port 80, and then to port 81. -/
def reconnectRun : List ClientOp :=
  [.start (.ok 3) true, .connect (loopbackArgs 80 1) (.ok ()) (loopbackArgs 80 1),
    .connect (loopbackArgs 81 1) (.ok ()) (loopbackArgs 80 1)]

theorem truthful_run_tcp :
    let initial : World tcp := World.initial (fun _ => 2) fun _ => none
    Along (World.next loopbackPton (fun _ => .ok ()) 0) (Good loopbackPton (fun _ => .ok ()) 0)
        initial reconnectRun ↔
      Along (World.next loopbackPton (fun _ => .ok ()) 0) (Consistent loopbackPton 0) initial
        reconnectRun :=
  truthful_run rfl loopbackPton (fun _ => .ok ()) (fun _ => 2) (fun _ => none) 0 reconnectRun

/-- The second connect changes `m_remote` and leaves the socket where it is connected. -/
theorem reconnect_not_truthful :
    let initial : World tcp := World.initial (fun _ => 2) fun _ => none
    ¬Along (World.next loopbackPton (fun _ => .ok ()) 0) (Good loopbackPton (fun _ => .ok ()) 0)
      initial reconnectRun := by
  intro initial h
  obtain ⟨htruth, -⟩ := (((h.2 _ rfl).2 _ rfl).1)
  obtain ⟨r, hr, fd, sa, hfd, hlast, hnames⟩ := htruth _ rfl
  cases hr
  cases hfd
  cases hlast
  exact absurd hnames (by decide)

end Runs

end TypedSockets.Endpoint
