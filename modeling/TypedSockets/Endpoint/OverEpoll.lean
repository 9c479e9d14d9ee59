import TypedSockets.Epoll.Interest
import TypedSockets.Endpoint.CallOrder
import TypedSockets.Endpoint.Dispatch
import TypedSockets.Endpoint.Isolation
import TypedSockets.Endpoint.Session
import TypedSockets.Endpoint.Threaded

/-! Any number of clients over `epoll_t`.  The clients were modelled over a poll that is told whether
it adds a descriptor; here they call `epoll_ctl` on interest lists, which decide that themselves. -/

namespace TypedSockets.Endpoint

open TypedSockets.Socket TypedSockets.Epoll TypedSockets.Lib

variable {proto : Proto} (pton : InetPton) (user : UserCode)

/-- The clients, and the interest lists of their polls. -/
structure Polls (proto : Proto) where
  world : World proto
  lists : ClientId → InterestList

/-- A call on a client.  `room` is the answer of the kernel when a list needs memory, and `raw` what
`epoll_wait` stores. -/
inductive EpollOp where
  | start (ans : Except Errno Fd) (room : Answer)
  | startLocal (address : List UInt8) (port : UInt64) (ans : Except Errno Fd) (bound : Answer)
      (room : Answer)
  | connect (args : ConnectArgs) (ans : Answer) (dead : ConnectArgs)
  | stop
  | proceed (raw : List RawEvent)

namespace EpollOp

/-- The same call over a poll that adds a descriptor when there is room. -/
def toOp : EpollOp → ClientOp
  | start ans room => .start ans room.isOk
  | startLocal address port ans bound room => .startLocal address port ans bound room.isOk
  | connect args ans dead => .connect args ans dead
  | stop => .stop
  | proceed raw => .proceed (EpollT.proceed raw)

end EpollOp

namespace Polls

def initial (af : ClientId → Int) (unhandled : ClientId → Option Callback) : Polls proto :=
  ⟨.initial af unhandled, fun _ => .empty⟩

/-- After a call that may close descriptors. -/
def settle (s : Polls proto) (w : World proto) : Polls proto :=
  ⟨w, fun i => (s.lists i).sweep w.kernel⟩

/-- `start`, where `add_socket` gets its answer from the list. -/
def start (s : Polls proto) (c : ClientId) (op : StartOp) (room : Answer) : Bool × Polls proto :=
  match s.world.made pton c op with
  | (some new, k) =>
    let (added, list) := (s.lists c).addSocket k room new.getFd .readWrite
    (true, { s with lists := Function.update s.lists c list }.settle
      ((({ s.world with kernel := k } : World proto).registerCbs c).put c new added))
  | (none, k) => (false, s.settle { s.world with kernel := k })

/-- `stop`. -/
def stop (s : Polls proto) (c : ClientId) : Polls proto :=
  let list := ((s.lists c).delSocket s.world.kernel (.ok ()) (s.world.getFd c)).2
  { s with lists := Function.update s.lists c list }.settle (s.world.stop c)

/-- A handler: the one for the end of a connection deletes the descriptor. -/
def invoke (c : ClientId) (func : ClientHandler) (fd : Fd) (s : Polls proto) :
    Except Exn Unit × Polls proto :=
  let (r, w) := s.world.invoke user c func fd
  let list := ((s.lists c).delSocket s.world.kernel (.ok ()) fd).2
  (r, ⟨w, if func = .erase ∧ fd = s.world.getFd c then Function.update s.lists c list
    else s.lists⟩)

/-- `proceed` on what `epoll_wait` stores. -/
def proceed (s : Polls proto) (c : ClientId) (raw : List RawEvent) :
    Except (List Exn) Bool × Polls proto :=
  Endpoint.proceed (invoke user c) (s.world.clients c).handlers
    ((s.world.clients c).unhandled.map fun func events s =>
      let (r, w) := s.world.call user (.unhandled c func events)
      (r, { s with world := w }))
    (EpollT.proceed raw) s

/-- A call on one of the clients, and whether it returned true. -/
def act (s : Polls proto) (c : ClientId) : EpollOp → Bool × Polls proto
  | .start ans room => s.start pton c (.plain ans true) room
  | .startLocal address port ans bound room =>
    s.start pton c (.atLocal address port ans bound true) room
  | .connect args ans dead =>
    let (r, w) := s.world.connect pton c args ans dead
    (r, s.settle w)
  | .stop => (false, s.stop c)
  | .proceed raw =>
    let (r, s) := s.proceed user c raw
    (r.toOption.getD false, s)

/-- `act` as the step of a run. -/
def next (s : Polls proto) (call : ClientId × EpollOp) : Option (Polls proto) :=
  some (s.act pton user call.1 call.2).2

/-- The call returns what it returns over the abstract poll. -/
def Agrees (s : Polls proto) (call : ClientId × EpollOp) : Prop :=
  (s.act pton user call.1 call.2).1 = (s.world.act pton user call.1 call.2.toOp).1

/-- `start` finds no socket in a client that it takes for idle. -/
def StartsEmpty (c : ClientId) (s : Polls proto) : EpollOp → Prop
  | .start _ _ | .startLocal _ _ _ _ _ =>
    (s.world.clients c).state.isIdle = true → (s.world.clients c).state = .idle none
  | _ => True

/-- Whatever epoll reports finds a handler, and `m_unhandled` gets the events whose first handler
throws. -/
def Finds (maxEvents : Nat) (c : ClientId) (s : Polls proto) : EpollOp → Prop
  | .proceed raw => (s.lists c).Reports maxEvents raw →
      let table := (s.world.clients c).handlers
      let events := EpollT.proceed raw
      (∀ event ∈ events, handlersOf table event ≠ []) ∧
        reportedUnhandled (invoke user c) table events s =
          [firstThrown (invoke user c) table events s]
  | _ => True

/-- Only one client of the process is used. -/
def nextOne (c : ClientId) (s : Polls proto) (op : EpollOp) : Option (Polls proto) :=
  s.next pton user (c, op)

/-- The lists are those of the abstract poll, which watches open descriptors only. -/
structure Refines (s : Polls proto) : Prop where
  lists : s.lists = fun c => InterestList.ofOps (s.world.registered c)
  onlyOpen : ∀ c, InterestList.OnlyOpen (s.world.registered c) s.world.kernel

end Polls

/-- A call on one of the clients over the abstract poll. -/
def World.nextOf (w : World proto) (call : ClientId × ClientOp) : Option (World proto) :=
  w.next pton user call.1 call.2

section

variable {pton} {user} {s : Polls proto}

namespace Polls

/-! ### One call -/

theorem refines_settle {w : World proto} {lists : ClientId → InterestList}
    {registered : ClientId → Fd → Option SockOp}
    (same : lists = fun c => InterestList.ofOps (registered c))
    (closes : ∀ c fd, w.registered c fd = if w.kernel.Open fd then registered c fd else none) :
    Refines (({ s with lists } : Polls proto).settle w) := by
  constructor
  · funext c
    simp only [settle, same, InterestList.sweep_ofOps]
    congr 1
    funext fd
    rw [closes]
  · intro c fd hfd
    have hreg := closes c fd
    rw [show ((({ s with lists } : Polls proto).settle w).world.registered c fd) =
      w.registered c fd from rfl, hreg] at hfd
    split_ifs at hfd with hopen
    · exact hopen
    · cases hfd

/-- A call that leaves the registrations as they are and closes nothing. -/
theorem refines_same (h : Refines s) {w : World proto}
    (registered : w.registered = s.world.registered)
    (opened : ∀ fd, s.world.kernel.Open fd → w.kernel.Open fd) : Refines (s.settle w) := by
  refine refines_settle h.lists fun c fd => ?_
  rw [registered]
  split_ifs with hopen
  · rfl
  · exact Option.not_isSome_iff_eq_none.mp fun hsome => hopen (opened fd (h.onlyOpen c fd hsome))

/-- What `start` has made: nothing that was open is closed, and the socket has a new descriptor. -/
theorem made_spec {w : World proto} {c : ClientId} {op : StartOp} {r : Option (ClientState proto)}
    {k : Kernel} (h : w.made pton c op = (r, k)) :
    (∀ fd, w.kernel.Open fd → k.Open fd) ∧ ∀ new ∈ r, (w.clients c).state.isIdle = true ∧
      ∃ fd, Fresh w.kernel k new fd := by
  cases op with
  | plain ans added =>
    simp only [World.made] at h
    split_ifs at h with hidle
    · split at h <;> rename_i hcreate <;> cases h
      · obtain ⟨fd, hfd, hnew, hopens⟩ := create_fresh hcreate
        refine ⟨fun fd' hfd' => (hopens fd').mpr (Or.inl hfd'), ?_⟩
        rintro _ ⟨⟩
        exact ⟨hidle, fd, hfd, hnew, (hopens fd).mpr (Or.inr rfl)⟩
      · exact ⟨fun fd => create_open hcreate, by simp⟩
    · cases h
      exact ⟨fun _ hfd => hfd, by simp⟩
  | atLocal address port ans bound added =>
    simp only [World.made] at h
    split_ifs at h with hidle
    · split at h
      · obtain ⟨hfresh, hopen⟩ := createBound_spec h
        exact ⟨hopen, fun new hnew => ⟨hidle, hfresh new hnew⟩⟩
      · cases h
        exact ⟨fun _ hfd => hfd, by simp⟩
    · cases h
      exact ⟨fun _ hfd => hfd, by simp⟩

/-- `start` returns true when it makes a socket. -/
theorem act_start_fst (w : World proto) (c : ClientId) (op : StartOp) :
    (w.act pton user c op.toOp).1 = (w.made pton c op).1.isSome := by
  cases op with
  | plain ans added =>
    simp only [StartOp.toOp, World.act, World.start, World.made]
    split_ifs
    · rcases SocketT.create proto (w.clients c).af ans w.kernel with ⟨_ | sock, k⟩ <;> rfl
    · rfl
  | atLocal address port ans bound added =>
    simp only [StartOp.toOp, World.act, World.startLocal, World.made]
    split_ifs
    · cases fromStringAndPort pton address port with
      | none => rfl
      | some addr =>
        simp only
        rcases World.createBound proto (w.clients c).af addr ans bound w.kernel with ⟨_ | sock, k⟩ <;>
          rfl
    · rfl

/-- `start` adds its descriptor unless there is no room. -/
theorem start_refines (h : Refines s) (c : ClientId) (op : StartOp) (room : Answer)
    (answered : op.added = room.isOk) :
    (s.start pton c op room).1 = (s.world.act pton user c op.toOp).1 ∧
      (s.start pton c op room).2.world = (s.world.act pton user c op.toOp).2 ∧
      Refines (s.start pton c op room).2 := by
  rw [act_start, act_start_fst, start]
  rcases hmade : s.world.made pton c op with ⟨_ | new, k⟩
  · exact ⟨rfl, rfl, refines_same h rfl (made_spec hmade).1⟩
  · obtain ⟨-, fd, fresh⟩ := (made_spec hmade).2 new rfl
    have hnone : s.world.registered c new.getFd = none := by
      rw [getFd_of_held fresh.held]
      exact Option.not_isSome_iff_eq_none.mp fun hsome => fresh.fresh (h.onlyOpen c fd hsome)
    have hopened : k.Open new.getFd := getFd_of_held fresh.held ▸ fresh.opened
    have hadd := InterestList.addSocket_new (k := k) room .readWrite hopened hnone
    have hlist : s.lists c = InterestList.ofOps (s.world.registered c) := congrFun h.lists c
    simp only [hlist, hadd, answered]
    suffices hsame : Function.update s.lists c _ = fun i =>
        InterestList.ofOps (((({ s.world with kernel := k } : World proto).registerCbs c).addSocket
          c new.getFd .readWrite room.isOk).registered i) from
      ⟨rfl, rfl, refines_settle hsame fun i fd => rfl⟩
    funext i
    rw [h.lists]
    by_cases hi : i = c
    · subst hi
      rw [Function.update_self]
      cases room.isOk <;> simp [World.addSocket, World.registerCbs, World.update]
    · rw [Function.update_of_ne hi]
      cases room.isOk <;> simp [World.addSocket, World.registerCbs, World.update, hi]

theorem delSocket_refines (h : Refines s) (c : ClientId) (fd : Fd) :
    Function.update s.lists c ((s.lists c).delSocket s.world.kernel (.ok ()) fd).2 =
      fun i => InterestList.ofOps ((s.world.delSocket c fd).registered i) := by
  funext i
  rw [h.lists]
  simp only [InterestList.delSocket_ofOps (h.onlyOpen c)]
  by_cases hi : i = c
  · subst hi
    simp [World.delSocket]
  · simp [World.delSocket, hi]

theorem stop_refines (h : Refines s) (c : ClientId) : Refines (s.stop c) :=
  refines_settle (delSocket_refines h c _) fun _ _ => rfl

theorem connectSock_open {state : ClientState proto} {addr : InAddressPort} {ans : Answer}
    {k k' : Kernel} {r : Option ActiveSocket} {left : ClientState proto}
    (h : World.connectSock state addr ans k = (r, left, k')) (fd : Fd) : k'.Open fd ↔ k.Open fd := by
  rcases connectSock_cases state addr ans k with
    ⟨impl, sock, left', -, -, -, -, hsock⟩ | ⟨impl, -, -, hsock⟩ | ⟨-, hsock⟩ <;>
    rw [hsock] at h <;> cases h
  · exact impl.open_connect addr ans k fd
  · exact impl.open_connect addr ans k fd
  · rfl

/-- What is closed leaves every poll, and nothing else changes in them. -/
def Closes (w w' : World proto) : Prop :=
  ∀ i fd, w'.registered i fd = if w'.kernel.Open fd then w.registered i fd else none

theorem closes_same {w w' : World proto}
    (h : ∀ i, InterestList.OnlyOpen (w.registered i) w.kernel)
    (registered : w'.registered = w.registered)
    (opened : ∀ fd, w'.kernel.Open fd ↔ w.kernel.Open fd) : Closes w w' := by
  intro i fd
  rw [registered]
  split_ifs with hopen
  · rfl
  · exact Option.not_isSome_iff_eq_none.mp fun hsome => hopen ((opened fd).mpr (h i fd hsome))

theorem connectLambda_closes {w : World proto}
    (h : ∀ i, InterestList.OnlyOpen (w.registered i) w.kernel) (this c : ClientId)
    (frame : ConnectArgs) (ans : Answer) :
    Closes w (w.connectLambda pton this c frame ans).2 := by
  unfold World.connectLambda
  split
  · rename_i parsed _
    rcases hsock : World.connectSock (w.clients c).state parsed ans w.kernel with
      ⟨_ | sock, left, k⟩ <;> simp only
    · exact closes_same h rfl (connectSock_open hsock)
    · exact fun i fd => rfl
  · exact closes_same h rfl fun _ => Iff.rfl

theorem connect_closes {w : World proto}
    (h : ∀ i, InterestList.OnlyOpen (w.registered i) w.kernel) (c : ClientId) (args : ConnectArgs)
    (ans : Answer) (dead : ConnectArgs) : Closes w (w.connect pton c args ans dead).2 := by
  simp only [World.connect]
  split
  · split <;> exact closes_same h rfl fun _ => Iff.rfl
  · exact closes_same h rfl fun _ => Iff.rfl
  · split
    · exact closes_same h rfl fun _ => Iff.rfl
    · exact connectLambda_closes (w := { w with statics := some _ }) h _ _ _ _
  · exact connectLambda_closes (w := { w with statics := some _ }) h _ _ _ _

theorem connect_refines (h : Refines s) (c : ClientId) (args : ConnectArgs) (ans : Answer)
    (dead : ConnectArgs) : Refines (s.settle (s.world.connect pton c args ans dead).2) :=
  refines_settle h.lists (connect_closes h.onlyOpen c args ans dead)

/-! ### A batch -/

theorem invoke_refines (h : Refines s) (c : ClientId) (func : ClientHandler) (fd : Fd) :
    Refines (invoke user c func fd s).2 := by
  have hkernel : (s.world.invoke user c func fd).2.kernel = s.world.kernel :=
    (World.Calm.invoke func fd s.world).kernel
  have hregistered : (s.world.invoke user c func fd).2.registered = _ :=
    invoke_registered_eq s.world c func fd
  constructor
  · simp only [invoke, hregistered]
    split_ifs
    · exact delSocket_refines h c fd
    · exact h.lists
  · intro i fd' hfd
    have hreg : (s.world.registered i fd').isSome := invoke_registered_of func fd s.world hfd
    exact hkernel ▸ h.onlyOpen i fd' hreg

/-- A batch does to the clients what it does over the abstract poll. -/
theorem proceed_refines (h : Refines s) (c : ClientId) (raw : List RawEvent) :
    s.world.proceed user c (EpollT.proceed raw) =
        ((s.proceed user c raw).1, (s.proceed user c raw).2.world) ∧
      Refines (s.proceed user c raw).2 := by
  refine ⟨?_, ?_⟩
  · refine proceed_map Polls.world (fun _ _ _ => rfl) (fun missed t => ?_)
      (EpollT.proceed raw) s
    cases (s.world.clients c).unhandled with
    | none => rfl
    | some func =>
      simp only [Option.map_some, handleUnhandled]
      rcases World.call user t.world (.unhandled c func missed) with ⟨_ | _, w⟩ <;> rfl
  · refine proceed_induction Refines ?_ ?_ h
    · exact fun event _ u hu => handleEvent_induction Refines
        (fun _ func _ v hv => invoke_refines hv c func event.fd) hu
    · intro func hfunc missed u hu
      obtain ⟨f, -, rfl⟩ := Option.mem_map.mp hfunc
      exact ⟨hu.lists, hu.onlyOpen⟩

/-! ### Runs -/

theorem act_refines (h : Refines s) (c : ClientId) (op : EpollOp) :
    s.world.act pton user c op.toOp =
        ((s.act pton user c op).1, (s.act pton user c op).2.world) ∧
      Refines (s.act pton user c op).2 := by
  cases op with
  | start ans room =>
    obtain ⟨hresult, hworld, hrefines⟩ :=
      start_refines h c (.plain ans room.isOk) room rfl
    exact ⟨Prod.ext hresult.symm hworld.symm, hrefines⟩
  | startLocal address port ans bound room =>
    obtain ⟨hresult, hworld, hrefines⟩ :=
      start_refines h c (.atLocal address port ans bound room.isOk) room rfl
    exact ⟨Prod.ext hresult.symm hworld.symm, hrefines⟩
  | connect args ans dead => exact ⟨rfl, connect_refines h c args ans dead⟩
  | stop => exact ⟨rfl, stop_refines h c⟩
  | proceed raw =>
    obtain ⟨hproceed, hrefines⟩ := proceed_refines h c raw
    refine ⟨?_, hrefines⟩
    rw [EpollOp.toOp, World.act, hproceed, act]
    rcases s.proceed user c raw with ⟨_ | _, t⟩ <;> rfl

theorem next_refines (h : Refines s) {call : ClientId × EpollOp} {s' : Polls proto}
    (hstep : s.next pton user call = some s') :
    s.world.nextOf pton user (call.1, call.2.toOp) = some s'.world ∧ Refines s' := by
  cases hstep
  obtain ⟨hact, hrefines⟩ := act_refines h call.1 call.2
  exact ⟨congrArg some (congrArg Prod.snd hact), hrefines⟩

theorem agrees_of_refines (h : Refines s) (call : ClientId × EpollOp) :
    s.Agrees pton user call :=
  (congrArg Prod.fst (act_refines h call.1 call.2).1).symm

theorem refines_initial (af : ClientId → Int) (unhandled : ClientId → Option Callback) :
    Refines (initial af unhandled : Polls proto) :=
  ⟨rfl, fun _ _ hfd => by cases hfd⟩

theorem run_refines (h : Refines s) {calls : List (ClientId × EpollOp)} {s' : Polls proto}
    (hrun : exec (next pton user) s calls = some s') :
    exec (World.nextOf pton user) s.world (calls.map fun call => (call.1, call.2.toOp)) =
        some s'.world ∧ Refines s' := by
  induction calls generalizing s with
  | nil =>
    cases hrun
    exact ⟨rfl, h⟩
  | cons call calls ih =>
    obtain ⟨s1, hstep, hrest⟩ := Option.bind_eq_some_iff.mp hrun
    obtain ⟨habstract, hrefines⟩ := next_refines h hstep
    obtain ⟨hrun', hlast⟩ := ih hrefines hrest
    exact ⟨by rw [List.map_cons, exec_cons, habstract, Option.bind_some, hrun'], hlast⟩

/-! ### Handlers for what is reported -/

/-- A client whose own descriptor is the only one that its poll watches, with its handlers registered
while it has a socket. -/
structure Kept (c : ClientId) (w : World proto) : Prop where
  grounded : Grounded c w
  all : (w.clients c).state ≠ .idle none → AllRegistered c w
  registered : ∀ fd, (w.registered c fd).isSome → heldFd (w.clients c).state = some fd

theorem kept_start {c : ClientId} {w : World proto} (h : Kept c w) (op : StartOp)
    (empty : (w.clients c).state.isIdle = true → (w.clients c).state = .idle none) :
    Kept c (w.act pton user c op.toOp).2 := by
  rw [act_start]
  rcases hmade : w.made pton c op with ⟨_ | new, k⟩
  · exact ⟨grounded_kernel h.grounded (made_spec hmade).1, h.all, h.registered⟩
  · obtain ⟨hidle, fd, fresh⟩ := (made_spec hmade).2 new rfl
    have hstate := empty hidle
    have hnone (fd' : Fd) : w.registered c fd' = none := by
      refine Option.not_isSome_iff_eq_none.mp fun hsome => ?_
      have hheld := h.registered fd' hsome
      rw [hstate] at hheld
      cases hheld
    have hnew : ((((({ w with kernel := k } : World proto).registerCbs c).put c new
        op.added)).clients c).state = new := by
      simp [World.put]
    refine ⟨grounded_started h.grounded fresh op.added,
      fun _ => allRegistered_started h.grounded.handlers k new.getFd op.added new, ?_⟩
    intro fd' hfd'
    rw [hnew, fresh.held]
    by_contra hne
    have hne : fd' ≠ fd := fun heq => hne (by rw [heq])
    have hadded : (((({ w with kernel := k } : World proto).registerCbs c).addSocket c new.getFd
      .readWrite op.added).registered c fd').isSome := setState_registered_of hfd'
    cases hadd : op.added <;>
      simp [hadd, World.registerCbs, World.update, World.addSocket, getFd_of_held fresh.held, hne,
        hnone] at hadded

theorem kept_connect {c : ClientId} {w : World proto} (h : Kept c w) (args : ConnectArgs)
    (ans : Answer) (dead : ConnectArgs) : Kept c (w.connect pton c args ans dead).2 := by
  have hkeeps : Keeps c w (w.connect pton c args ans dead).2 :=
    (connect_keeps h.grounded args ans dead).keeps
  refine ⟨h.grounded.keeps hkeeps, fun hstate => ?_, fun fd hfd => ?_⟩
  · refine allRegistered_congr (h.all fun hidle => hstate ?_)
      (World.connect_handlers w c c args ans dead)
    rw [connect_idle pton hidle args ans dead]
    exact hidle
  · rw [hkeeps.held]
    exact h.registered fd (connect_registered_of w c args ans dead hfd)

theorem kept_stop {c : ClientId} {w : World proto} (h : Kept c w) : Kept c (w.stop c) := by
  have hstate : ((w.stop c).clients c).state = .idle none := by
    simp [World.stop, World.unregisterCbs]
  refine ⟨grounded_stop h.grounded, fun hnot => absurd hstate hnot, fun fd hfd => ?_⟩
  -- only the own descriptor was watched, and `stop` deletes it
  have hdel : ((w.delSocket c (w.getFd c)).registered c fd).isSome := setState_registered_of hfd
  have hown := h.registered fd (delSocket_registered_of hdel)
  rw [World.getFd, getFd_of_held hown] at hdel
  simp [World.delSocket] at hdel

theorem kept_proceed {c : ClientId} {w : World proto} (h : Kept c w) (events : List Event) :
    Kept c (w.proceed user c events).2 := by
  have calm := World.Calm.proceed user c w events
  refine ⟨grounded_proceed user h.grounded events, ?_, ?_⟩
  · rw [calm.state]
    exact fun hstate => allRegistered_congr (h.all hstate) (calm.handlers c)
  · rw [calm.state]
    exact fun fd hfd => h.registered fd (proceed_registered_of w events hfd)

theorem kept_next {c : ClientId} (h : Refines s ∧ Kept c s.world) {op : EpollOp}
    (empty : s.StartsEmpty c op) {s' : Polls proto} (hstep : s.nextOne pton user c op = some s') :
    Refines s' ∧ Kept c s'.world := by
  obtain ⟨hworld, hrefines⟩ := next_refines h.1 hstep
  refine ⟨hrefines, ?_⟩
  have hworld : (s.world.act pton user c op.toOp).2 = s'.world := Option.some.inj hworld
  rw [← hworld]
  cases op with
  | start ans room => exact kept_start h.2 (.plain ans room.isOk) empty
  | startLocal address port ans bound room =>
    exact kept_start h.2 (.atLocal address port ans bound room.isOk) empty
  | connect args ans dead => exact kept_connect h.2 args ans dead
  | stop => exact kept_stop h.2
  | proceed raw =>
    rw [EpollOp.toOp, World.act_proceed]
    exact kept_proceed h.2 _

/-- An event with one of the flags has its type. -/
theorem toEvent_has {r : RawEvent} {flag : EpollFlags} {tp : EventType}
    (h : (flag, tp) ∈ flagOrder) (has : r.flags &&& flag ≠ 0) : r.toEvent.has tp = true := by
  rw [Event.has, RawEvent.toEvent, eventTypeFromFlags_mask r.flags h, if_pos has]
  simp only [flagOrder, List.mem_cons, Prod.mk.injEq, List.not_mem_nil, or_false] at h
  rcases h with ⟨-, rfl⟩ | ⟨-, rfl⟩ | ⟨-, rfl⟩ | ⟨-, rfl⟩ | ⟨-, rfl⟩ | ⟨-, rfl⟩ <;> decide

/-- What epoll reports finds a handler. -/
theorem found_of_kept {c : ClientId} (h : Refines s ∧ Kept c s.world) {maxEvents : Nat}
    {raw : List RawEvent} (reports : (s.lists c).Reports maxEvents raw) :
    ∀ event ∈ EpollT.proceed raw, handlersOf (s.world.clients c).handlers event ≠ [] := by
  intro event hmem
  obtain ⟨r, hr, rfl⟩ := List.mem_map.mp hmem
  obtain ⟨event, hevent, hsome, hwithin⟩ := reports.watched r hr
  rw [h.1.lists] at hevent
  obtain ⟨op, hop, rfl⟩ := Option.map_eq_some_iff.mp hevent
  have hheld := h.2.registered r.fd (by rw [hop]; rfl)
  have hall := h.2.all fun hidle => by rw [hidle] at hheld; cases hheld
  rw [handlersOf_cbs hall]
  have hend (flag : EpollFlags) (tp : EventType) (hflag : (flag, tp) ∈ flagOrder)
      (hends : tp ∈ EventType.terminations) (has : r.flags &&& flag ≠ 0) :
      (EventType.terminations.filter r.toEvent.has).map (fun _ => ClientHandler.erase) ≠ [] := by
    rw [Ne, List.map_eq_nil_iff]
    exact List.ne_nil_of_mem (List.mem_filter.mpr ⟨hends, toEvent_has hflag has⟩)
  rcases InterestList.reported_typed hsome hwithin with hin | hout | hpri | hhup | herr | hrdHup
  · rw [if_pos (toEvent_has (by simp [flagOrder]) hin)]
    simp
  · rw [if_pos (@toEvent_has r _ .writeReady (by simp [flagOrder]) hout)]
    simp
  all_goals refine List.append_ne_nil_of_right_ne_nil _ (List.append_ne_nil_of_right_ne_nil _ ?_)
  · exact hend _ .exception (by simp [flagOrder]) (by decide) hpri
  · exact hend _ .hangup (by simp [flagOrder]) (by decide) hhup
  · exact hend _ .error (by simp [flagOrder]) (by decide) herr
  · exact hend _ .peerClosed (by simp [flagOrder]) (by decide) hrdHup

theorem finds_of_kept {c : ClientId} (h : Refines s ∧ Kept c s.world) (maxEvents : Nat)
    (op : EpollOp) : s.Finds user maxEvents c op := by
  cases op with
  | proceed raw =>
    intro reports table events
    have found := found_of_kept h reports
    refine ⟨found, ?_⟩
    rw [reportedUnhandled_missed, missed_found (registered_over h.2.grounded.handlers) found]
  | _ => trivial

end Polls

end

/-- Clients over epoll do what they do over a poll that adds a descriptor unless the kernel has no
room for it: no `start` adds a descriptor that is on the list or closed, every call returns the same,
and the lists are at any time those of that poll. -/
theorem Polls.refines_run (af : ClientId → Int) (unhandled : ClientId → Option Callback)
    (calls : List (ClientId × EpollOp)) :
    Along (Polls.next pton user) (Polls.Agrees pton user) (.initial af unhandled : Polls proto)
        calls ∧
      ∃ s : Polls proto, exec (Polls.next pton user) (.initial af unhandled) calls = some s ∧
        exec (World.nextOf pton user) (.initial af unhandled)
            (calls.map fun call => (call.1, call.2.toOp)) = some s.world ∧
        ∀ c fd, s.lists c fd = (s.world.registered c fd).map fun op => ⟨fd, flagsFromOp op⟩ := by
  have initial : Polls.Refines (.initial af unhandled : Polls proto) :=
    Polls.refines_initial af unhandled
  have total : ∃ s : Polls proto,
      exec (Polls.next pton user) (.initial af unhandled) calls = some s := by
    generalize Polls.initial af unhandled = s
    induction calls generalizing s with
    | nil => exact ⟨s, rfl⟩
    | cons call calls ih => exact ih _
  obtain ⟨s, hrun⟩ := total
  obtain ⟨hworld, hrefines⟩ := Polls.run_refines initial hrun
  exact ⟨Along.of_inv (fun _ _ _ h hstep => (Polls.next_refines h hstep).2)
    (fun _ call h => Polls.agrees_of_refines h call) initial calls, s, hrun, hworld,
    fun c fd => congrFun (congrFun hrefines.lists c) fd⟩

/-- While every `start` finds a client without a socket, whatever epoll reports finds a handler, and
is left to `m_unhandled` exactly when that handler throws. -/
theorem Polls.finds_run (maxEvents : Nat) (c : ClientId) (af : ClientId → Int)
    (unhandled : ClientId → Option Callback) (ops : List EpollOp)
    (empty : Along (Polls.nextOne pton user c) (Polls.StartsEmpty c)
      (.initial af unhandled : Polls proto) ops) :
    Along (Polls.nextOne pton user c) (Polls.Finds user maxEvents c)
      (.initial af unhandled : Polls proto) ops := by
  have kept : Polls.Kept c (World.initial af unhandled : World proto) :=
    ⟨grounded_initial af unhandled, fun hnot => absurd rfl hnot, fun _ hfd => by cases hfd⟩
  exact Along.of_along (fun _ _ _ h hempty hstep => Polls.kept_next h hempty hstep)
    (fun _ op h _ => Polls.finds_of_kept h maxEvents op)
    ⟨Polls.refines_initial af unhandled, kept⟩ empty

/-- A client is started, reported writable and closed by its peer, and stopped. -/
def reportedRun : List EpollOp :=
  [.start (.ok 3) (.ok ()), .proceed [⟨3, EpollFlags.epollOut⟩],
    .proceed [⟨3, EpollFlags.epollIn ||| EpollFlags.epollRdHup⟩], .stop]

theorem finds_run_reported :
    Along (Polls.nextOne loopbackPton (fun _ => .ok ()) 0) (Polls.Finds (fun _ => .ok ()) 10 0)
      (.initial (fun _ => 2) fun _ => none : Polls tcp) reportedRun := by
  refine Polls.finds_run loopbackPton (fun _ => .ok ()) 10 0 (fun _ => 2) (fun _ => none)
    reportedRun ?_
  exact ⟨fun _ => rfl, fun _ _ => ⟨trivial, fun _ _ => ⟨trivial, fun _ _ => ⟨trivial,
    fun _ _ => trivial⟩⟩⟩⟩

end TypedSockets.Endpoint
