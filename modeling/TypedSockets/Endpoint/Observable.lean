import TypedSockets.Endpoint.Isolation
import TypedSockets.Endpoint.Peer
import TypedSockets.Socket.Leak

/-! When the poll observes a live client: its registration from `start` to a termination event. -/

namespace TypedSockets.Endpoint

open TypedSockets.Socket TypedSockets.Epoll TypedSockets.Lib

variable {proto : Proto} (pton : InetPton) (user : UserCode) (c : ClientId)

/-- A client with what its user has seen.  `owed` holds from a `start` or a `connect` that returned
true until `stop` or a termination event, and `hungUp` from a call of the handler for terminations
with the descriptor of the client to the next `start` that returns true. -/
structure Watch (proto : Proto) where
  world : World proto
  owed : Bool
  hungUp : Bool

/-- The batch has a termination event for the descriptor of the client. -/
def terminated (w : World proto) (events : List Event) : Bool :=
  events.any fun event => event.fd = w.getFd c && event.terminates

/-- The call is one of the handler for terminations, with the descriptor. -/
def Call.erases (fd : Fd) : Call ClientHandler → Bool
  | .handler func fd' => func = .erase && fd' = fd
  | .unhandled _ => false

/-- The handler for terminations is called with the descriptor of the client: no handler of the same
event throws before it. -/
def hangsUp (w : World proto) (events : List Event) : Bool :=
  (calls (World.invoke user c) (w.clients c).handlers
    ((w.clients c).unhandled.map fun func events w => w.call user (.unhandled c func events))
    events w).any (Call.erases (w.getFd c))

namespace Watch

def initial (af : ClientId → Int) (unhandled : ClientId → Option Callback) : Watch proto :=
  ⟨.initial af unhandled, false, false⟩

def next (s : Watch proto) (op : ClientOp) : Option (Watch proto) :=
  let (b, w) := s.world.act pton user c op
  some (match op with
    | .start _ _ | .startLocal _ _ _ _ _ => if b then ⟨w, true, false⟩ else { s with world := w }
    | .connect _ _ _ => if b then ⟨w, true, s.hungUp⟩ else { s with world := w }
    | .stop => ⟨w, false, s.hungUp⟩
    | .proceed events =>
      ⟨w, s.owed && !terminated c s.world events, s.hungUp || hangsUp user c s.world events⟩)

/-- While it is owed, the descriptor of the client is registered for both directions. -/
def Observable (s : Watch proto) : Prop :=
  s.owed = true → s.world.registered c (s.world.getFd c) = some .readWrite

/-- The call of `connect` would succeed: on an active socket with a valid address, or on an
unconnected one with a valid address and a `::connect` that succeeds or is under way. -/
def CanConnect (w : World proto) (args : ConnectArgs) (ans : Answer) (dead : ConnectArgs) : Prop :=
  match (w.clients c).state with
  | .active _ => (fromStringAndPort pton args.remoteAddress args.remotePort).isSome
  | _ => proto.isConnectionless = false ∧
      ∃ impl addr, Connected pton (w.clients c) (frameOf w args dead) ans w.kernel impl addr

/-- The call of `start` would succeed: the client is idle, and its socket is created and bound. -/
def CanStart (w : World proto) : ClientOp → Prop
  | .start ans _ => (w.clients c).state.isIdle = true ∧
    (SocketT.create proto (w.clients c).af ans w.kernel).1.isSome
  | .startLocal address port ans bound _ => (w.clients c).state.isIdle = true ∧
    ∃ local_, fromStringAndPort pton address port = some local_ ∧
      (World.createBound proto (w.clients c).af local_ ans bound w.kernel).1.isSome
  | _ => False

/-- The poll takes the socket of every `start` that succeeds, and no `connect` succeeds after the
handler for terminations was called. -/
def Attended (s : Watch proto) (op : ClientOp) : Prop :=
  match op with
  | .start _ added => CanStart pton c s.world op → added = true
  | .startLocal _ _ _ _ added => CanStart pton c s.world op → added = true
  | .connect args ans dead => CanConnect pton c s.world args ans dead → s.hungUp = false
  | _ => True

end Watch

/-- The descriptor of the socket in the state. -/
def heldFd : ClientState proto → Option Fd
  | .idle sock => sock.bind fun sock => sock.impl.fd
  | .binded _ sock => sock.impl.fd
  | .active sock => sock.impl.fd

theorem getFd_of_held {state : ClientState proto} {fd : Fd} (h : heldFd state = some fd) :
    state.getFd = fd := by
  rcases state with (_ | sock) | ⟨_, sock⟩ | sock
  · cases h
  all_goals
    have hfd : sock.impl.fd = some fd := h
    simp [ClientState.getFd, SocketImpl.handle, hfd]

/-- The handlers in the table are those of `register_cbs`, each under its type. -/
def Registered (w : World proto) : Prop :=
  ∀ tp func, (w.clients c).handlers tp = some func → (tp, func) ∈ World.cbs

/-- What holds of a client in every state. -/
structure Grounded (w : World proto) : Prop where
  statics : OwnStatics w c
  handlers : Registered c w
  opened : ∀ fd, heldFd (w.clients c).state = some fd → w.kernel.Open fd
  free : heldFd (w.clients c).state = none → (w.clients c).state = .idle none

/-- The invariant of a run of `Watch` whose steps are attended. -/
structure Watched (s : Watch proto) : Prop where
  grounded : Grounded c s.world
  onlyOpen : ∀ fd, (s.world.registered c fd).isSome → s.world.kernel.Open fd
  held : ∀ fd, heldFd (s.world.clients c).state = some fd →
    s.world.registered c fd = if s.hungUp then none else some .readWrite
  owed : s.owed = true → s.hungUp = false ∧ ∃ fd, heldFd (s.world.clients c).state = some fd

theorem Watched.observable {s : Watch proto} (h : Watched c s) : s.Observable c := by
  intro howed
  obtain ⟨hup, fd, hfd⟩ := h.owed howed
  rw [World.getFd, getFd_of_held hfd, h.held fd hfd, hup]
  rfl

/-! ### The calls of the user -/

section

variable {c} {w : World proto}

theorem registered_registerCbs (h : Registered c w) : Registered c (w.registerCbs c) := by
  intro tp func hfunc
  have hadd : World.cbs.foldl (fun t cb => (t.add cb.1 cb.2).2) (w.clients c).handlers tp =
      some func := by
    simpa [World.registerCbs] using hfunc
  rcases Handlers.addAll_mem World.cbs hadd with hold | hnew
  · exact h tp func hold
  · exact hnew

theorem registered_unregisterCbs (h : Registered c w) : Registered c (w.unregisterCbs c) := by
  intro tp func hfunc
  apply h tp func
  apply Handlers.removeAll_mem World.uncbs
  simpa [World.unregisterCbs] using hfunc

theorem registered_congr {w' : World proto} (h : Registered c w)
    (same : (w'.clients c).handlers = (w.clients c).handlers) : Registered c w' := by
  unfold Registered
  rw [same]
  exact h

theorem registered_setState (h : Registered c w) (new : ClientState proto) :
    Registered c (w.setState c new) :=
  registered_congr h (by simp)

theorem registered_started (h : Registered c w) (k : Kernel) (fd : Fd) (added : Bool)
    (new : ClientState proto) :
    Registered c (((({ w with kernel := k } : World proto).registerCbs c).addSocket c fd .readWrite
      added).setState c new) := by
  have hcbs : Registered c (({ w with kernel := k } : World proto).registerCbs c) :=
    registered_registerCbs h
  apply registered_setState
  cases added <;> exact hcbs

end

/-- The assignment of a state closes only what the old state held. -/
theorem open_assign {old new : ClientState proto} {k : Kernel} {fd : Fd} (h : k.Open fd)
    (other : heldFd old ≠ some fd) : (old.assign k new).Open fd := by
  unfold ClientState.assign
  split
  · exact h
  · exact h
  · exact h
  · rcases old with (_ | sock) | ⟨_, sock⟩ | sock
    · exact h
    all_goals exact (SocketImpl.open_destroy sock.impl k fd).mpr ⟨h, other⟩

/-- A call that opens a fresh descriptor for the new state, or none. -/
structure Fresh (k k' : Kernel) (state : ClientState proto) (fd : Fd) : Prop where
  held : heldFd state = some fd
  fresh : ¬k.Open fd
  opened : k'.Open fd

theorem create_fresh {af : Int} {ans : Except Errno Fd} {k k' : Kernel} {sock : SocketT}
    (h : SocketT.create proto af ans k = (some sock, k')) :
    ∃ fd, sock.impl.fd = some fd ∧ ¬k.Open fd ∧ ∀ fd', k'.Open fd' ↔ k.Open fd' ∨ fd' = fd := by
  obtain ⟨fd, himpl⟩ := SocketT.create_impl h
  have hfd : sock.impl.fd = some fd := by rw [himpl]
  have hopens := SocketT.create_opens proto af ans k
  rw [h] at hopens
  have hresult : (some sock).bind (fun s => s.impl.fd) = some fd := hfd
  rw [hresult] at hopens
  refine ⟨fd, hfd, hopens.fresh fd rfl, fun fd' => ?_⟩
  rw [hopens.opened fd']
  simp [eq_comm]

theorem create_open {af : Int} {ans : Except Errno Fd} {k k' : Kernel} {r : Option SocketT}
    (h : SocketT.create proto af ans k = (r, k')) {fd : Fd} (hfd : k.Open fd) : k'.Open fd := by
  have hopens := SocketT.create_opens proto af ans k
  rw [h] at hopens
  exact (hopens.opened fd).mpr (Or.inl hfd)

/-- The descriptor of a socket that is created and bound: it goes with the bound socket, or is
closed with what is left. -/
theorem bound_spec {α : Type} {k k' k'' : Kernel} {fd : Fd} {r : Option α} {left : SocketT}
    (implOf : α → SocketImpl) {make : α → ClientState proto}
    (hmake : ∀ a, heldFd (make a) = (implOf a).fd) (hr : ∀ a ∈ r, (implOf a).fd = some fd)
    (fresh : ¬k.Open fd) (opened : ∀ fd', k'.Open fd' ↔ k.Open fd' ∨ fd' = fd)
    (hpass : Passes k' k'' (some fd) (r.bind fun a => (implOf a).fd) left.impl.fd) :
    (∀ state ∈ r.map make, ∃ fd, Fresh k (left.impl.destroy k'') state fd) ∧
      ∀ fd', k.Open fd' → (left.impl.destroy k'').Open fd' := by
  have old : ∀ fd', k.Open fd' → fd' ≠ fd := by
    rintro fd' h rfl
    exact fresh h
  have after : ∀ fd', (left.impl.destroy k'').Open fd' ↔
      (k.Open fd' ∨ fd' = fd) ∧ left.impl.fd ≠ some fd' := by
    intro fd'
    rw [SocketImpl.open_destroy, hpass.opened, opened]
  constructor
  · intro state hstate
    obtain ⟨a, ha, rfl⟩ := Option.mem_map.mp hstate
    have hfd := hr a ha
    rcases hpass.goes with ⟨-, hleft⟩ | ⟨hnone, -⟩
    · exact ⟨fd, (hmake a).trans hfd, fresh, (after fd).mpr ⟨Or.inr rfl, by simp [hleft]⟩⟩
    · obtain rfl := Option.mem_def.mp ha
      rw [Option.bind_some, hfd] at hnone
      cases hnone
  · intro fd' h
    refine (after fd').mpr ⟨Or.inl h, ?_⟩
    rcases hpass.goes with ⟨-, hleft⟩ | ⟨-, hleft⟩ <;> rw [hleft]
    · simp
    · exact fun heq => old fd' h (Option.some.inj heq).symm

theorem createBound_spec {af : Int} {local_ : InAddressPort} {ans : Except Errno Fd}
    {bound : Answer} {k k' : Kernel} {r : Option (ClientState proto)}
    (h : World.createBound proto af local_ ans bound k = (r, k')) :
    (∀ state ∈ r, ∃ fd, Fresh k k' state fd) ∧ ∀ fd, k.Open fd → k'.Open fd := by
  unfold World.createBound at h
  split at h
  · rename_i sock k1 hcreate
    obtain ⟨fd, hfd, fresh, opened⟩ := create_fresh hcreate
    split at h
    · rename_i based
      cases h
      refine bound_spec BindedSocket.impl (fun _ => rfl) (fun b hb => ?_) fresh opened
        (hfd ▸ sock.bind_passes local_ bound k1)
      rw [SocketT.bind_impl hb, hfd]
    · cases h
      refine bound_spec ActiveSocket.impl (fun _ => rfl) (fun a ha => ?_) fresh opened
        (hfd ▸ sock.bindConnectionless_passes local_ bound k1)
      rw [SocketT.bindConnectionless_impl ha, hfd]
  · rename_i k1 hcreate
    cases h
    exact ⟨by simp, fun fd => create_open hcreate⟩

variable {c} {s : Watch proto}

section

variable {w : World proto}

/-- What the poll observes after a socket was made: of the descriptors that are open then, the new one
when it took it, and those of before. -/
theorem started_registered (w : World proto) (k : Kernel) (new : ClientState proto) (added : Bool)
    (fd : Fd) :
    (((({ w with kernel := k } : World proto).registerCbs c).addSocket c new.getFd .readWrite
        added).setState c new).registered c fd =
      if ((w.clients c).state.assign k new).Open fd then
        if added ∧ fd = new.getFd then some .readWrite else w.registered c fd
      else none := by
  cases added <;>
    simp [World.setState, World.registerCbs, World.update, World.addSocket, Function.update_apply]

theorem started_kernel (w : World proto) (k : Kernel) (new : ClientState proto) (added : Bool) :
    (((({ w with kernel := k } : World proto).registerCbs c).addSocket c new.getFd .readWrite
      added).setState c new).kernel = (w.clients c).state.assign k new := by
  cases added <;> simp [World.registerCbs, World.addSocket]

/-- A socket that `start` made, whether the poll took it or not. -/
theorem grounded_started (h : Grounded c w) {k : Kernel} {new : ClientState proto} {fd : Fd}
    (fresh : Fresh w.kernel k new fd) (added : Bool) :
    Grounded c (((({ w with kernel := k } : World proto).registerCbs c).addSocket c new.getFd
      .readWrite added).setState c new) := by
  have other : heldFd (w.clients c).state ≠ some fd := fun hfd => fresh.fresh (h.opened fd hfd)
  have hopen : ((w.clients c).state.assign k new).Open fd := open_assign fresh.opened other
  have hnew : ((((({ w with kernel := k } : World proto).registerCbs c).addSocket c new.getFd
      .readWrite added).setState c new).clients c).state = new := by simp
  have hkernel := started_kernel (c := c) w k new added
  refine ⟨?_, registered_started h.handlers k new.getFd added new, ?_, ?_⟩
  · cases added <;> exact h.statics
  · rw [hnew, fresh.held, hkernel]
    rintro _ ⟨⟩
    exact hopen
  · rw [hnew, fresh.held]
    intro hnone
    cases hnone

/-- A system call that closes nothing. -/
theorem grounded_kernel (h : Grounded c w) {k : Kernel}
    (hopen : ∀ fd, w.kernel.Open fd → k.Open fd) :
    Grounded c { w with kernel := k } :=
  ⟨h.statics, h.handlers, fun fd hfd => hopen fd (h.opened fd hfd), h.free⟩

theorem grounded_stop (h : Grounded c w) : Grounded c (w.stop c) := by
  have hstate : ((w.stop c).clients c).state = .idle none := by
    simp [World.stop, World.unregisterCbs]
  refine ⟨h.statics, registered_unregisterCbs (registered_setState h.handlers (.idle none)), ?_,
    fun _ => hstate⟩
  rw [hstate]
  intro fd hfd
  cases hfd

theorem grounded_proceed (h : Grounded c w) (events : List Event) :
    Grounded c (w.proceed user c events).2 := by
  have calm := World.Calm.proceed user c w events
  refine ⟨?_, registered_congr h.handlers (calm.handlers c), ?_, ?_⟩
  · unfold OwnStatics
    rw [calm.statics]
    exact h.statics
  · rw [calm.state, calm.kernel]
    exact h.opened
  · rw [calm.state]
    exact h.free

theorem grounded_initial (af : ClientId → Int) (unhandled : ClientId → Option Callback) :
    Grounded c (World.initial af unhandled : World proto) := by
  refine ⟨Or.inl rfl, ?_, ?_, ?_⟩ <;> simp [Registered, World.initial, heldFd, Handlers.empty]

end

/-- A socket that `start` made and that the poll took is watched. -/
theorem watched_started (h : Watched c s) {k : Kernel} {new : ClientState proto} {fd : Fd}
    (fresh : Fresh s.world.kernel k new fd) :
    Watched c ⟨((({ s.world with kernel := k } : World proto).registerCbs c).addSocket c new.getFd
      .readWrite true).setState c new, true, false⟩ := by
  have grounded := grounded_started h.grounded fresh true
  have hnew : ((((({ s.world with kernel := k } : World proto).registerCbs c).addSocket c new.getFd
      .readWrite true).setState c new).clients c).state = new := by simp
  have hkernel := started_kernel (c := c) s.world k new true
  have hfd := grounded.opened fd (by rw [hnew, fresh.held])
  rw [hkernel] at hfd
  refine ⟨grounded, ?_, ?_, fun _ => ⟨rfl, fd, by rw [hnew, fresh.held]⟩⟩
  · intro fd' hsome
    simp only [started_registered] at hsome
    rw [hkernel]
    by_contra hclosed
    rw [if_neg hclosed] at hsome
    cases hsome
  · simp only [hnew, fresh.held]
    rintro _ ⟨⟩
    rw [started_registered, if_pos hfd, getFd_of_held fresh.held]
    simp

/-- It is observed exactly when the poll took it. -/
theorem started_observable_iff (h : Watched c s) {k : Kernel} {new : ClientState proto} {fd : Fd}
    (fresh : Fresh s.world.kernel k new fd) (added : Bool) :
    Watch.Observable c ⟨((({ s.world with kernel := k } : World proto).registerCbs c).addSocket c
      new.getFd .readWrite added).setState c new, true, false⟩ ↔ added = true := by
  cases added with
  | true => exact iff_of_true (watched_started h fresh).observable rfl
  | false =>
    refine iff_of_false (fun hobservable => ?_) Bool.false_ne_true
    have hnone : s.world.registered c new.getFd = none := by
      rw [getFd_of_held fresh.held]
      exact Option.not_isSome_iff_eq_none.mp fun hsome => fresh.fresh (h.onlyOpen fd hsome)
    have hreg := hobservable rfl
    have hfd : (((({ s.world with kernel := k } : World proto).registerCbs c).addSocket c new.getFd
        .readWrite false).setState c new).getFd c = new.getFd := by
      simp [World.getFd]
    simp only [hfd, started_registered, hnone] at hreg
    simp at hreg

/-- A system call that closes nothing keeps a client watched. -/
theorem watched_kernel (h : Watched c s) {k : Kernel}
    (hopen : ∀ fd, s.world.kernel.Open fd → k.Open fd) :
    Watched c { s with world := { s.world with kernel := k } } :=
  ⟨grounded_kernel h.grounded hopen, fun fd hfd => hopen fd (h.onlyOpen fd hfd), h.held, h.owed⟩

theorem watched_stop (h : Watched c s) :
    Watched c ⟨s.world.stop c, false, s.hungUp⟩ := by
  refine ⟨grounded_stop h.grounded, ?_, ?_, fun howed => by cases howed⟩
  · intro fd hfd
    simp only [World.stop, World.unregisterCbs, World.setState, World.update_kernel] at hfd ⊢
    by_contra hclosed
    rw [World.update] at hfd
    simp [hclosed] at hfd
  · intro fd hfd
    simp [World.stop, World.unregisterCbs, heldFd] at hfd

theorem setState_registered_of {w : World proto} {i j : ClientId} {new : ClientState proto}
    {fd : Fd} (h : ((w.setState i new).registered j fd).isSome) : (w.registered j fd).isSome := by
  simp only [World.setState] at h
  split_ifs at h
  · exact h
  · cases h

variable {pton} in
/-- `connect` registers nothing. -/
theorem connect_registered_of (w : World proto) (i : ClientId) (args : ConnectArgs) (ans : Answer)
    (dead : ConnectArgs) {fd : Fd}
    (h : ((w.connect pton c args ans dead).2.registered i fd).isSome) :
    (w.registered i fd).isSome := by
  have lambda (w : World proto) (this : ClientId) (frame : ConnectArgs)
      (h : ((w.connectLambda pton this c frame ans).2.registered i fd).isSome) :
      (w.registered i fd).isSome := by
    unfold World.connectLambda at h
    split at h
    · simp only at h
      split at h
      · have hold := setState_registered_of h
        exact hold
      · exact h
    · exact h
  simp only [World.connect] at h
  split at h
  · split at h <;> exact h
  · exact h
  · split_ifs at h
    · exact h
    · exact lambda { w with statics := some (w.statics.getD c) } _ _ h
    · exact lambda { w with statics := some (w.statics.getD c) } _ _ h
  · exact lambda { w with statics := some (w.statics.getD c) } _ _ h

/-- `connect` takes no descriptor from a poll, unless it closes it. -/
theorem connect_registered (w : World proto) (args : ConnectArgs) (ans : Answer)
    (dead : ConnectArgs) (i : ClientId) {fd : Fd}
    (h : (w.connect pton c args ans dead).2.kernel.Open fd) :
    (w.connect pton c args ans dead).2.registered i fd = w.registered i fd := by
  have lambda (w : World proto) (this : ClientId) (frame : ConnectArgs)
      (h : (w.connectLambda pton this c frame ans).2.kernel.Open fd) :
      (w.connectLambda pton this c frame ans).2.registered i fd = w.registered i fd := by
    unfold World.connectLambda at h ⊢
    split
    · rename_i parsed
      rw [parsed] at h
      simp only at h ⊢
      split
      · rename_i sock hsock
        simp only [hsock] at h
        exact if_pos h
      · rfl
    · rfl
  simp only [World.connect] at h ⊢
  split
  · split <;> rfl
  · rfl
  · rename_i hst
    simp only [hst] at h
    split
    · rfl
    · rename_i hproto
      rw [if_neg hproto] at h
      exact lambda _ _ _ h
  · rename_i hst
    simp only [hst] at h
    exact lambda _ _ _ h

theorem connectOwn_open {cl : Client proto} (based : proto.isConnectionless = false)
    (active : ∀ sock, cl.state ≠ .active sock) (args : ConnectArgs) (ans : Answer) (k : Kernel)
    (fd : Fd) : (connectOwn pton cl args ans k).2.2.Open fd ↔ k.Open fd := by
  cases parsed : fromStringAndPort pton args.remoteAddress args.remotePort with
  | none => simp [connectOwn, parsed]
  | some addr =>
    rw [connectOwn_inactive active (by simp [based]) parsed]
    rcases connectSock_cases cl.state addr ans k with
      ⟨impl, sock, left, -, -, -, -, hsock⟩ | ⟨impl, -, -, hsock⟩ | ⟨-, hsock⟩ <;> rw [hsock]
    · exact impl.open_connect addr ans k fd
    · exact impl.open_connect addr ans k fd

/-- The client keeps its descriptor, its handlers and its registration. -/
structure Keeps (c : ClientId) (w w' : World proto) : Prop where
  statics : OwnStatics w' c
  handlers : (w'.clients c).handlers = (w.clients c).handlers
  held : heldFd (w'.clients c).state = heldFd (w.clients c).state
  free : heldFd (w'.clients c).state = none → (w'.clients c).state = .idle none
  opened : ∀ fd, w'.kernel.Open fd ↔ w.kernel.Open fd
  registered : ∀ fd, w'.kernel.Open fd → w'.registered c fd = w.registered c fd
  listed : ∀ fd, (w'.registered c fd).isSome → (w.registered c fd).isSome

theorem Grounded.keeps {w w' : World proto} (h : Grounded c w) (hk : Keeps c w w') :
    Grounded c w' := by
  refine ⟨hk.statics, registered_congr h.handlers hk.handlers, fun fd hfd => ?_, hk.free⟩
  exact (hk.opened fd).mpr (h.opened fd (hk.held ▸ hfd))

theorem Watched.keeps (h : Watched c s) {w : World proto} (hk : Keeps c s.world w) :
    Watched c { s with world := w } := by
  have grounded := h.grounded.keeps hk
  refine ⟨grounded, fun fd hfd => ?_, fun fd hfd => ?_, fun howed => ?_⟩
  · exact (hk.opened fd).mpr (h.onlyOpen fd (hk.listed fd hfd))
  · exact (hk.registered fd (grounded.opened fd hfd)).trans (h.held fd (hk.held ▸ hfd))
  · obtain ⟨hup, fd, hfd⟩ := h.owed howed
    exact ⟨hup, fd, hk.held.trans hfd⟩

variable {pton}

theorem heldFd_of_unconnected {state : ClientState proto} {impl : SocketImpl}
    (h : unconnected state = some impl) : heldFd state = impl.fd := by
  rcases state with (_ | sock) | ⟨_, sock⟩ | sock <;> cases h <;> rfl

/-- On an unconnected socket. -/
theorem canConnect_inactive_iff {w : World proto} (based : proto.isConnectionless = false)
    (active : ∀ sock, (w.clients c).state ≠ .active sock) {args : ConnectArgs} {ans : Answer}
    {dead : ConnectArgs} :
    Watch.CanConnect pton c w args ans dead ↔
      ∃ impl addr, Connected pton (w.clients c) (frameOf w args dead) ans w.kernel impl addr := by
  unfold Watch.CanConnect
  split
  · rename_i sock hst
    exact absurd hst (active sock)
  · exact and_iff_right based

/-- What `connect` keeps, and when it returns true. -/
structure ConnectKeeps (pton : InetPton) (c : ClientId) (w : World proto) (args : ConnectArgs)
    (ans : Answer) (dead : ConnectArgs) : Prop where
  keeps : Keeps c w (w.connect pton c args ans dead).2
  succeeds : (w.connect pton c args ans dead).1 = true ↔ Watch.CanConnect pton c w args ans dead
  holds : (w.connect pton c args ans dead).1 = true →
    ∃ fd, heldFd ((w.connect pton c args ans dead).2.clients c).state = some fd

section

variable {w : World proto}

theorem connect_keeps_inactive (h : Grounded c w) (based : proto.isConnectionless = false)
    (active : ∀ sock, (w.clients c).state ≠ .active sock) (args : ConnectArgs)
    (ans : Answer) (dead : ConnectArgs) : ConnectKeeps pton c w args ans dead := by
  have statics : OwnStatics (w.connect pton c args ans dead).2 c :=
    connect_ownStatics h.statics args ans dead
  have registered (fd) (hopen : (w.connect pton c args ans dead).2.kernel.Open fd) :=
    connect_registered pton w args ans dead c hopen
  have listed (fd) (hfd : ((w.connect pton c args ans dead).2.registered c fd).isSome) :=
    connect_registered_of w c args ans dead hfd
  obtain ⟨hb, hcl, hk⟩ := connect_inactive pton based h.statics active args ans dead
  rcases connectOwn_spec pton based active (frameOf w args dead) ans w.kernel with
    ⟨impl, addr, sock, hconn, himpl, heq⟩ | ⟨hnot, hfalse, hsame⟩
  · have hheld := heldFd_of_unconnected hconn.held
    obtain ⟨fd, hfd, -, -⟩ := hconn.answers
    rw [heq] at hb hcl hk
    have hnew : heldFd ((w.connect pton c args ans dead).2.clients c).state = impl.fd := by
      rw [hcl, ← himpl]
      rfl
    refine ⟨⟨statics, by rw [hcl]; rfl, hnew.trans hheld.symm, fun hnone => ?_, fun fd => ?_,
      registered, listed⟩, iff_of_true hb ?_, fun _ => ⟨fd, hnew.trans hfd⟩⟩
    · rw [hnew, hfd] at hnone
      cases hnone
    · rw [hk]
      exact impl.open_connect addr ans w.kernel fd
    · exact (canConnect_inactive_iff based active).mpr ⟨impl, addr, hconn⟩
  · rw [hfalse] at hb
    rw [hsame] at hcl
    refine ⟨⟨statics, by rw [hcl], by rw [hcl], by rw [hcl]; exact h.free, fun fd => ?_,
      registered, listed⟩, iff_of_false (by rw [hb]; decide) ?_, fun htrue => ?_⟩
    · rw [hk]
      exact connectOwn_open pton based active _ ans w.kernel fd
    · rw [canConnect_inactive_iff based active]
      rintro ⟨impl, addr, hconn⟩
      exact hnot impl addr hconn
    · rw [hb] at htrue
      cases htrue

theorem connect_keeps (h : Grounded c w) (args : ConnectArgs) (ans : Answer)
    (dead : ConnectArgs) : ConnectKeeps pton c w args ans dead := by
  have statics : OwnStatics (w.connect pton c args ans dead).2 c :=
    connect_ownStatics h.statics args ans dead
  cases hst : (w.clients c).state with
  | active sock =>
    have holds : ∃ fd, heldFd (w.clients c).state = some fd := by
      rw [← Option.isSome_iff_exists, Option.isSome_iff_ne_none]
      intro hnone
      have hidle := h.free hnone
      rw [hst] at hidle
      cases hidle
    have hcan : Watch.CanConnect pton c w args ans dead ↔
        (fromStringAndPort pton args.remoteAddress args.remotePort).isSome := by
      unfold Watch.CanConnect
      rw [hst]
    cases parsed : fromStringAndPort pton args.remoteAddress args.remotePort with
    | none =>
      have hout : w.connect pton c args ans dead = (false, { w with statics := some c }) := by
        simp [World.connect, hst, h.statics.getD, parsed]
      rw [parsed] at hcan
      rw [hout] at statics
      refine ⟨?_, ?_, ?_⟩ <;> rw [hout]
      · exact ⟨statics, rfl, rfl, h.free, fun _ => Iff.rfl, fun _ _ => rfl, fun _ hfd => hfd⟩
      · simp [hcan]
      · simp
    | some addr =>
      have hout : w.connect pton c args ans dead = (true,
          ({ w with statics := some c } : World proto).setFields c addr (frameOf w args dead)) := by
        simp [World.connect, hst, h.statics.getD, parsed, frameOf]
      rw [parsed] at hcan
      rw [hout] at statics
      refine ⟨?_, ?_, ?_⟩ <;> rw [hout]
      · refine ⟨statics, ?_, ?_, ?_, fun _ => Iff.rfl, fun _ _ => rfl, fun _ hfd => hfd⟩
        · simp
        · simp
        · simpa using h.free
      · simp [hcan]
      · simpa using holds
  | binded based sock => exact connect_keeps_inactive h based (by simp [hst]) args ans dead
  | idle sock =>
    by_cases hproto : proto.isConnectionless = true
    · have hout : w.connect pton c args ans dead = (false, { w with statics := some c }) := by
        cases sock <;> simp [World.connect, hst, hproto, h.statics.getD]
      have hcan : ¬Watch.CanConnect pton c w args ans dead := by
        unfold Watch.CanConnect
        rw [hst, hproto]
        simp
      rw [hout] at statics
      refine ⟨?_, ?_, ?_⟩ <;> rw [hout]
      · exact ⟨statics, rfl, rfl, h.free, fun _ => Iff.rfl, fun _ _ => rfl, fun _ hfd => hfd⟩
      · simp [hcan]
      · simp
    · exact connect_keeps_inactive h (by simpa using hproto) (by simp [hst]) args ans dead

end

/-! ### The batches of the poll -/

theorem callOnce_registered (w : World proto) (i : ClientId) (inv : Invocation)
    (clear : Client proto → Client proto) :
    (w.callOnce user i inv clear).2.registered = w.registered := by
  rcases World.callOnce_cases user w i inv clear with h | h <;> rw [h] <;> rfl

/-- Only the handler of a termination touches the registration, and only for the own descriptor. -/
theorem invoke_registered {w : World proto} {func : ClientHandler} {fd : Fd}
    (h : func = .erase → fd ≠ w.getFd c) :
    (w.invoke user c func fd).2.registered = w.registered := by
  unfold World.invoke
  split_ifs with hfd
  · cases func with
    | erase => exact absurd hfd (h rfl)
    | readReady =>
      simp only
      split
      · rfl
      · rfl
    | writeReady =>
      simp only
      split
      · exact callOnce_registered user w c _ _
      · rfl
  · rfl

variable {user} in
theorem invoke_registered_eq (w : World proto) (c : ClientId) (func : ClientHandler) (fd : Fd) :
    (w.invoke user c func fd).2.registered =
      if func = .erase ∧ fd = w.getFd c then (w.delSocket c fd).registered else w.registered := by
  by_cases herase : func = .erase
  · subst herase
    unfold World.invoke
    split_ifs with hfd hboth hboth
    · simp only
      split
      · rw [callOnce_registered]
      · rfl
    · exact absurd ⟨rfl, hfd⟩ hboth
    · exact absurd hboth.2 hfd
    · rfl
  · rw [invoke_registered user fun heq => absurd heq herase, if_neg fun hboth => herase hboth.1]

theorem delSocket_registered_of {w : World proto} {i j : ClientId} {fd fd' : Fd}
    (h : ((w.delSocket i fd).registered j fd').isSome) : (w.registered j fd').isSome := by
  by_cases hj : j = i
  · subst hj
    by_cases hfd : fd' = fd
    · simp [World.delSocket, hfd] at h
    · simpa [World.delSocket, hfd] using h
  · simpa [World.delSocket, hj] using h

variable {user} in
theorem invoke_registered_of (func : ClientHandler) (fd : Fd) (w : World proto) {i : ClientId}
    {fd' : Fd} (h : ((w.invoke user c func fd).2.registered i fd').isSome) :
    (w.registered i fd').isSome := by
  cases func with
  | erase =>
    unfold World.invoke at h
    split_ifs at h
    · simp only at h
      split at h
      · rw [callOnce_registered] at h
        exact delSocket_registered_of h
      · exact delSocket_registered_of h
    · exact h
  | readReady => rwa [invoke_registered user (by simp)] at h
  | writeReady => rwa [invoke_registered user (by simp)] at h

/-- A handler that `erase` is registered under is looked up for termination events only. -/
theorem erase_terminates {event : Event} {tp : EventType}
    (h : (event.type &&& tp, ClientHandler.erase) ∈ World.cbs) : event.terminates = true := by
  have hmem : event.type &&& tp ∈ EventType.terminations := by
    simp [World.cbs] at h
    simp only [EventType.terminations, List.mem_cons, List.not_mem_nil, or_false]
    tauto
  have hne : event.type &&& tp ≠ 0 := by
    intro hzero
    rw [hzero] at hmem
    exact absurd hmem (by decide)
  rw [Event.terminates, List.any_eq_true]
  refine ⟨event.type &&& tp, hmem, ?_⟩
  have habsorb : event.type &&& (event.type &&& tp) = event.type &&& tp := by
    rw [← BitVec.and_assoc, BitVec.and_self]
  simpa [Event.has, habsorb] using hne

/-- A batch takes the descriptor of the client from the poll exactly when the handler for terminations
is called with it, which takes a termination event. -/
theorem proceed_hangsUp {w : World proto} (h : Registered c w) (events : List Event) :
    (w.proceed user c events).2.registered =
        (if hangsUp user c w events then (w.delSocket c (w.getFd c)).registered
        else w.registered) ∧
      (hangsUp user c w events = true → terminated c w events = true) := by
  let unhandled : Option (List Event → World proto → Except Exn Unit × World proto) :=
    (w.clients c).unhandled.map fun func events w => w.call user (.unhandled c func events)
  -- the batch with the log of its calls
  let out := (Endpoint.proceed (loggedHandler (World.invoke user c)) (w.clients c).handlers
    (unhandled.map fun func => logged func .unhandled) events (w, [])).2
  have hout : (w.proceed user c events).2 = out.1 :=
    congrArg Prod.snd (proceed_map Prod.fst (fun _ _ _ => rfl)
      (handleUnhandled_logged unhandled) events (w, []))
  let Inv (s : World proto × List (Call ClientHandler)) : Prop :=
    World.Calm w s.1 ∧
    s.1.registered = (if s.2.any (Call.erases (w.getFd c)) then
      (w.delSocket c (w.getFd c)).registered else w.registered) ∧
    (s.2.any (Call.erases (w.getFd c)) = true → terminated c w events = true)
  have hall : Inv out := by
    refine proceed_induction Inv ?_ ?_ ⟨.refl _, rfl, nofun⟩
    · intro event hevent u hu
      refine handleEvent_induction Inv ?_ hu
      rintro tp func hfunc ⟨v, log⟩ ⟨hcalm, hreg, hterm⟩
      have hfd : v.getFd c = w.getFd c := hcalm.getFd c
      have hreg : v.registered = if log.any (Call.erases (w.getFd c)) then
        (w.delSocket c (w.getFd c)).registered else w.registered := hreg
      have hany : (log ++ [Call.handler func event.fd]).any (Call.erases (w.getFd c)) =
          (log.any (Call.erases (w.getFd c)) ||
            decide (func = .erase ∧ event.fd = w.getFd c)) := by
        simp [Call.erases]
      refine ⟨hcalm.trans (.invoke func event.fd v), ?_, fun herases => ?_⟩
      · change (v.invoke user c func event.fd).2.registered =
          if (log ++ [Call.handler func event.fd]).any (Call.erases (w.getFd c)) then _ else _
        rw [invoke_registered_eq, hfd, hany]
        by_cases hcall : func = .erase ∧ event.fd = w.getFd c
        · rw [if_pos hcall, if_pos (by simp [hcall]), hcall.2]
          simp only [World.delSocket, hreg]
          split_ifs <;> simp
        · rw [if_neg hcall, hreg]
          simp [hcall]
      · rcases (Bool.or_eq_true ..).mp (hany.symm.trans herases) with hold | hnew
        · exact hterm hold
        · obtain ⟨rfl, hown⟩ := of_decide_eq_true hnew
          have hends := erase_terminates (h _ _ hfunc)
          exact List.any_eq_true.mpr ⟨event, hevent, by simp [hown, hends]⟩
    · rintro func hfunc missed ⟨v, log⟩ ⟨hcalm, hreg, hterm⟩
      obtain ⟨f, hf, rfl⟩ := Option.mem_map.mp hfunc
      obtain ⟨g, -, rfl⟩ := Option.mem_map.mp hf
      have hany : (log ++ [Call.unhandled missed]).any (Call.erases (w.getFd c)) =
          log.any (Call.erases (w.getFd c)) := by
        simp [Call.erases]
      refine ⟨hcalm.trans (.call user v _), ?_, fun herases => hterm (hany.symm.trans herases)⟩
      change v.registered = if (log ++ [Call.unhandled missed]).any _ then _ else _
      rw [hany]
      exact hreg
  rw [hout]
  exact hall.2

theorem watched_proceed (h : Watched c s) (events : List Event) :
    Watched c ⟨(s.world.proceed user c events).2, s.owed && !terminated c s.world events,
      s.hungUp || hangsUp user c s.world events⟩ := by
  have calm := World.Calm.proceed user c s.world events
  obtain ⟨hreg, hterm⟩ := proceed_hangsUp user h.grounded.handlers events
  refine ⟨grounded_proceed user h.grounded events, ?_, ?_, ?_⟩
  · intro fd hfd
    rw [calm.kernel]
    simp only [hreg] at hfd
    split_ifs at hfd
    · exact h.onlyOpen fd (delSocket_registered_of hfd)
    · exact h.onlyOpen fd hfd
  · simp only [calm.state, hreg]
    intro fd hfd
    cases hup : hangsUp user c s.world events with
    | true => simp [World.delSocket, World.getFd, getFd_of_held hfd]
    | false => simpa using h.held fd hfd
  · intro howed
    obtain ⟨howed, hnot⟩ := (Bool.and_eq_true ..).mp howed
    obtain ⟨hup, hfd⟩ := h.owed howed
    refine ⟨?_, by simpa [calm.state] using hfd⟩
    cases hangs : hangsUp user c s.world events with
    | true =>
      rw [hterm hangs] at hnot
      cases hnot
    | false => simp [hup]

/-- What `start` does when it can and when it cannot succeed. -/
def StartOutcome (pton : InetPton) (c : ClientId) (w : World proto) (op : ClientOp) (added : Bool)
    (out : Bool × World proto) : Prop :=
  (¬Watch.CanStart pton c w op ∧ ∃ k, (∀ fd, w.kernel.Open fd → k.Open fd) ∧
      out = (false, { w with kernel := k })) ∨
    Watch.CanStart pton c w op ∧ ∃ new k fd, Fresh w.kernel k new fd ∧
      out = (true, ((({ w with kernel := k } : World proto).registerCbs c).addSocket c new.getFd
        .readWrite added).setState c new)

theorem start_outcome (w : World proto) (ans : Except Errno Fd) (added : Bool) :
    StartOutcome pton c w (.start ans added) added (w.start c ans added) := by
  unfold StartOutcome World.start Watch.CanStart
  by_cases hidle : (w.clients c).state.isIdle = true
  · rw [if_pos hidle]
    rcases hcreate : SocketT.create proto (w.clients c).af ans w.kernel with ⟨_ | sock, k⟩
    · refine Or.inl ⟨fun hcan => ?_, k, fun fd => create_open hcreate, rfl⟩
      have hsome := hcan.2
      rw [hcreate] at hsome
      cases hsome
    · obtain ⟨fd, hfd, fresh, opened⟩ := create_fresh hcreate
      exact Or.inr ⟨⟨hidle, by rw [hcreate]; rfl⟩, .idle (some sock), k, fd,
        ⟨hfd, fresh, (opened fd).mpr (Or.inr rfl)⟩, rfl⟩
  · rw [if_neg hidle]
    exact Or.inl ⟨fun h => hidle h.1, w.kernel, fun _ hfd => hfd, rfl⟩

theorem startLocal_outcome (w : World proto) (address : List UInt8) (port : UInt64)
    (ans : Except Errno Fd) (bound : Answer) (added : Bool) :
    StartOutcome pton c w (.startLocal address port ans bound added) added
      (w.startLocal pton c address port ans bound added) := by
  unfold StartOutcome World.startLocal Watch.CanStart
  by_cases hidle : (w.clients c).state.isIdle = true
  · rw [if_pos hidle]
    cases parsed : fromStringAndPort pton address port with
    | none =>
      refine Or.inl ⟨?_, w.kernel, fun _ hfd => hfd, rfl⟩
      rintro ⟨-, b, hb, -⟩
      rw [parsed] at hb
      cases hb
    | some a =>
      simp only
      rcases hbound : World.createBound proto (w.clients c).af a ans bound w.kernel with
        ⟨_ | state, k⟩
      · obtain ⟨-, hopen⟩ := createBound_spec hbound
        refine Or.inl ⟨?_, k, hopen, rfl⟩
        rintro ⟨-, b, hb, hsome⟩
        obtain rfl : a = b := Option.some.inj (parsed.symm.trans hb)
        rw [hbound] at hsome
        cases hsome
      · obtain ⟨hfresh, -⟩ := createBound_spec hbound
        obtain ⟨fd, fresh⟩ := hfresh state rfl
        exact Or.inr ⟨⟨hidle, a, parsed, by rw [hbound]; rfl⟩, state, k, fd, fresh, rfl⟩
  · rw [if_neg hidle]
    exact Or.inl ⟨fun h => hidle h.1, w.kernel, fun _ hfd => hfd, rfl⟩

/-- A client after a `start` is observed, and watched, exactly when its socket was taken. -/
theorem watched_start (h : Watched c s) {op : ClientOp} {added : Bool} {out : Bool × World proto}
    (keeps : StartOutcome pton c s.world op added out) :
    let s' : Watch proto := if out.1 then ⟨out.2, true, false⟩ else { s with world := out.2 }
    (s'.Observable c ↔ (Watch.CanStart pton c s.world op → added = true)) ∧
      (s'.Observable c → Watched c s') := by
  rcases keeps with ⟨hnot, k, hopen, rfl⟩ | ⟨hcan, new, k, fd, fresh, rfl⟩
  · have watched := watched_kernel h hopen
    exact ⟨iff_of_true watched.observable fun hcan => absurd hcan hnot, fun _ => watched⟩
  · have hiff := started_observable_iff h fresh added
    refine ⟨hiff.trans ⟨fun hadded _ => hadded, fun hadded => hadded hcan⟩, fun hobservable => ?_⟩
    obtain rfl := hiff.mp hobservable
    exact watched_started h fresh

/-- A client after a `connect` is observed, and watched, exactly when it was not hung up before. -/
theorem watched_connect (h : Watched c s) (args : ConnectArgs) (ans : Answer)
    (dead : ConnectArgs) :
    let out := s.world.connect pton c args ans dead
    let s' : Watch proto := if out.1 then ⟨out.2, true, s.hungUp⟩ else { s with world := out.2 }
    (s'.Observable c ↔
        (Watch.CanConnect pton c s.world args ans dead → s.hungUp = false)) ∧
      (s'.Observable c → Watched c s') := by
  intro out
  have hconnect : ConnectKeeps pton c s.world args ans dead :=
    connect_keeps h.grounded args ans dead
  have kept : Watched c { s with world := out.2 } := h.keeps hconnect.keeps
  rw [← hconnect.succeeds]
  cases hb : out.1 with
  | false =>
    exact ⟨iff_of_true kept.observable fun htrue => absurd htrue Bool.false_ne_true, fun _ => kept⟩
  | true =>
    have htrue : (s.world.connect pton c args ans dead).1 = true := hb
    obtain ⟨fd, hfd⟩ := hconnect.holds htrue
    have hiff : (⟨out.2, true, s.hungUp⟩ : Watch proto).Observable c ↔ s.hungUp = false := by
      have hreg := kept.held fd hfd
      have hget : out.2.getFd c = fd := getFd_of_held hfd
      rw [Watch.Observable, hget, hreg]
      cases s.hungUp <;> simp
    refine ⟨hiff.trans (by simp), fun hobservable => ?_⟩
    exact ⟨kept.grounded, kept.onlyOpen, kept.held, fun _ => ⟨hiff.mp hobservable, fd, hfd⟩⟩

theorem watched_next (h : Watched c s) (op : ClientOp) {s' : Watch proto}
    (hstep : s.next pton user c op = some s') :
    (s'.Observable c ↔ s.Attended pton c op) ∧ (s'.Observable c → Watched c s') := by
  obtain rfl := Option.some.inj hstep
  cases op with
  | start ans added => exact watched_start h (start_outcome s.world ans added)
  | startLocal address port ans bound added =>
    exact watched_start h (startLocal_outcome s.world address port ans bound added)
  | connect args ans dead => exact watched_connect h args ans dead
  | stop => exact ⟨iff_of_true (watched_stop h).observable trivial, fun _ => watched_stop h⟩
  | proceed events =>
    have watched := watched_proceed user h events
    have hact : (s.world.act pton user c (.proceed events)).2 = (s.world.proceed user c events).2 :=
      World.act_proceed s.world events
    rw [← hact] at watched
    exact ⟨iff_of_true watched.observable trivial, fun _ => watched⟩

/-- A client is observed as long as it is owed in exactly the runs in which the poll takes the socket
of every `start` that succeeds, and no `connect` succeeds after the handler for terminations was
called. -/
theorem observable_run (pton : InetPton) (user : UserCode) (af : ClientId → Int)
    (unhandled : ClientId → Option Callback) (c : ClientId) (ops : List ClientOp) :
    Always (Watch.next pton user c) (Watch.Observable c)
        (Watch.initial af unhandled : Watch proto) ops ↔
      Along (Watch.next pton user c) (Watch.Attended pton c)
        (Watch.initial af unhandled : Watch proto) ops := by
  have start : Watched c (Watch.initial af unhandled : Watch proto) :=
    ⟨grounded_initial af unhandled, nofun, nofun, nofun⟩
  refine always_iff (fun s hs => hs.observable) (fun s op hs => ?_)
    (fun s op s' hs hcond hstep => ?_) start ops
  · obtain ⟨s', hstep⟩ : ∃ s', s.next pton user c op = some s' := ⟨_, rfl⟩
    rw [← (watched_next user hs op hstep).1, hstep]
    simp
  · obtain ⟨hiff, hwatched⟩ := watched_next user hs op hstep
    exact hwatched (hiff.mpr hcond)

/-- The poll reports a hang-up between `start` and `connect`. -/
def hangupRun : List ClientOp :=
  [.start (.ok 3) true, .proceed [⟨3, .hangup⟩],
    .connect (loopbackArgs 80 1) (.ok ()) (loopbackArgs 80 1)]

theorem hangupRun_not_observable :
    ¬Always (Watch.next loopbackPton (fun _ => .ok ()) 0) (Watch.Observable 0)
      (Watch.initial (fun _ => 2) fun _ => none : Watch tcp) hangupRun := by
  intro h
  exact absurd (h.last rfl rfl) (by decide)

end TypedSockets.Endpoint
