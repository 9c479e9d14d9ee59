import TypedSockets.Endpoint.Client
import TypedSockets.Lib.Run

/-! Runs of one client: the calls of its user and the batches of its poll, and what each of them
leaves unchanged. -/

namespace TypedSockets.Endpoint

open TypedSockets.Socket TypedSockets.Epoll

/-- A call on the client, with the answers of its system calls and of the poll. -/
inductive ClientOp where
  | start (ans : Except Errno Fd) (added : Bool)
  | startLocal (address : List UInt8) (port : UInt64) (ans : Except Errno Fd) (bound : Answer)
      (added : Bool)
  | connect (args : ConnectArgs) (ans : Answer) (dead : ConnectArgs)
  | stop
  | proceed (events : List Event)

namespace World

variable {proto : Proto} (pton : InetPton) (user : UserCode) (c : ClientId)

/-- One call, and whether it returned true. -/
def act (w : World proto) : ClientOp → Bool × World proto
  | .start ans added => w.start c ans added
  | .startLocal address port ans bound added => w.startLocal pton c address port ans bound added
  | .connect args ans dead => w.connect pton c args ans dead
  | .stop => (false, w.stop c)
  | .proceed events =>
    match w.proceed user c events with
    | (.ok b, w) => (b, w)
    | (.error _, w) => (false, w)

/-- `act` as the step of a run. -/
def next (w : World proto) (op : ClientOp) : Option (World proto) := some (w.act pton user c op).2

variable {pton user c}

theorem act_proceed (w : World proto) (events : List Event) :
    (w.act pton user c (.proceed events)).2 = (w.proceed user c events).2 := by
  simp only [act]
  split <;> rename_i heq <;> rw [heq]

theorem connectLambda_statics (w : World proto) (this i : ClientId) (frame : ConnectArgs)
    (ans : Answer) : (w.connectLambda pton this i frame ans).2.statics = w.statics := by
  unfold connectLambda
  split
  · simp only
    split <;> rfl
  · rfl

/-- Every call of `connect` leaves the static lambdas initialised. -/
theorem connect_statics (w : World proto) (i : ClientId) (args : ConnectArgs) (ans : Answer)
    (dead : ConnectArgs) :
    (w.connect pton i args ans dead).2.statics = some (w.statics.getD i) := by
  simp only [connect]
  split
  · split <;> rfl
  · rfl
  · split
    · rfl
    · exact connectLambda_statics _ _ _ _ _
  · exact connectLambda_statics _ _ _ _ _

theorem update_handlers (w : World proto) (i j : ClientId) {f : Client proto → Client proto}
    (h : ∀ cl, (f cl).handlers = cl.handlers) :
    ((w.update i f).clients j).handlers = (w.clients j).handlers := by
  rw [update_client]
  split_ifs with hj
  · rw [h, hj]
  · rfl

theorem setFields_handlers (w : World proto) (this i : ClientId) (addr : InAddressPort)
    (frame : ConnectArgs) :
    ((w.setFields this addr frame).clients i).handlers = (w.clients i).handlers :=
  w.update_handlers this i fun _ => rfl

theorem setState_handlers (w : World proto) (i j : ClientId) (new : ClientState proto) :
    ((w.setState i new).clients j).handlers = (w.clients j).handlers := by
  rw [setState_client]
  split_ifs with hj
  · rw [hj]
  · rfl

theorem connectLambda_handlers (w : World proto) (this i j : ClientId) (frame : ConnectArgs)
    (ans : Answer) : ((w.connectLambda pton this i frame ans).2.clients j).handlers =
      (w.clients j).handlers := by
  unfold connectLambda
  split
  · simp only
    split
    · rw [setState_handlers, setFields_handlers]
      apply update_handlers
      exact fun _ => rfl
    · simp only
      apply update_handlers
      exact fun _ => rfl
  · rfl

/-- `connect` registers no handlers. -/
theorem connect_handlers (w : World proto) (i j : ClientId) (args : ConnectArgs) (ans : Answer)
    (dead : ConnectArgs) :
    ((w.connect pton i args ans dead).2.clients j).handlers = (w.clients j).handlers := by
  simp only [connect]
  split
  · split
    · rw [setFields_handlers]
    · rfl
  · rfl
  · split
    · rfl
    · rw [connectLambda_handlers]
  · rw [connectLambda_handlers]

/-- What the handlers and functions of the user leave alone. -/
structure Calm (w w' : World proto) : Prop where
  kernel : w'.kernel = w.kernel
  statics : w'.statics = w.statics
  state : ∀ i, (w'.clients i).state = (w.clients i).state
  remote : ∀ i, (w'.clients i).remote = (w.clients i).remote
  handlers : ∀ i, (w'.clients i).handlers = (w.clients i).handlers

theorem Calm.refl (w : World proto) : Calm w w :=
  ⟨rfl, rfl, fun _ => rfl, fun _ => rfl, fun _ => rfl⟩

theorem Calm.trans {u v w : World proto} (h1 : Calm u v) (h2 : Calm v w) : Calm u w :=
  ⟨h2.kernel.trans h1.kernel, h2.statics.trans h1.statics,
    fun i => (h2.state i).trans (h1.state i), fun i => (h2.remote i).trans (h1.remote i),
    fun i => (h2.handlers i).trans (h1.handlers i)⟩

theorem Calm.getFd {w w' : World proto} (h : Calm w w') (i : ClientId) : w'.getFd i = w.getFd i :=
  congrArg ClientState.getFd (h.state i)

theorem Calm.call (user : UserCode) (w : World proto) (inv : Invocation) :
    Calm w (w.call user inv).2 :=
  ⟨rfl, rfl, fun _ => rfl, fun _ => rfl, fun _ => rfl⟩

theorem Calm.update (w : World proto) (i : ClientId) {f : Client proto → Client proto}
    (state : ∀ cl, (f cl).state = cl.state) (remote : ∀ cl, (f cl).remote = cl.remote)
    (handlers : ∀ cl, (f cl).handlers = cl.handlers) : Calm w (w.update i f) := by
  refine ⟨rfl, rfl, fun j => ?_, fun j => ?_, fun j => ?_⟩ <;> rw [update_client] <;>
    split_ifs with h
  · rw [state, h]
  · rfl
  · rw [remote, h]
  · rfl
  · rw [handlers, h]
  · rfl

theorem Calm.callOnce (w : World proto) (i : ClientId) (inv : Invocation)
    {clear : Client proto → Client proto} (state : ∀ cl, (clear cl).state = cl.state)
    (remote : ∀ cl, (clear cl).remote = cl.remote)
    (handlers : ∀ cl, (clear cl).handlers = cl.handlers) :
    Calm w (w.callOnce user i inv clear).2 := by
  have called := Calm.call user w inv
  rcases callOnce_cases user w i inv clear with h | h <;> rw [h]
  · exact called.trans (.update _ i state remote handlers)
  · exact called

theorem Calm.delSocket (w : World proto) (i : ClientId) (fd : Fd) : Calm w (w.delSocket i fd) :=
  ⟨rfl, rfl, fun _ => rfl, fun _ => rfl, fun _ => rfl⟩

theorem Calm.invoke (func : ClientHandler) (fd : Fd) (w : World proto) :
    Calm w (w.invoke user c func fd).2 := by
  unfold World.invoke
  split_ifs
  · cases func with
    | erase =>
      have del := Calm.delSocket w c fd
      simp only
      split
      · exact del.trans (.callOnce _ c _ (fun _ => rfl) (fun _ => rfl) fun _ => rfl)
      · exact del
    | readReady =>
      simp only
      split
      · exact .call user w _
      · exact .refl w
    | writeReady =>
      simp only
      split
      · exact .callOnce _ c _ (fun _ => rfl) (fun _ => rfl) fun _ => rfl
      · exact .refl w
  · exact .refl w

variable (user c) in
theorem Calm.proceed (w : World proto) (events : List Event) :
    Calm w (w.proceed user c events).2 := by
  refine proceed_induction (Calm w) ?_ ?_ (.refl w)
  · intro event _ u hu
    exact handleEvent_induction (Calm w) (fun _ func _ v hv => hv.trans (.invoke func event.fd v)) hu
  · intro func hfunc missed u hu
    obtain ⟨f, -, rfl⟩ := Option.mem_map.mp hfunc
    exact hu.trans (.call user u _)

end World

end TypedSockets.Endpoint
