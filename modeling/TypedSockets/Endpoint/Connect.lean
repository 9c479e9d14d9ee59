import TypedSockets.Endpoint.Client

/-! Calls of `connect` on any number of clients.  The first call of the process depends on its own
object and arguments only; a later one does as long as it runs none of the static lambdas. -/

namespace TypedSockets.Endpoint

open TypedSockets.Socket

/-- A call of `connect` on a client, with the answer of `::connect`. -/
structure ConnectCall where
  client : ClientId
  args : ConnectArgs
  ans : Answer

section Calls

variable {proto : Proto} (pton : InetPton)

/-- The client that holds the connected socket, the address and the callbacks of a call. -/
def connectedClient (cl : Client proto) (args : ConnectArgs) (addr : InAddressPort)
    (sock : ActiveSocket) : Client proto :=
  { cl with
    state := .active sock
    remote := some addr
    onConnect := args.onConnect
    onReadReady := args.onReadReady
    onDisconnect := args.onDisconnect }

/-- A `connect` that depends on its own object and arguments only. -/
def connectOwn (cl : Client proto) (args : ConnectArgs) (ans : Answer) (k : Kernel) :
    Bool × Client proto × Kernel :=
  match fromStringAndPort pton args.remoteAddress args.remotePort with
  | none => (false, cl, k)
  | some addr =>
    match cl.state with
    | .active sock => (true, connectedClient cl args addr sock, k)
    | state =>
      if state.isIdle && proto.isConnectionless then (false, cl, k)
      else
        match World.connectSock state addr ans k with
        | (some sock, _, k) => (true, connectedClient cl args addr sock, k)
        | (none, _, k) => (false, cl, k)

/-- The call depends on its own object and arguments, and changes no other client. -/
structure Exact (w w' : World proto) (call : ConnectCall) (b : Bool) : Prop where
  result : b = (connectOwn pton (w.clients call.client) call.args call.ans w.kernel).1
  called : w'.clients call.client =
    (connectOwn pton (w.clients call.client) call.args call.ans w.kernel).2.1
  kernel : w'.kernel = (connectOwn pton (w.clients call.client) call.args call.ans w.kernel).2.2
  others : ∀ i, i ≠ call.client → w'.clients i = w.clients i

/-- Every call of the sequence is exact, whatever the later ones find in the memory of the dead
parameters. -/
def ExactRun : World proto → List ConnectCall → Prop
  | _, [] => True
  | w, call :: calls => ∀ dead,
    let out := w.connect pton call.client call.args call.ans dead
    Exact pton w out.2 call out.1 ∧ ExactRun out.2 calls

/-- The call gets to one of the static lambdas. -/
def runsStatic (w : World proto) (call : ConnectCall) : Bool :=
  match (w.clients call.client).state with
  | .active _ => (fromStringAndPort pton call.args.remoteAddress call.args.remotePort).isSome
  | .idle none => false
  | .idle (some _) => !proto.isConnectionless
  | .binded _ _ => true

/-- No call gets to a static lambda that an earlier call initialised. -/
def FreshRun : World proto → List ConnectCall → Prop
  | _, [] => True
  | w, call :: calls => (w.statics.isSome → runsStatic pton w call = false) ∧ ∀ dead,
    FreshRun (w.connect pton call.client call.args call.ans dead).2 calls

variable {pton}

/-- The socket that the state holds and that is not connected yet. -/
def unconnected : ClientState proto → Option SocketImpl
  | .idle sock => sock.map fun sock => sock.impl
  | .binded _ sock => some sock.impl
  | .active _ => none

/-- The transition calls `::connect` on a socket that is not connected: when it succeeds the active
socket takes the descriptor, so that nothing is closed when it takes the place of what is left; when
it fails, or there is no such socket, the state stays. -/
theorem connectSock_cases (state : ClientState proto) (addr : InAddressPort) (ans : Answer)
    (k : Kernel) :
    (∃ impl sock left, unconnected state = some impl ∧ sock.impl = impl ∧
      (∀ k', left.assign k' (.active sock) = k') ∧ (impl.connect addr ans k).1 = true ∧
      World.connectSock state addr ans k = (some sock, left, (impl.connect addr ans k).2)) ∨
    (∃ impl, unconnected state = some impl ∧ (impl.connect addr ans k).1 = false ∧
      World.connectSock state addr ans k = (none, state, (impl.connect addr ans k).2)) ∨
    (unconnected state = none ∧ World.connectSock state addr ans k = (none, state, k)) := by
  rcases state with (_ | sock) | ⟨based, sock⟩ | sock
  · exact Or.inr (Or.inr ⟨rfl, rfl⟩)
  · simp only [World.connectSock, SocketT.connect]
    rcases hc : sock.impl.connect addr ans k with ⟨_ | _, k'⟩
    · exact Or.inr (Or.inl ⟨sock.impl, rfl, by rw [hc], by rw [hc]⟩)
    · exact Or.inl ⟨sock.impl, _, _, rfl, rfl, fun _ => rfl, by rw [hc], by rw [hc]⟩
  · simp only [World.connectSock, BindedSocket.connect]
    rcases hc : sock.impl.connect addr ans k with ⟨_ | _, k'⟩
    · exact Or.inr (Or.inl ⟨sock.impl, rfl, by rw [hc], by rw [hc]⟩)
    · exact Or.inl ⟨sock.impl, _, _, rfl, rfl, fun _ => rfl, by rw [hc], by rw [hc]⟩
  · exact Or.inr (Or.inr ⟨rfl, rfl⟩)

theorem connectOwn_inactive {cl : Client proto} {args : ConnectArgs} {ans : Answer} {k : Kernel}
    {addr : InAddressPort} (active : ∀ sock, cl.state ≠ .active sock)
    (idle : (cl.state.isIdle && proto.isConnectionless) = false)
    (parsed : fromStringAndPort pton args.remoteAddress args.remotePort = some addr) :
    connectOwn pton cl args ans k =
      match World.connectSock cl.state addr ans k with
      | (some sock, _, k) => (true, connectedClient cl args addr sock, k)
      | (none, _, k) => (false, cl, k) := by
  unfold connectOwn
  rw [parsed]
  cases hst : cl.state with
  | active sock => exact absurd hst (active sock)
  | _ =>
    rw [hst] at idle
    simp only [idle, Bool.false_eq_true, ↓reduceIte]

theorem connectOwn_idle {cl : Client proto} (h : cl.state = .idle none) (args : ConnectArgs)
    (ans : Answer) (k : Kernel) : connectOwn pton cl args ans k = (false, cl, k) := by
  unfold connectOwn
  split
  · rfl
  · simp [h, World.connectSock]

variable (pton) in
/-- What the static lambda `connect` does with the arguments of the call and the called client. -/
theorem connectLambda_own (w : World proto) (c : ClientId) (args : ConnectArgs) (ans : Answer)
    (active : ∀ sock, (w.clients c).state ≠ .active sock)
    (idle : ((w.clients c).state.isIdle && proto.isConnectionless) = false) :
    let out := w.connectLambda pton c c args ans
    let own := connectOwn pton (w.clients c) args ans w.kernel
    out.1 = own.1 ∧ out.2.clients c = own.2.1 ∧ out.2.kernel = own.2.2 ∧
      ∀ i, i ≠ c → out.2.clients i = w.clients i := by
  unfold World.connectLambda
  cases parsed : fromStringAndPort pton args.remoteAddress args.remotePort with
  | none => simp [connectOwn, parsed]
  | some addr =>
    rw [connectOwn_inactive active idle parsed]
    rcases connectSock_cases (w.clients c).state addr ans w.kernel with
      ⟨impl, sock, left, -, -, hassign, -, hsock⟩ | ⟨impl, -, -, hsock⟩ | ⟨-, hsock⟩
    · simp +contextual [hsock, hassign, connectedClient]
    · simp +contextual [hsock]
    · simp +contextual [hsock]

/-- A call that gets to no static lambda of an earlier call is exact. -/
theorem exact_of_fresh {w : World proto} {call : ConnectCall}
    (h : w.statics.isSome → runsStatic pton w call = false) (dead : ConnectArgs) :
    let out := w.connect pton call.client call.args call.ans dead
    Exact pton w out.2 call out.1 := by
  obtain ⟨c, args, ans⟩ := call
  have lambda (active : ∀ sock, (w.clients c).state ≠ .active sock)
      (idle : ((w.clients c).state.isIdle && proto.isConnectionless) = false) :
      let out := ({ w with statics := some c } : World proto).connectLambda pton c c args ans
      Exact pton w out.2 ⟨c, args, ans⟩ out.1 := by
    obtain ⟨hb, hcl, hk, ho⟩ :=
      connectLambda_own pton { w with statics := some c } c args ans active idle
    exact ⟨hb, hcl, hk, ho⟩
  have same (this : ClientId)
      (hown : connectOwn pton (w.clients c) args ans w.kernel = (false, w.clients c, w.kernel)) :
      Exact pton w { w with statics := some this } ⟨c, args, ans⟩ false :=
    ⟨by rw [hown], by rw [hown], by rw [hown], fun _ _ => rfl⟩
  simp only [World.connect, runsStatic] at h ⊢
  cases hst : (w.clients c).state with
  | active sock =>
    rw [hst] at h
    cases parsed : fromStringAndPort pton args.remoteAddress args.remotePort with
    | none => exact same _ (by simp [connectOwn, parsed])
    | some addr =>
      have hnone : w.statics = none := by simpa [parsed] using h
      simp only [hnone]
      constructor <;> simp +contextual [connectOwn, parsed, hst, connectedClient]
  | binded based sock =>
    rw [hst] at h lambda
    have hnone : w.statics = none := by simpa using h
    simp only [hnone]
    exact lambda (by simp) (by simp [ClientState.isIdle])
  | idle sock =>
    rw [hst] at h lambda
    cases sock with
    | none => exact same _ (connectOwn_idle hst args ans w.kernel)
    | some sock =>
      by_cases hproto : proto.isConnectionless = true
      · simp only [hproto, ↓reduceIte]
        refine same _ ?_
        unfold connectOwn
        split
        · rfl
        · simp [hst, ClientState.isIdle, hproto]
      · have hnone : w.statics = none := by simpa [hproto] using h
        simp only [hnone, hproto]
        exact lambda (by simp) (by simp [hproto])

/-! ### The calls issued -/

theorem SocketImpl.connect_log {impl : SocketImpl} {addr : InAddressPort} {sa : SockAddr}
    (h : addr.sockAddr = some sa) (ans : Answer) (k : Kernel) :
    (impl.connect addr ans k).2.log = .connect impl.fd sa :: k.log := by
  simp only [SocketImpl.connect, h, Kernel.connect]
  grind [Kernel.apply, Kernel.record, Kernel.fail, Kernel.issue]

theorem connectSock_log {state : ClientState proto} {impl : SocketImpl}
    (h : unconnected state = some impl) {addr : InAddressPort} {sa : SockAddr}
    (hsa : addr.sockAddr = some sa) (ans : Answer) (k : Kernel) :
    (World.connectSock state addr ans k).2.2.log = .connect impl.fd sa :: k.log := by
  rw [← SocketImpl.connect_log hsa ans k]
  rcases connectSock_cases state addr ans k with
    ⟨impl', sock, left, held, -, -, -, hsock⟩ | ⟨impl', held, -, hsock⟩ | ⟨held, -⟩
  · obtain rfl : impl = impl' := Option.some.inj (h.symm.trans held)
    rw [hsock]
  · obtain rfl : impl = impl' := Option.some.inj (h.symm.trans held)
    rw [hsock]
  · simp [h] at held

theorem ClientState.assign_log (old new : ClientState proto) (k : Kernel) :
    k.log.length ≤ (old.assign k new).log.length := by
  have destroy (impl : SocketImpl) : k.log.length ≤ (impl.destroy k).log.length := by
    unfold SocketImpl.destroy SocketImpl.close
    split_ifs
    · exact le_rfl
    · split
      · simp [Kernel.close, Kernel.issue]
      · exact le_rfl
  unfold ClientState.assign
  split
  · exact le_rfl
  · exact le_rfl
  · exact le_rfl
  · rcases old with (_ | sock) | ⟨_, sock⟩ | sock
    · exact le_rfl
    all_goals exact destroy sock.impl

/-- With an address that parses, the static lambda `connect` issues a call. -/
theorem connectLambda_log (w : World proto) (this c : ClientId) (frame : ConnectArgs)
    {impl : SocketImpl} (h : unconnected (w.clients c).state = some impl) {addr : InAddressPort}
    (parsed : fromStringAndPort pton frame.remoteAddress frame.remotePort = some addr)
    (ans : Answer) :
    w.kernel.log.length < (w.connectLambda pton this c frame ans).2.kernel.log.length := by
  obtain ⟨sa, hsa⟩ := fromStringAndPort_sockAddr parsed
  have hlog := connectSock_log h hsa ans w.kernel
  unfold World.connectLambda
  rcases hsock : World.connectSock (w.clients c).state addr ans w.kernel with
    ⟨connected, left, k⟩
  have hlt : w.kernel.log.length < k.log.length := by
    rw [hsock] at hlog
    rw [show k.log = .connect impl.fd sa :: w.kernel.log from hlog]
    exact Nat.lt_succ_self _
  rw [parsed]
  simp only [hsock]
  cases connected with
  | none => exact hlt
  | some sock => exact lt_of_lt_of_le hlt (ClientState.assign_log _ _ _)

theorem exists_callback (p q : Option Callback) : ∃ x, x ≠ p ∧ x ≠ q := by
  obtain ⟨x, hx⟩ := Infinite.exists_notMem_finset ({p, q} : Finset (Option Callback))
  simp only [Finset.mem_insert, Finset.mem_singleton, not_or] at hx
  exact ⟨x, hx⟩

/-- A text that is too long is no address. -/
theorem fromStringAndPort_long (port : UInt64) :
    fromStringAndPort pton (List.replicate 46 0) port = none := by
  simp [fromStringAndPort, InAddress.create, InAddress.init, InAddress.parser,
    InAddress.maxIp4StrLen, InAddress.maxIp6StrLen]

/-- A later run of the static lambda `connect` is not exact when its own address and the one it
finds are not both valid or both invalid. -/
theorem connectLambda_not_exact (accepts : ∃ str port, (fromStringAndPort pton str port).isSome)
    {w : World proto} (this : ClientId) {c : ClientId} (args : ConnectArgs) (ans : Answer)
    {impl : SocketImpl} (hsock : unconnected (w.clients c).state = some impl)
    (idle : ((w.clients c).state.isIdle && proto.isConnectionless) = false) :
    ∃ dead, ¬Exact pton w
      (({ w with statics := some this } : World proto).connectLambda pton this c dead ans).2
      ⟨c, args, ans⟩
      (({ w with statics := some this } : World proto).connectLambda pton this c dead ans).1 := by
  have active : ∀ sock, (w.clients c).state ≠ .active sock := by
    intro sock hst
    simp [hst, unconnected] at hsock
  cases parsed : fromStringAndPort pton args.remoteAddress args.remotePort with
  | none =>
    -- the own address is invalid, and the address found is not
    obtain ⟨str, port, hsome⟩ := accepts
    obtain ⟨addr, haddr⟩ := Option.isSome_iff_exists.mp hsome
    refine ⟨{ args with remoteAddress := str, remotePort := port }, fun hexact => ?_⟩
    have hlog := connectLambda_log { w with statics := some this } this c
      { args with remoteAddress := str, remotePort := port } hsock haddr ans
    rw [hexact.kernel] at hlog
    simp [connectOwn, parsed] at hlog
  | some addr =>
    -- the own address is valid, and the address found is not
    refine ⟨{ args with remoteAddress := List.replicate 46 0 }, fun hexact => ?_⟩
    have hkernel := hexact.kernel
    obtain ⟨sa, hsa⟩ := fromStringAndPort_sockAddr parsed
    have hlog := connectSock_log hsock hsa ans w.kernel
    rw [connectOwn_inactive active idle parsed] at hkernel
    simp only [World.connectLambda, fromStringAndPort_long] at hkernel
    rcases hc : World.connectSock (w.clients c).state addr ans w.kernel with
      ⟨connected, left, k⟩
    rw [hc] at hkernel hlog
    have hk : w.kernel = k := by cases connected <;> exact hkernel
    have hlen := congrArg List.length hlog
    rw [← hk] at hlen
    simp at hlen

/-- A later call of a static lambda is not exact for some contents of the dead parameters. -/
theorem not_exact {w : World proto} {call : ConnectCall}
    (accepts : ∃ str port, (fromStringAndPort pton str port).isSome)
    (later : w.statics.isSome) (h : runsStatic pton w call = true) :
    ∃ dead, ¬Exact pton w (w.connect pton call.client call.args call.ans dead).2 call
      (w.connect pton call.client call.args call.ans dead).1 := by
  obtain ⟨c, args, ans⟩ := call
  obtain ⟨this, hthis⟩ := Option.isSome_iff_exists.mp later
  simp only [World.connect, runsStatic, hthis, Option.getD_some, Option.isNone_some,
    Bool.false_eq_true, ↓reduceIte] at h ⊢
  cases hst : (w.clients c).state with
  | active sock =>
    rw [hst] at h
    obtain ⟨addr, parsed⟩ := Option.isSome_iff_exists.mp h
    obtain ⟨x, hargs, hold⟩ := exists_callback args.onConnect (w.clients this).onConnect
    refine ⟨{ args with onConnect := x }, fun hexact => ?_⟩
    by_cases hc : this = c
    · have hcalled := congrArg Client.onConnect hexact.called
      simp [parsed, connectOwn, hst, hc, connectedClient] at hcalled
      exact hargs hcalled
    · have hothers := congrArg Client.onConnect (hexact.others this hc)
      simp [parsed] at hothers
      exact hold hothers
  | binded based sock =>
    exact connectLambda_not_exact accepts this args ans (by rw [hst]; rfl)
      (by simp [hst, ClientState.isIdle])
  | idle sock =>
    rw [hst] at h
    cases sock with
    | none => cases h
    | some sock =>
      have hproto : proto.isConnectionless = false := by simpa using h
      simp only [hproto, Bool.false_eq_true, ↓reduceIte]
      exact connectLambda_not_exact accepts this args ans (by rw [hst]; rfl) (by simp [hproto])

/-- The calls of a sequence are exact, whatever is left of dead parameters, exactly when none of
them gets to a static lambda that an earlier call initialised. -/
theorem exactRun_iff (accepts : ∃ str port, (fromStringAndPort pton str port).isSome)
    (w : World proto) (calls : List ConnectCall) :
    ExactRun pton w calls ↔ FreshRun pton w calls := by
  induction calls generalizing w with
  | nil => exact Iff.rfl
  | cons call calls ih =>
    constructor
    · intro hexact
      refine ⟨fun later => ?_, fun dead => (ih _).mp (hexact dead).2⟩
      by_contra hruns
      obtain ⟨dead, hnot⟩ := not_exact accepts later (Bool.not_eq_false _ ▸ hruns)
      exact hnot (hexact dead).1
    · rintro ⟨hfresh, hrest⟩ dead
      exact ⟨exact_of_fresh hfresh dead, (ih _).mpr (hrest dead)⟩

end Calls

section Examples

/-- Two TCP clients, both started. -/
def startedPair : World tcp :=
  (((World.initial (fun _ => 2) fun _ => none).start 0 (.ok 3) true).2.start 1 (.ok 4) true).2

/-- Arguments with the address `127.0.0.1` and the callbacks `n`. -/
def loopbackArgs (port : UInt64) (n : Callback) : ConnectArgs :=
  ⟨[49, 50, 55, 46, 48, 46, 48, 46, 49], port, some n, some n, some n⟩

theorem exactRun_iff_pair :
    ExactRun loopbackPton startedPair [⟨0, loopbackArgs 80 1, .ok ()⟩, ⟨1, loopbackArgs 81 2, .ok ()⟩] ↔
      FreshRun loopbackPton startedPair
        [⟨0, loopbackArgs 80 1, .ok ()⟩, ⟨1, loopbackArgs 81 2, .ok ()⟩] :=
  exactRun_iff ⟨[49, 50, 55, 46, 48, 46, 48, 46, 49], 80, by decide⟩ startedPair _

/-- The second call sets the fields of the first client, also when its own arguments are what it
finds. -/
theorem second_connect_not_exact :
    ¬ExactRun loopbackPton startedPair
      [⟨0, loopbackArgs 80 1, .ok ()⟩, ⟨1, loopbackArgs 81 2, .ok ()⟩] := by
  intro h
  have hexact := ((h (loopbackArgs 80 1)).2 (loopbackArgs 81 2)).1
  have hremote := congrArg Client.onConnect hexact.called
  exact absurd hremote (by decide)

end Examples

end TypedSockets.Endpoint
