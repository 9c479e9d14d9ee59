import TypedSockets.Endpoint.Connect
import TypedSockets.Endpoint.OneShot

/-! Callbacks that call `connect`, which takes no lock.  The handler clears the callback once it
returns, and with it the one that the inner `connect` stored. -/

namespace TypedSockets.Endpoint

open TypedSockets.Socket TypedSockets.Epoll TypedSockets.Lib

variable {proto : Proto}

/-! ### Handlers over what a function of the user does -/

namespace World

section

variable {m : Type → Type} [Monad m]
  (call : Invocation → World proto → m (Except Exn Unit × World proto))

/-- A callback and the clearing of its field. -/
def callOnceBy (w : World proto) (c : ClientId) (inv : Invocation)
    (clear : Client proto → Client proto) : m (Except Exn Unit × World proto) := do
  match ← call inv w with
  | (.ok (), w) => pure (.ok (), w.update c clear)
  | (.error e, w) => pure (.error e, w)

/-- A handler of client `c`. -/
def invokeBy (c : ClientId) (func : ClientHandler) (fd : Fd) (w : World proto) :
    m (Except Exn Unit × World proto) :=
  if fd = w.getFd c then
    match func with
    | .erase =>
      let w := w.delSocket c fd
      match (w.clients c).onDisconnect with
      | some func =>
        w.callOnceBy call c (.callback c .onDisconnect func) fun cl => { cl with onDisconnect := none }
      | none => pure (.ok (), w)
    | .readReady =>
      match (w.clients c).onReadReady with
      | some func => call (.callback c .onReadReady func) w
      | none => pure (.error .badFunctionCall, w)
    | .writeReady =>
      match (w.clients c).onConnect with
      | some func =>
        w.callOnceBy call c (.callback c .onConnect func) fun cl => { cl with onConnect := none }
      | none => pure (.ok (), w)
  else pure (.ok (), w)

variable {call} [LawfulMonad m]

/-- Functions that call nothing back. -/
theorem invokeBy_pure (user : UserCode) (c : ClientId) (func : ClientHandler) (fd : Fd)
    (w : World proto) :
    invokeBy (fun inv w => (pure (w.call user inv) : m _)) c func fd w =
      pure (w.invoke user c func fd) := by
  have once (w : World proto) (inv : Invocation) (clear : Client proto → Client proto) :
      callOnceBy (fun inv w => (pure (w.call user inv) : m _)) w c inv clear =
        pure (w.callOnce user c inv clear) := by
    unfold callOnceBy callOnce
    rw [pure_bind]
    rcases w.call user inv with ⟨_ | ⟨⟨⟩⟩, w'⟩ <;> rfl
  unfold invokeBy invoke
  simp only [once]
  split_ifs
  · cases func with
    | erase => cases hfunc : ((w.delSocket c fd).clients c).onDisconnect <;> rfl
    | readReady => cases hfunc : (w.clients c).onReadReady <;> rfl
    | writeReady => cases hfunc : (w.clients c).onConnect <;> rfl
  · rfl

variable (call) in
/-- A handler calls nothing, or it makes one call and sees to the rest of the client itself. -/
theorem invokeBy_cases (c : ClientId) (func : ClientHandler) (fd : Fd) (w : World proto) :
    (∃ r w', invokeBy call c func fd w = pure (r, w') ∧ w'.trace = w.trace) ∨
    ∃ role f w', ∃ finish : Except Exn Unit × World proto → World proto, invokeBy call c func fd w =
        (fun out => (out.1, finish out)) <$> call (.callback c role f) w' ∧
      w'.trace = w.trace ∧ ∀ out, (finish out).trace = out.2.trace := by
  have once (w : World proto) (inv : Invocation) (clear : Client proto → Client proto) :
      ∃ finish : Except Exn Unit × World proto → World proto,
        callOnceBy call w c inv clear = (fun out => (out.1, finish out)) <$> call inv w ∧
        ∀ out, (finish out).trace = out.2.trace := by
    refine ⟨fun out => if out.1.isOk then out.2.update c clear else out.2, ?_, fun out => ?_⟩
    · unfold callOnceBy
      rw [map_eq_pure_bind]
      congr 1
      funext out
      rcases out with ⟨_ | ⟨⟨⟩⟩, w'⟩ <;> rfl
    · simp only
      split <;> rfl
  unfold invokeBy
  split
  · cases func with
    | erase =>
      simp only
      split
      · obtain ⟨finish, hcall, htrace⟩ := once (w.delSocket c fd) (.callback c .onDisconnect _) _
        exact Or.inr ⟨_, _, _, finish, hcall, rfl, htrace⟩
      · exact Or.inl ⟨_, _, rfl, rfl⟩
    | readReady =>
      simp only
      split
      · exact Or.inr ⟨_, _, _, Prod.snd, (id_map _).symm, rfl, fun _ => rfl⟩
      · exact Or.inl ⟨_, _, rfl, rfl⟩
    | writeReady =>
      simp only
      split
      · obtain ⟨finish, hcall, htrace⟩ := once w (.callback c .onConnect _) _
        exact Or.inr ⟨_, _, _, finish, hcall, rfl, htrace⟩
      · exact Or.inl ⟨_, _, rfl, rfl⟩
  · exact Or.inl ⟨_, _, rfl, rfl⟩

end

end World

/-! ### Functions that connect -/

variable (pton : InetPton)

/-- A `connect`, with what a later one finds in the memory of the dead parameters. -/
abbrev InnerConnect := ConnectCall × ConnectArgs

/-- What the last invocation does: the `connect`s that it makes, one after the other, and whether it
throws. -/
abbrev ConnectingUser := List Invocation → List InnerConnect × Except Exn Unit

namespace World

def connectOf (w : World proto) (call : InnerConnect) : Bool × World proto :=
  w.connect pton call.1.client call.1.args call.1.ans call.2

def connects (w : World proto) (calls : List InnerConnect) : World proto :=
  calls.foldl (fun w call => (w.connectOf pton call).2) w

variable (user : ConnectingUser)

def callBack (inv : Invocation) (w : World proto) : Id (Except Exn Unit × World proto) :=
  let (calls, r) := user (inv :: w.trace)
  pure (r, { w with trace := inv :: w.trace }.connects pton calls)

/-- A handler of client `c`, whose callbacks may connect. -/
def reinvoke (c : ClientId) (func : ClientHandler) (fd : Fd) (w : World proto) :
    Except Exn Unit × World proto :=
  (invokeBy (callBack pton user) c func fd w).run

/-- Where no function connects, it is the handler of a client that calls nothing back. -/
theorem reinvoke_silent (user : UserCode) (c : ClientId) (func : ClientHandler) (fd : Fd)
    (w : World proto) :
    w.reinvoke pton (fun trace => ([], user trace)) c func fd = w.invoke user c func fd :=
  congrArg Id.run (invokeBy_pure (m := Id) user c func fd w)

/-- The process when the handler calls the function. -/
def entered (w : World proto) (c : ClientId) (role : Role) (func : Callback) : World proto :=
  let w := match role with
    | .onDisconnect => w.delSocket c (w.getFd c)
    | _ => w
  { w with trace := .callback c role func :: w.trace }

end World

/-- The event of the client gets to a callback that connects it once more and returns: `inner` is
the last of these calls, and returns true. -/
structure Reconnects (user : ConnectingUser) (c : ClientId) (role : Role) (w : World proto)
    (func : Callback) (before : List InnerConnect) (inner : InnerConnect)
    (after : List InnerConnect) : Prop where
  active : ∃ sock, (w.clients c).state = .active sock
  once : role.once = true
  stored : (w.clients c).callback role = some func
  calls : user (.callback c role func :: w.trace) = (before ++ inner :: after, .ok ())
  own : inner.1.client = c
  connected : (((w.entered c role func).connects pton before).connectOf pton inner).1 = true
  last : ∀ middle call rest, after = middle ++ call :: rest → call.1.client = c →
    (((w.entered c role func).connects pton (before ++ inner :: middle)).connectOf pton call).1 = false

/-- The address and the callbacks are those of the `connect`, and later events invoke them. -/
structure InForce (user : ConnectingUser) (c : ClientId) (args : ConnectArgs) (w : World proto) :
    Prop where
  remote : (w.clients c).remote = fromStringAndPort pton args.remoteAddress args.remotePort
  callbacks : ∀ role, (w.clients c).callback role = args.callback role
  invoked : ∀ role, ∀ func ∈ args.callback role,
    (w.reinvoke pton user c role.handler (w.getFd c)).2.trace = .callback c role func :: w.trace

/-! ### What a `connect` hands to `set_fields` -/

abbrev Fields := Option InAddressPort × (Role → Option Callback)

def Client.fields (cl : Client proto) : Fields := (cl.remote, cl.callback)

namespace World

/-- The client that the static lambdas captured, at the end of the calls. -/
def captured (w : World proto) (calls : List InnerConnect) : Option ClientId :=
  w.statics.or (calls.head?.map fun call => call.1.client)

/-- The parameters that the static lambdas read in the call. -/
def frameRead (w : World proto) (call : InnerConnect) : ConnectArgs :=
  if w.statics.isNone then call.1.args else call.2

/-- The address that the call hands to `set_fields`, when it gets there. -/
def addressRead (w : World proto) (call : InnerConnect) : Option InAddressPort :=
  match (w.clients call.1.client).state with
  | .active _ => fromStringAndPort pton call.1.args.remoteAddress call.1.args.remotePort
  | _ => fromStringAndPort pton (w.frameRead call).remoteAddress (w.frameRead call).remotePort

/-- The last of the calls that returns true hands the address to `set_fields`, and the static lambdas
read the frame. -/
def LastHanded (w : World proto) (calls : List InnerConnect) (addr : Option InAddressPort)
    (frame : ConnectArgs) : Prop :=
  ∃ earlier final later, calls = earlier ++ final :: later ∧
    ((w.connects pton earlier).connectOf pton final).1 = true ∧
    (∀ middle call rest, later = middle ++ call :: rest →
      ((w.connects pton (earlier ++ final :: middle)).connectOf pton call).1 = false) ∧
    addr = (w.connects pton earlier).addressRead pton final ∧
    frame = (w.connects pton earlier).frameRead final

end World

/-- The inner `connect` passes nothing for the callback that runs.  Where the static lambdas captured
the client, its address and its other callbacks are those that went to `set_fields` last; where they
captured another one, the client had them before. -/
def Survives (c : ClientId) (role : Role) (w : World proto) (args : ConnectArgs)
    (captured : Option ClientId) (addr : Option InAddressPort) (frame : ConnectArgs) : Prop :=
  let left := if captured = some c then (addr, frame.callback) else (w.clients c).fields
  args.callback role = none ∧
    left.1 = fromStringAndPort pton args.remoteAddress args.remotePort ∧
    ∀ other, other ≠ role → left.2 other = args.callback other

section

variable {pton} {w : World proto} {c : ClientId}

theorem setFields_fields (w : World proto) (this : ClientId) (addr : InAddressPort)
    (frame : ConnectArgs) (i : ClientId) :
    ((w.setFields this addr frame).clients i).fields =
      if this = i then (some addr, frame.callback) else (w.clients i).fields := by
  rw [World.setFields_client]
  by_cases h : i = this
  · subst h
    rw [if_pos rfl, if_pos rfl]
    refine Prod.ext rfl (funext fun role => ?_)
    cases role <;> rfl
  · rw [if_neg h, if_neg (Ne.symm h)]

theorem setState_fields (w : World proto) (this : ClientId) (new : ClientState proto)
    (i : ClientId) :
    ((w.setState this new).clients i).fields = (w.clients i).fields := by
  rw [World.setState_client]
  split_ifs with h
  · subst h
    refine Prod.ext rfl (funext fun role => ?_)
    cases role <;> rfl
  · rfl

variable (pton) in
theorem connectLambda_fields (w : World proto) (this j : ClientId) (frame : ConnectArgs)
    (ans : Answer) (i : ClientId) :
    ((w.connectLambda pton this j frame ans).2.clients i).fields =
      if this = i ∧ (w.connectLambda pton this j frame ans).1 = true then
        (fromStringAndPort pton frame.remoteAddress frame.remotePort, frame.callback)
      else (w.clients i).fields := by
  have state (k : Kernel) (new : ClientState proto) :
      ((({ w with kernel := k } : World proto).update j fun cl => { cl with state := new }).clients
        i).fields = (w.clients i).fields := by
    rw [World.update_client]
    split_ifs with h
    · subst h
      refine Prod.ext rfl (funext fun role => ?_)
      cases role <;> rfl
    · rfl
  unfold World.connectLambda
  cases hparse : fromStringAndPort pton frame.remoteAddress frame.remotePort with
  | none => simp
  | some parsed =>
    simp only
    obtain ⟨⟨connected, left, k⟩, hsock⟩ :
        ∃ out, World.connectSock (w.clients j).state parsed ans w.kernel = out := ⟨_, rfl⟩
    cases connected with
    | none =>
      simp only [hsock, state]
      simp
    | some sock =>
      simp only [hsock, setState_fields, setFields_fields, state]
      simp

variable (pton) in
/-- A `connect` sets the fields of the client that the static lambdas captured. -/
theorem connectOf_fields (w : World proto) (call : InnerConnect) (i : ClientId) :
    ((w.connectOf pton call).2.clients i).fields =
      if w.statics.getD call.1.client = i ∧ (w.connectOf pton call).1 = true then
        (w.addressRead pton call, (w.frameRead call).callback)
      else (w.clients i).fields := by
  obtain ⟨⟨j, args, ans⟩, dead⟩ := call
  unfold World.addressRead World.frameRead World.connectOf World.connect
  simp only
  cases hstate : (w.clients j).state with
  | active sock =>
    simp only
    cases hparse : fromStringAndPort pton args.remoteAddress args.remotePort with
    | none => simp
    | some parsed =>
      rw [setFields_fields]
      simp
  | idle sock =>
    cases sock with
    | none => simp
    | some sock =>
      by_cases hproto : proto.isConnectionless = true
      · simp [hproto]
      · simp only [hproto]
        exact connectLambda_fields pton _ _ j _ ans i
  | binded based sock => exact connectLambda_fields pton _ _ j _ ans i

theorem connectOf_statics (w : World proto) (call : InnerConnect) :
    (w.connectOf pton call).2.statics = some (w.statics.getD call.1.client) :=
  World.connect_statics w _ _ _ _

/-- Calls that return false set no field. -/
theorem connects_failed {calls : List InnerConnect}
    (failed : ∀ middle call rest, calls = middle ++ call :: rest →
      ((w.connects pton middle).connectOf pton call).1 = false) :
    ((w.connects pton calls).clients c).fields = (w.clients c).fields := by
  induction calls generalizing w with
  | nil => rfl
  | cons call calls ih =>
    have hcall := failed [] call calls rfl
    have hrest := ih (w := (w.connectOf pton call).2) fun middle next rest heq =>
      failed (call :: middle) next rest (by rw [heq, List.cons_append])
    refine hrest.trans ?_
    rw [connectOf_fields, if_neg fun h => Bool.false_ne_true (hcall.symm.trans h.2)]

theorem connects_append (w : World proto) (calls more : List InnerConnect) :
    w.connects pton (calls ++ more) = (w.connects pton calls).connects pton more :=
  List.foldl_append

variable (pton) in
theorem captured_cons (w : World proto) (call : InnerConnect) (calls : List InnerConnect) :
    w.captured (call :: calls) = (w.connectOf pton call).2.captured calls := by
  rw [World.captured, World.captured, connectOf_statics]
  cases w.statics <;> rfl

variable (pton) in
/-- The client that a call sets the fields of is the one that was captured at the end. -/
theorem captured_append (w : World proto) (earlier : List InnerConnect) (call : InnerConnect)
    (later : List InnerConnect) :
    w.captured (earlier ++ call :: later) =
      some ((w.connects pton earlier).statics.getD call.1.client) := by
  induction earlier generalizing w with
  | nil =>
    rw [List.nil_append, World.captured, World.connects, List.foldl_nil]
    cases w.statics <;> rfl
  | cons first earlier ih =>
    rw [List.cons_append, captured_cons pton]
    exact ih _

/-- Calls set no field of another client than the one captured. -/
theorem connects_other {calls : List InnerConnect} (other : w.captured calls ≠ some c) :
    ((w.connects pton calls).clients c).fields = (w.clients c).fields := by
  induction calls generalizing w with
  | nil => rfl
  | cons call calls ih =>
    have hthis : w.statics.getD call.1.client ≠ c := by
      have hfirst := captured_append pton w [] call calls
      rw [List.nil_append] at hfirst
      rw [hfirst] at other
      exact fun heq => other (congrArg some heq)
    rw [captured_cons pton] at other
    refine (ih other).trans ?_
    rw [connectOf_fields, if_neg fun h => hthis h.1]

variable (pton) in
/-- The calls leave what went to `set_fields` last, in the client that was captured. -/
theorem connects_fields {calls : List InnerConnect} {addr : Option InAddressPort}
    {frame : ConnectArgs} (h : w.LastHanded pton calls addr frame) :
    ((w.connects pton calls).clients c).fields =
      if w.captured calls = some c then (addr, frame.callback) else (w.clients c).fields := by
  obtain ⟨earlier, final, later, rfl, succeeds, failed, rfl, rfl⟩ := h
  split_ifs with hcaptured
  · have hthis : (w.connects pton earlier).statics.getD final.1.client = c :=
      Option.some.inj ((captured_append pton w earlier final later).symm.trans hcaptured)
    have hsplit : w.connects pton (earlier ++ final :: later) =
        ((w.connects pton earlier).connectOf pton final).2.connects pton later :=
      connects_append w earlier (final :: later)
    rw [hsplit, connects_failed, connectOf_fields, if_pos ⟨hthis, succeeds⟩]
    intro middle call rest heq
    have hlast := failed middle call rest heq
    rw [connects_append] at hlast
    exact hlast
  · exact connects_other hcaptured

/-- Calls of which one returns true have a last one that does. -/
theorem lastHanded_exists {earlier later : List InnerConnect} {call : InnerConnect}
    (connected : ((w.connects pton earlier).connectOf pton call).1 = true) :
    ∃ addr frame, w.LastHanded pton (earlier ++ call :: later) addr frame := by
  induction hlength : later.length using Nat.strong_induction_on generalizing earlier call later with
  | _ n ih =>
    by_cases failed : ∀ middle next rest, later = middle ++ next :: rest →
        ((w.connects pton (earlier ++ call :: middle)).connectOf pton next).1 = false
    · exact ⟨_, _, earlier, call, later, rfl, connected, failed, rfl, rfl⟩
    · -- a later one returns true, and fewer come after it
      simp only [not_forall, Bool.not_eq_false] at failed
      obtain ⟨middle, next, rest, rfl, hnext⟩ := failed
      obtain ⟨addr, frame, hlast⟩ := ih rest.length (by simp at hlength; omega) hnext rfl
      exact ⟨addr, frame, by simpa using hlast⟩

variable (pton) (c) in
theorem trace_act (w : World proto) (op : ClientOp) (quiet : ∀ events, op ≠ .proceed events) :
    (w.act pton (fun _ => .ok ()) c op).2.trace = w.trace :=
  act_trace pton (fun _ => .ok ()) w quiet

theorem connects_trace (w : World proto) (calls : List InnerConnect) :
    (w.connects pton calls).trace = w.trace := by
  induction calls generalizing w with
  | nil => rfl
  | cons call calls ih =>
    have hcall : (w.connectOf pton call).2.trace = w.trace :=
      trace_act pton call.1.client w (.connect call.1.args call.1.ans call.2) (by simp)
    exact (ih _).trans hcall

/-! ### The handler -/

variable {user : ConnectingUser}

/-- A client whose callback was cleared. -/
def Client.clear (role : Role) (cl : Client proto) : Client proto :=
  match role with
  | .onConnect => { cl with onConnect := none }
  | .onReadReady => cl
  | .onDisconnect => { cl with onDisconnect := none }

theorem clear_callback {role : Role} (once : role.once = true) (cl : Client proto) (other : Role) :
    (cl.clear role).callback other = if other = role then none else cl.callback other := by
  cases role with
  | onReadReady => cases once
  | onConnect => cases other <;> rfl
  | onDisconnect => cases other <;> rfl

variable (pton) in
/-- A handler whose callback returns clears it. -/
theorem reinvoke_once {role : Role} (once : role.once = true) {func : Callback}
    (stored : (w.clients c).callback role = some func) {calls : List InnerConnect}
    (script : user (.callback c role func :: w.trace) = (calls, .ok ())) :
    (w.reinvoke pton user c role.handler (w.getFd c)).2 =
      ((w.entered c role func).connects pton calls).update c (Client.clear role) := by
  cases role with
  | onReadReady => cases once
  | onConnect =>
    have hstored : (w.clients c).onConnect = some func := stored
    simp only [World.reinvoke, World.invokeBy, Role.handler, hstored, World.callOnceBy,
      World.callBack, script]
    rfl
  | onDisconnect =>
    have hstored : ((w.delSocket c (w.getFd c)).clients c).onDisconnect = some func := stored
    have hscript : user (.callback c .onDisconnect func :: (w.delSocket c (w.getFd c)).trace) =
        (calls, .ok ()) := script
    simp only [World.reinvoke, World.invokeBy, Role.handler, hstored, World.callOnceBy,
      World.callBack, hscript]
    rfl

/-- An event that gets to a callback invokes it. -/
theorem reinvoke_trace {role : Role} {func : Callback}
    (stored : (w.clients c).callback role = some func) :
    (w.reinvoke pton user c role.handler (w.getFd c)).2.trace = .callback c role func :: w.trace := by
  have called (v : World proto) (inv : Invocation) :
      (v.callBack pton user inv).run.2.trace = inv :: v.trace := connects_trace _ _
  have cleared (v : World proto) (inv : Invocation) (clear : Client proto → Client proto) :
      (v.callOnceBy (World.callBack pton user) c inv clear).run.2.trace = inv :: v.trace := by
    have hcalled := called v inv
    simp only [World.callOnceBy, Id.run_bind]
    split
    · rename_i hcall
      rw [hcall] at hcalled
      exact hcalled
    · rename_i hcall
      rw [hcall] at hcalled
      exact hcalled
  cases role with
  | onConnect =>
    have hstored : (w.clients c).onConnect = some func := stored
    simp only [World.reinvoke, World.invokeBy, Role.handler, hstored]
    exact cleared _ _ _
  | onReadReady =>
    have hstored : (w.clients c).onReadReady = some func := stored
    simp only [World.reinvoke, World.invokeBy, Role.handler, hstored]
    exact called _ _
  | onDisconnect =>
    have hstored : ((w.delSocket c (w.getFd c)).clients c).onDisconnect = some func := stored
    simp only [World.reinvoke, World.invokeBy, Role.handler, hstored]
    exact cleared _ _ _

end

/-- The address and the callbacks of an inner `connect` are in force after the handler exactly when
the call passes nothing for the callback that runs, and what the last of the calls that returns true
handed to `set_fields`, or what the client had where the static lambdas captured another one, is its
address and its other callbacks. -/
theorem reconnect_inForce (user : ConnectingUser) {c : ClientId} {role : Role} {w : World proto}
    {func : Callback} {before : List InnerConnect} {inner : InnerConnect}
    {after : List InnerConnect} (h : Reconnects pton user c role w func before inner after) :
    ∃ addr frame, (w.entered c role func).LastHanded pton (before ++ inner :: after) addr frame ∧
      (InForce pton user c inner.1.args (w.reinvoke pton user c role.handler (w.getFd c)).2 ↔
        Survives pton c role w inner.1.args (w.captured (before ++ inner :: after)) addr frame) := by
  obtain ⟨addr, frame, hlast⟩ : ∃ addr frame, (w.entered c role func).LastHanded pton
      (before ++ inner :: after) addr frame := lastHanded_exists h.connected
  refine ⟨addr, frame, hlast, ?_⟩
  let calls := before ++ inner :: after
  let left := if w.captured calls = some c then (addr, frame.callback) else (w.clients c).fields
  have hout := reinvoke_once pton h.once h.stored h.calls
  have hfields : (((w.entered c role func).connects pton calls).clients c).fields = left := by
    have hleft := connects_fields (c := c) pton hlast
    cases role <;> exact hleft
  have hremote : (((w.reinvoke pton user c role.handler (w.getFd c)).2).clients c).remote =
      left.1 := by
    rw [hout, World.update_client, if_pos rfl, ← hfields]
    cases role <;> rfl
  have hcallback (other : Role) :
      (((w.reinvoke pton user c role.handler (w.getFd c)).2).clients c).callback other =
        if other = role then none else left.2 other := by
    rw [hout, World.update_client, if_pos rfl, clear_callback h.once, ← hfields]
    rfl
  constructor
  · rintro ⟨remote, callbacks, -⟩
    refine ⟨?_, hremote.symm.trans remote, fun other hother => ?_⟩
    · rw [← callbacks role, hcallback, if_pos rfl]
    · rw [← callbacks other, hcallback, if_neg hother]
  · rintro ⟨hnone, remote, hothers⟩
    have callbacks (other : Role) :
        (((w.reinvoke pton user c role.handler (w.getFd c)).2).clients c).callback other =
          inner.1.args.callback other := by
      rw [hcallback]
      split_ifs with hother
      · rw [hother, hnone]
      · exact hothers other hother
    exact ⟨hremote.trans remote, callbacks,
      fun other func' hfunc => reinvoke_trace ((callbacks other).trans hfunc)⟩

/-- A TCP client that is connected. -/
def connectedTcp : World tcp :=
  [ClientOp.start (.ok 3) true, .connect (loopbackArgs 80 1) (.ok ()) (loopbackArgs 80 1)].foldl
    (fun w op => (w.act loopbackPton (fun _ => .ok ()) 0 op).2) (.initial (fun _ => 2) fun _ => none)

/-- A call to another port, whose frame holds its own arguments. -/
def callAgain (args : ConnectArgs) : InnerConnect := (⟨0, args, .ok ()⟩, args)

def connectsAgain (args : ConnectArgs) : ConnectingUser := fun _ => ([callAgain args], .ok ())

theorem connectsAgain_reconnects {args : ConnectArgs} (role : Role) (once : role.once = true)
    (valid : (((connectedTcp.entered 0 role 1).connects loopbackPton []).connectOf loopbackPton
      (callAgain args)).1 = true) :
    Reconnects loopbackPton (connectsAgain args) 0 role connectedTcp 1 [] (callAgain args) [] where
  active := ⟨_, rfl⟩
  once := once
  stored := by cases role <;> rfl
  calls := rfl
  own := rfl
  connected := valid
  last middle call rest h := by simp at h

/-- `on_disconnect` connects once more, without an `on_disconnect`. -/
def onceMore : ConnectArgs := { loopbackArgs 81 4 with onDisconnect := none }

theorem reconnect_inForce_onceMore :
    ∃ addr frame, (connectedTcp.entered 0 .onDisconnect 1).LastHanded loopbackPton
        [callAgain onceMore] addr frame ∧
      (InForce loopbackPton (connectsAgain onceMore) 0 onceMore
          (connectedTcp.reinvoke loopbackPton (connectsAgain onceMore) 0 .erase 3).2 ↔
        Survives loopbackPton 0 .onDisconnect connectedTcp onceMore
          (connectedTcp.captured [callAgain onceMore]) addr frame) :=
  reconnect_inForce loopbackPton (connectsAgain onceMore)
    (connectsAgain_reconnects .onDisconnect rfl (by decide))

/-- `on_connect` connects once more: the handler clears the `on_connect` of that call. -/
theorem reconnect_cleared :
    Reconnects loopbackPton (connectsAgain (loopbackArgs 81 4)) 0 .onConnect connectedTcp 1 []
        (callAgain (loopbackArgs 81 4)) [] ∧
      ¬InForce loopbackPton (connectsAgain (loopbackArgs 81 4)) 0 (loopbackArgs 81 4)
        (connectedTcp.reinvoke loopbackPton (connectsAgain (loopbackArgs 81 4)) 0 .writeReady 3).2 :=
  ⟨connectsAgain_reconnects .onConnect rfl (by decide),
    fun h => absurd (h.callbacks .onConnect) (by decide)⟩

end TypedSockets.Endpoint
