import TypedSockets.Endpoint.Handlers
import TypedSockets.Endpoint.OnConnect
import TypedSockets.Socket.Transfer

/-! What one session of a client leaves to the next.  `stop` clears neither the remote address nor
the callbacks, and the next `start` registers the handlers that look at them. -/

namespace TypedSockets.Endpoint

open TypedSockets.Socket TypedSockets.Epoll TypedSockets.Lib

variable {proto : Proto} (pton : InetPton) (user : UserCode) (c : ClientId)

/-- A batch of the poll, a `send` or a `recv`. -/
inductive Exchange where
  | proceed (events : List Event)
  | send (data : List UInt8) (ans : Except Errno Nat)
  | recv (ans : Except Errno (List UInt8 × FilledAddr))

/-- `start` in its two forms. -/
inductive StartOp where
  | plain (ans : Except Errno Fd) (added : Bool)
  | atLocal (address : List UInt8) (port : UInt64) (ans : Except Errno Fd) (bound : Answer)
      (added : Bool)

inductive SessionOp where
  | call (op : ClientOp)
  | exchange (x : Exchange)

def StartOp.toOp : StartOp → ClientOp
  | plain ans added => .start ans added
  | atLocal address port ans bound added => .startLocal address port ans bound added

namespace World

/-- `send_impl`: what it returns, and the call that it issues. -/
def send (w : World proto) (data : List UInt8) (ans : Except Errno Nat) :
    Option Nat × Option SendCall × World proto :=
  match (w.clients c).state, (w.clients c).remote with
  | .active sock, some remote =>
    let (sent, call, k) := sock.send proto remote data ans w.kernel
    (sent, call, { w with kernel := k })
  | _, _ => (none, none, w)

/-- `recv_impl`. -/
def recv (w : World proto) (ans : Except Errno (List UInt8 × FilledAddr)) :
    Option (Option InAddressPort × List UInt8) × World proto :=
  match (w.clients c).state with
  | .active sock =>
    let (got, k) := sock.receive proto ans w.kernel
    (got.map fun got => (if proto.isConnectionless then got.1 else (w.clients c).remote, got.2),
      { w with kernel := k })
  | _ => (none, w)

def exchange (w : World proto) : Exchange → World proto
  | .proceed events => (w.proceed user c events).2
  | .send data ans => (w.send c data ans).2.2
  | .recv ans => (w.recv c ans).2

def session (w : World proto) : SessionOp → World proto
  | .call op => (w.act pton user c op).2
  | .exchange x => w.exchange user c x

/-- A client that was used, stopped and started again. -/
def restarted (w : World proto) (r1 : List SessionOp) (start : StartOp) : World proto :=
  (((r1.foldl (session pton user c) w).stop c).act pton user c start.toOp).2

def exchangeNext (w : World proto) (x : Exchange) : Option (World proto) :=
  some (w.exchange user c x)

end World

/-- A callback of a client, and not `m_unhandled`. -/
def Invocation.isCallback : Invocation → Bool
  | .callback _ _ _ => true
  | .unhandled _ _ _ => false

/-- The number of callbacks invoked. -/
def World.calls (w : World proto) : Nat := w.trace.countP Invocation.isCallback

/-- No callback is invoked, and nothing is sent. -/
def Silent (w : World proto) : Exchange → Prop
  | .proceed events => (w.exchange user c (.proceed events)).calls = w.calls
  | .send data ans => (w.send c data ans).1 = none ∧ (w.send c data ans).2.1 = none
  | .recv _ => True

/-- One of the handlers gets to a callback that is set.  That of `READ_READY` throws when there is
none, and the others do nothing. -/
def Reaches (cl : Client proto) : List ClientHandler → Prop
  | [] => False
  | .readReady :: _ => cl.onReadReady.isSome
  | .writeReady :: funcs => cl.onConnect.isSome ∨ Reaches cl funcs
  | .erase :: funcs => cl.onDisconnect.isSome ∨ Reaches cl funcs

/-- The socket and the address that `send` would use: an open one, and one of its family when the
protocol is connectionless. -/
def Sendable (cl : Client proto) : Prop :=
  ∃ sock remote, cl.state = .active sock ∧ cl.remote = some remote ∧ sock.impl.fd.isSome ∧
    (proto.isConnectionless = true →
      sock.impl.family = remote.addr.family ∧ remote.sockAddr.isSome)

/-- No event of the own descriptor gets to a callback that is set, and nothing can be sent. -/
def Harmless (w : World proto) : Exchange → Prop
  | .proceed events => ∀ event ∈ events, event.fd = w.getFd c →
      ¬Reaches (w.clients c) (handlersOf (w.clients c).handlers event)
  | .send _ _ => ¬Sendable (w.clients c)
  | .recv _ => True

/-! ### One event -/

section

variable {pton} {user} {c} {w : World proto}

/-- The world without the registrations. -/
def SameButPoll (w w' : World proto) : Prop := w' = { w with registered := w'.registered }

theorem SameButPoll.refl (w : World proto) : SameButPoll w w := rfl

theorem SameButPoll.clients {w w' : World proto} (h : SameButPoll w w') :
    w'.clients = w.clients := by
  rw [h]

theorem SameButPoll.calls {w w' : World proto} (h : SameButPoll w w') : w'.calls = w.calls := by
  rw [World.calls, h]
  rfl

theorem SameButPoll.trans {u v w : World proto} (h1 : SameButPoll u v) (h2 : SameButPoll v w) :
    SameButPoll u w := by
  unfold SameButPoll at *
  rw [h2, h1]

theorem calls_call (w : World proto) (inv : Invocation) :
    (w.call user inv).2.calls = w.calls + if inv.isCallback then 1 else 0 := by
  simp [World.call, World.calls, List.countP_cons]

theorem calls_callOnce (w : World proto) (i : ClientId) (inv : Invocation)
    (clear : Client proto → Client proto) :
    (w.callOnce user i inv clear).2.calls = (w.call user inv).2.calls := by
  rcases World.callOnce_cases user w i inv clear with h | h
  · rw [h]
    rfl
  · rw [h]

theorem calls_invoke (w : World proto) (func : ClientHandler) (fd : Fd) :
    w.calls ≤ (w.invoke user c func fd).2.calls := by
  unfold World.invoke
  split_ifs
  · cases func with
    | readReady =>
      simp only
      split
      · rw [calls_call]
        exact Nat.le_add_right _ _
      · exact le_rfl
    | _ =>
      simp only
      split
      · rw [calls_callOnce, calls_call]
        exact Nat.le_add_right _ _
      · exact le_rfl
  · exact le_rfl

/-- Handlers that get to no callback change at most the registration. -/
theorem attempt_silent {fd : Fd} {funcs : List ClientHandler} (hfd : fd = w.getFd c)
    (h : ¬Reaches (w.clients c) funcs) :
    SameButPoll w (attempt (onFd user c fd) funcs w).2 := by
  induction funcs generalizing w with
  | nil => exact .refl w
  | cons func funcs ih =>
    cases func with
    | readReady =>
      have hnone : (w.clients c).onReadReady = none := by simpa [Reaches] using h
      have hact : onFd user c fd .readReady w = (.error .badFunctionCall, w) := by
        simp [World.invoke, hfd, hnone]
      rw [attempt_error hact]
      exact .refl w
    | writeReady =>
      obtain ⟨hnone, hrest⟩ := not_or.mp h
      have hact : onFd user c fd .writeReady w = (.ok (), w) := by
        simp [World.invoke, hfd, Option.not_isSome_iff_eq_none.mp hnone]
      rw [attempt_ok hact]
      exact ih hfd hrest
    | erase =>
      obtain ⟨hnone, hrest⟩ := not_or.mp h
      have hdel : SameButPoll w (w.delSocket c fd) := rfl
      have hclient : ((w.delSocket c fd).clients c).onDisconnect = none :=
        Option.not_isSome_iff_eq_none.mp hnone
      have hact : onFd user c fd .erase w = (.ok (), w.delSocket c fd) := by
        simp only [World.invoke, if_pos hfd]
        rw [hclient]
      rw [attempt_ok hact]
      exact hdel.trans (ih hfd hrest)

theorem calls_attempt_le (w : World proto) (fd : Fd) (funcs : List ClientHandler) :
    w.calls ≤ (attempt (onFd user c fd) funcs w).2.calls :=
  attempt_induction (fun v : World proto => w.calls ≤ v.calls)
    (fun func _ v hv => hv.trans (calls_invoke v func fd)) le_rfl

theorem calls_attempt_lt {w : World proto} {fd : Fd} {func : ClientHandler}
    {funcs : List ClientHandler} (h : w.calls < (w.invoke user c func fd).2.calls) :
    w.calls < (attempt (onFd user c fd) (func :: funcs) w).2.calls := by
  rcases act_cases (onFd user c fd) func w with ⟨w', hact⟩ | ⟨e, w', hact⟩
  · rw [attempt_ok hact]
    rw [show w.invoke user c func fd = (.ok (), w') from hact] at h
    exact h.trans_le (calls_attempt_le w' fd funcs)
  · rw [attempt_error hact]
    rw [show w.invoke user c func fd = (.error e, w') from hact] at h
    exact h

/-- Handlers that get to a callback invoke one. -/
theorem attempt_calls {fd : Fd} {funcs : List ClientHandler} (hfd : fd = w.getFd c)
    (h : Reaches (w.clients c) funcs) :
    w.calls < (attempt (onFd user c fd) funcs w).2.calls := by
  induction funcs generalizing w with
  | nil => exact h.elim
  | cons func funcs ih =>
    cases func with
    | readReady =>
      obtain ⟨f, hf⟩ := Option.isSome_iff_exists.mp h
      refine calls_attempt_lt ?_
      simp only [World.invoke, if_pos hfd, hf, calls_call]
      exact Nat.lt_succ_self _
    | writeReady =>
      cases hcallback : (w.clients c).onConnect with
      | some f =>
        refine calls_attempt_lt ?_
        simp only [World.invoke, if_pos hfd, hcallback, calls_callOnce, calls_call]
        exact Nat.lt_succ_self _
      | none =>
        have hact : onFd user c fd .writeReady w = (.ok (), w) := by
          simp [World.invoke, hfd, hcallback]
        rw [attempt_ok hact]
        exact ih hfd (h.resolve_left (by simp [hcallback]))
    | erase =>
      cases hcallback : ((w.delSocket c fd).clients c).onDisconnect with
      | some f =>
        refine calls_attempt_lt ?_
        simp only [World.invoke, if_pos hfd, hcallback, calls_callOnce, calls_call]
        exact Nat.lt_succ_self _
      | none =>
        have hclient : (w.clients c).onDisconnect = none := hcallback
        have hrest : Reaches (w.clients c) funcs := h.resolve_left (by simp [hclient])
        have hact : onFd user c fd .erase w = (.ok (), w.delSocket c fd) := by
          simp only [World.invoke, if_pos hfd]
          rw [hcallback]
        rw [attempt_ok hact]
        exact @ih (w.delSocket c fd) hfd hrest

/-! ### One batch -/

/-- The event gets to no callback that is set. -/
def HarmlessEvent (c : ClientId) (w : World proto) (event : Event) : Prop :=
  event.fd = w.getFd c → ¬Reaches (w.clients c) (handlersOf (w.clients c).handlers event)

variable (user) in
theorem handleEvent_silent (h : Registered c w) {event : Event} (hsafe : HarmlessEvent c w event) :
    SameButPoll w (handleEvent (World.invoke user c) (w.clients c).handlers event w).2 := by
  rw [handleEvent_run h]
  by_cases hfd : event.fd = w.getFd c
  · exact attempt_silent hfd (hsafe hfd)
  · rw [attempt_other hfd]
    exact .refl w

variable (user) in
theorem handleEvent_calls (h : Registered c w) {event : Event} (hsafe : ¬HarmlessEvent c w event) :
    w.calls < (handleEvent (World.invoke user c) (w.clients c).handlers event w).2.calls := by
  rw [handleEvent_run h]
  obtain ⟨hfd, hreaches⟩ := Classical.not_imp.mp hsafe
  exact attempt_calls hfd (not_not.mp hreaches)

theorem calls_handleEvents (table : Handlers ClientHandler) (events : List Event)
    (w : World proto) : w.calls ≤ (handleEvents (World.invoke user c) table events w).2.calls := by
  refine handleEvents_induction (fun v : World proto => w.calls ≤ v.calls) ?_ le_rfl
  intro event _ v hv
  refine handleEvent_induction (fun v : World proto => w.calls ≤ v.calls) ?_ hv
  exact fun _ func _ v hv => hv.trans (calls_invoke v func event.fd)

theorem harmlessEvent_congr {v : World proto} (h : v.clients = w.clients) (event : Event) :
    HarmlessEvent c v event ↔ HarmlessEvent c w event := by
  simp only [HarmlessEvent, World.getFd, h]

variable (user) in
/-- Events that get to no callback leave the clients as they were. -/
theorem handleEvents_silent {table : Handlers ClientHandler} (htable : (w.clients c).handlers = table)
    (h : Registered c w) {events : List Event} (hsafe : ∀ event ∈ events, HarmlessEvent c w event) :
    SameButPoll w (handleEvents (World.invoke user c) table events w).2 := by
  induction events generalizing w with
  | nil => exact .refl w
  | cons event events ih =>
    obtain ⟨hevent, hrest⟩ := List.forall_mem_cons.mp hsafe
    have hsame := handleEvent_silent user h hevent
    rw [htable] at hsame
    have hclients := hsame.clients
    refine hsame.trans (ih ?_ (registered_congr h (by rw [hclients])) fun e he => ?_)
    · rw [hclients, htable]
    · exact (harmlessEvent_congr hclients e).mpr (hrest e he)

/-- A callback that an event gets to is invoked by the end of the batch. -/
theorem handleEvents_calls {table : Handlers ClientHandler} (htable : (w.clients c).handlers = table)
    (h : Registered c w) {events : List Event}
    (hsafe : ¬∀ event ∈ events, HarmlessEvent c w event) :
    w.calls < (handleEvents (World.invoke user c) table events w).2.calls := by
  induction events generalizing w with
  | nil => simp at hsafe
  | cons event events ih =>
    have hrun : (handleEvents (World.invoke user c) table (event :: events) w).2 =
        (handleEvents (World.invoke user c) table events
          (handleEvent (World.invoke user c) table event w).2).2 := rfl
    rw [hrun]
    by_cases hevent : HarmlessEvent c w event
    · have hsame := handleEvent_silent user h hevent
      rw [htable] at hsame
      have hclients := hsame.clients
      rw [← hsame.calls]
      refine ih (by rw [hclients, htable]) (registered_congr h (by rw [hclients])) fun hall => ?_
      refine hsafe (List.forall_mem_cons.mpr ⟨hevent, fun e he => ?_⟩)
      exact (harmlessEvent_congr hclients e).mp (hall e he)
    · have hlt := handleEvent_calls user h hevent
      rw [htable] at hlt
      exact hlt.trans_le (calls_handleEvents _ events _)

variable (user) in
/-- A batch invokes no callback exactly when none of its events gets to one. -/
theorem handleEvents_silent_iff (h : Registered c w) (events : List Event) :
    (handleEvents (World.invoke user c) (w.clients c).handlers events w).2.calls = w.calls ↔
      ∀ event ∈ events, HarmlessEvent c w event := by
  constructor
  · intro hcalls
    by_contra hsafe
    exact (handleEvents_calls rfl h hsafe).ne' hcalls
  · exact fun hsafe => (handleEvents_silent user rfl h hsafe).calls

theorem calls_proceed (w : World proto) (events : List Event) :
    (w.proceed user c events).2.calls =
      (handleEvents (World.invoke user c) (w.clients c).handlers events w).2.calls := by
  rcases proceed_cases user c w events with h | ⟨func, missed, h⟩
  · rw [h]
  · rw [h, calls_call]
    rfl

/-! ### Sending -/

theorem send_silent_iff (w : World proto) (data : List UInt8) (ans : Except Errno Nat) :
    ((w.send c data ans).1 = none ∧ (w.send c data ans).2.1 = none) ↔
      ¬Sendable (w.clients c) := by
  unfold World.send Sendable
  cases hstate : (w.clients c).state with
  | active sock =>
    cases hremote : (w.clients c).remote with
    | none => simp
    | some remote =>
      refine (sock.send_refused_iff proto remote data ans w.kernel).trans (not_congr ?_)
      constructor
      · rintro ⟨hfd, hfamily⟩
        exact ⟨sock, remote, rfl, rfl, hfd, hfamily⟩
      · rintro ⟨_, _, ⟨⟩, ⟨⟩, hfd, hfamily⟩
        exact ⟨hfd, hfamily⟩
  | _ => simp

/-- A step is silent exactly when it is harmless. -/
theorem silent_iff (h : Registered c w) (x : Exchange) : Silent user c w x ↔ Harmless c w x := by
  cases x with
  | proceed events =>
    have hiff := handleEvents_silent_iff user h events
    rw [← calls_proceed] at hiff
    exact hiff
  | send data ans => exact send_silent_iff w data ans
  | recv ans => exact Iff.rfl

/-! ### Runs -/

theorem exchange_clients (w : World proto) (x : Exchange) (i : ClientId) :
    ((w.exchange user c x).clients i).handlers = (w.clients i).handlers := by
  cases x with
  | proceed events => exact (World.Calm.proceed user c w events).handlers i
  | send data ans =>
    simp only [World.exchange, World.send]
    split <;> rfl
  | recv ans =>
    simp only [World.exchange, World.recv]
    split <;> rfl

theorem registered_session (h : Registered c w) (op : SessionOp) :
    Registered c (w.session pton user c op) := by
  cases op with
  | call op => exact registered_act pton user h op
  | exchange x => exact registered_congr h (exchange_clients w x c)

theorem registered_restarted (h : Registered c w) (r1 : List SessionOp) (start : StartOp) :
    Registered c (w.restarted pton user c r1 start) := by
  have hr1 : Registered c (r1.foldl (World.session pton user c) w) := by
    induction r1 generalizing w with
    | nil => exact h
    | cons op r1 ih => exact ih (registered_session h op)
  have hdel : Registered c ((r1.foldl (World.session pton user c) w).delSocket c
      ((r1.foldl (World.session pton user c) w).getFd c)) := hr1
  exact registered_act pton user
    (registered_unregisterCbs (registered_setState hdel (.idle none))) start.toOp

/-- A client that no `connect` succeeded on. -/
structure Blank (cl : Client proto) : Prop where
  remote : cl.remote = none
  onConnect : cl.onConnect = none
  onReadReady : cl.onReadReady = none
  onDisconnect : cl.onDisconnect = none

theorem Blank.not_reaches {cl : Client proto} (h : Blank cl) (funcs : List ClientHandler) :
    ¬Reaches cl funcs := by
  induction funcs with
  | nil => exact id
  | cons func funcs ih =>
    cases func <;> simp [Reaches, h.onConnect, h.onReadReady, h.onDisconnect, ih]

theorem Blank.harmless (h : Blank (w.clients c)) (x : Exchange) : Harmless c w x := by
  cases x with
  | proceed events => exact fun event _ _ => h.not_reaches _
  | send data ans =>
    rintro ⟨sock, remote, -, hremote, -⟩
    rw [h.remote] at hremote
    cases hremote
  | recv ans => trivial

theorem blank_exchange (h : Registered c w) (hblank : Blank (w.clients c)) (x : Exchange) :
    Blank ((w.exchange user c x).clients c) := by
  cases x with
  | proceed events =>
    have hsafe : ∀ event ∈ events, HarmlessEvent c w event := hblank.harmless (.proceed events)
    have hclients := (handleEvents_silent user rfl h hsafe).clients
    have hproceed : (w.proceed user c events).2.clients = w.clients := by
      rcases proceed_cases user c w events with heq | ⟨func, missed, heq⟩
      · rw [heq, hclients]
      · rw [heq]
        exact hclients
    simp only [World.exchange, hproceed]
    exact hblank
  | send data ans =>
    simp only [World.exchange, World.send]
    split <;> exact hblank
  | recv ans =>
    simp only [World.exchange, World.recv]
    split <;> exact hblank

theorem silent_run_iff (h : Registered c w) (xs : List Exchange) :
    Along (World.exchangeNext user c) (Silent user c) w xs ↔
      Along (World.exchangeNext user c) (Harmless c) w xs := by
  refine along_iff (fun (w : World proto) x (h : Registered c w) => silent_iff h x) ?_ h xs
  intro w x w' h _ hstep
  cases hstep
  exact registered_congr h (exchange_clients w x c)

theorem blank_started (hblank : Blank (w.clients c)) (start : StartOp) :
    Blank ((w.act pton user c start.toOp).2.clients c) := by
  have started (k : Kernel) (fd : Fd) (added : Bool) (new : ClientState proto) :
      Blank ((((({ w with kernel := k } : World proto).registerCbs c).addSocket c fd .readWrite
        added).setState c new).clients c) := by
    constructor <;> cases added <;> simp [World.registerCbs, World.addSocket, hblank.remote,
      hblank.onConnect, hblank.onReadReady, hblank.onDisconnect]
  cases start with
  | plain ans added =>
    simp only [StartOp.toOp, World.act, World.start]
    split_ifs
    · split
      · exact started _ _ added _
      · exact hblank
    · exact hblank
  | atLocal address port ans bound added =>
    simp only [StartOp.toOp, World.act, World.startLocal]
    split_ifs
    · split
      · split
        · exact started _ _ added _
        · exact hblank
      · exact hblank
    · exact hblank

/-- A client just constructed and started invokes no callback and sends nothing before `connect`. -/
theorem fresh_silent (pton : InetPton) (user : UserCode) (c : ClientId) (af : ClientId → Int)
    (unhandled : ClientId → Option Callback) (start : StartOp) (xs : List Exchange) :
    Along (World.exchangeNext user c) (Silent user c)
      ((World.initial af unhandled : World proto).act pton user c start.toOp).2 xs := by
  have hregistered : Registered c (World.initial af unhandled : World proto) := by
    intro tp func hfunc
    cases hfunc
  have hblank : Blank ((World.initial af unhandled : World proto).clients c) := ⟨rfl, rfl, rfl, rfl⟩
  refine Along.of_inv (fun w x w' (h : Registered c w ∧ Blank (w.clients c)) hstep => ?_)
    (fun w x h => (silent_iff h.1 x).mpr (h.2.harmless x))
    ⟨registered_act pton user hregistered start.toOp, blank_started hblank start⟩ xs
  cases hstep
  exact ⟨registered_congr h.1 (exchange_clients w x c), blank_exchange h.1 h.2 x⟩

end

/-- After any use of a client, `stop` and `start`, a run without `connect` invokes no callback and
sends nothing exactly when none of its events gets to a callback that is still set, and no `send`
finds an active socket with a remote address. -/
theorem restart_silent_iff (af : ClientId → Int) (unhandled : ClientId → Option Callback)
    (r1 : List SessionOp) (start : StartOp) (r2 : List Exchange) :
    let restarted : World proto := (World.initial af unhandled).restarted pton user c r1 start
    Along (World.exchangeNext user c) (Silent user c) restarted r2 ↔
      Along (World.exchangeNext user c) (Harmless c) restarted r2 := by
  refine silent_run_iff (registered_restarted ?_ r1 start) r2
  intro tp func hfunc
  cases hfunc

/-- A UDP client that was bound and connected is bound again. -/
def restartedUdp : World udp :=
  (World.initial (fun _ => 2) fun _ => none).restarted loopbackPton (fun _ => .ok ()) 0
    [.call (.startLocal (loopbackArgs 70 1).remoteAddress 70 (.ok 3) (.ok ()) true),
      .call (.connect (loopbackArgs 80 1) (.ok ()) (loopbackArgs 80 1))]
    (.atLocal (loopbackArgs 70 1).remoteAddress 70 (.ok 3) (.ok ()) true)

/-- The `on_connect` of the first session is invoked. -/
theorem restartedUdp_not_silent :
    ¬Along (World.exchangeNext (fun _ => .ok ()) 0) (Silent (fun _ => .ok ()) 0) restartedUdp
      [.proceed [⟨3, .writeReady⟩], .send [1] (.ok 1)] := by
  rintro ⟨hcalls, -⟩
  have hcalls : _ = restartedUdp.calls := hcalls
  exact absurd hcalls (by decide)

end TypedSockets.Endpoint
