import TypedSockets.App.ClientMain
import TypedSockets.Endpoint.EmptyCall
import TypedSockets.Endpoint.Session
import TypedSockets.Socket.Past

/-! The main loop of the client program, from `init` on: no exception ends it, only a loop of
`on_read_ready` that never does, and "disconnect" is printed once at most. -/

namespace TypedSockets.App

open TypedSockets.Socket TypedSockets.Epoll TypedSockets.Endpoint TypedSockets.Lib

variable {proto : Proto}

namespace ClientMain

/-- The poll reports a descriptor once at most. -/
def OncePerFd (t : ClientTurn) : Prop := (t.events.map Event.fd).Nodup

/-- The poll reports nothing but what it observes. -/
def Observed (s : ClientMain proto) (t : ClientTurn) : Prop :=
  OncePerFd t ∧ ∀ event ∈ t.events, (s.world.registered 0 event.fd).isSome

/-- "disconnect" was printed once at most. -/
def DisconnectsOnce (s : ClientMain proto) : Prop := s.printed.count .disconnect ≤ 1

/-- After "disconnect" no response is printed. -/
def DisconnectsLast (s : ClientMain proto) : Prop :=
  ∀ after before, s.printed = after ++ .disconnect :: before →
    ∀ text, Printed.response text ∉ after

/-- The client has its socket, its handlers and its functions. -/
structure Running (w : World proto) : Prop where
  active : ∃ sock, (w.clients 0).state = .active sock ∧
    sock.impl.fd.isSome ∧ sock.impl.family = AfInet.ipv4.toInt
  handlers : Registered 0 w
  all : AllRegistered 0 w
  onReadReady : (w.clients 0).onReadReady = some onReadReady
  unhandled : (w.clients 0).unhandled = none

section

variable {w : World proto}

/-! ### `init` -/

/-- The socket in the state. -/
def implOf : ClientState proto → Option SocketImpl
  | .active sock => some sock.impl
  | state => unconnected state

/-- A client that `start` has given its socket and its handlers. -/
structure Started (w : World proto) : Prop where
  socket : ∃ impl, implOf (w.clients 0).state = some impl ∧
    impl.fd.isSome ∧ impl.family = AfInet.ipv4.toInt
  handlers : Registered 0 w
  all : AllRegistered 0 w
  unhandled : (w.clients 0).unhandled = none
  statics : w.statics = none
  trace : w.trace = []

theorem registered_constructed : Registered 0 (constructed proto) := fun _ _ h => (by cases h)

/-- What `start` does after it made the socket. -/
theorem started_put (k : Kernel) (fd : Fd) (added : Bool) {new : ClientState proto}
    {impl : SocketImpl} (himpl : implOf new = some impl) (hfd : impl.fd.isSome)
    (hfamily : impl.family = AfInet.ipv4.toInt) :
    Started ((((({ constructed proto with kernel := k } : World proto).registerCbs 0).addSocket 0 fd
      .readWrite added).setState 0 new)) := by
  refine ⟨⟨impl, ?_, hfd, hfamily⟩, registered_started registered_constructed k fd added new,
    allRegistered_started registered_constructed k fd added new, ?_, ?_, ?_⟩
  · simpa using himpl
  all_goals cases added <;> simp [World.addSocket, World.registerCbs, constructed, World.initial,
    World.setState, World.update]

theorem createBound_made {local_ : InAddressPort} {ans : Except Errno Fd} {bound : Answer}
    {k : Kernel} {state : ClientState proto}
    (h : (World.createBound proto AfInet.ipv4.toInt local_ ans bound k).1 = some state) :
    ∃ impl, implOf state = some impl ∧ impl.fd.isSome ∧ impl.family = AfInet.ipv4.toInt := by
  unfold World.createBound at h
  split at h
  · rename_i sock k1 hcreate
    obtain ⟨fd, -, -, -, rfl⟩ := SocketT.create_eq proto _ (congrArg Prod.fst hcreate)
    split at h
    · obtain ⟨b, hb, rfl⟩ := Option.map_eq_some_iff.mp h
      refine ⟨b.impl, rfl, ?_⟩
      rw [SocketT.bind_impl (Option.mem_def.mpr hb)]
      exact ⟨rfl, rfl⟩
    · obtain ⟨a, ha, rfl⟩ := Option.map_eq_some_iff.mp h
      refine ⟨a.impl, rfl, ?_⟩
      rw [SocketT.bindConnectionless_impl (Option.mem_def.mpr ha)]
      exact ⟨rfl, rfl⟩
  · cases h

theorem started_start {ans : Except Errno Fd} {added : Bool}
    (h : ((constructed proto).start 0 ans added).1 = true) :
    Started ((constructed proto).start 0 ans added).2 := by
  unfold World.start at h ⊢
  split_ifs at h ⊢
  split at h <;> rename_i hcreate
  · obtain ⟨fd, -, -, -, rfl⟩ := SocketT.create_eq proto _ (congrArg Prod.fst hcreate)
    exact started_put _ _ added rfl rfl rfl
  · cases h

theorem started_startLocal {pton : InetPton} {address : List UInt8} {port : UInt64}
    {ans : Except Errno Fd} {bound : Answer} {added : Bool}
    (h : ((constructed proto).startLocal pton 0 address port ans bound added).1 = true) :
    Started ((constructed proto).startLocal pton 0 address port ans bound added).2 := by
  unfold World.startLocal at h ⊢
  split_ifs at h ⊢
  split at h
  · split at h <;> rename_i hcreate
    · obtain ⟨impl, himpl, hfd, hfamily⟩ := createBound_made (congrArg Prod.fst hcreate)
      exact started_put _ _ added himpl hfd hfamily
    · cases h
  · cases h

theorem connectSock_held {state left : ClientState proto} {addr : InAddressPort} {ans : Answer}
    {k k' : Kernel} {sock : ActiveSocket}
    (h : World.connectSock state addr ans k = (some sock, left, k')) :
    unconnected state = some sock.impl := by
  rcases connectSock_cases state addr ans k with
    ⟨impl, sock', left', held, himpl, -, -, hsock⟩ | ⟨impl, -, -, hsock⟩ | ⟨-, hsock⟩ <;>
    rw [hsock] at h <;> cases h
  exact himpl ▸ held

theorem connectOwn_connected {cl : Client proto} {pton : InetPton} {args : ConnectArgs}
    {ans : Answer} {k : Kernel} (h : (connectOwn pton cl args ans k).1 = true) :
    ∃ addr sock, fromStringAndPort pton args.remoteAddress args.remotePort = some addr ∧
      (connectOwn pton cl args ans k).2.1 = connectedClient cl args addr sock ∧
      implOf cl.state = some sock.impl := by
  cases hparsed : fromStringAndPort pton args.remoteAddress args.remotePort with
  | none => simp [connectOwn, hparsed] at h
  | some addr =>
    refine ⟨addr, ?_⟩
    by_cases hactive : ∃ sock, cl.state = .active sock
    · obtain ⟨sock, hactive⟩ := hactive
      exact ⟨sock, rfl, by simp [connectOwn, hparsed, hactive], by rw [hactive]; rfl⟩
    · have inactive : ∀ sock, cl.state ≠ .active sock := fun sock heq => hactive ⟨sock, heq⟩
      by_cases hidle : (cl.state.isIdle && proto.isConnectionless) = true
      · unfold connectOwn at h
        rw [hparsed] at h
        cases hstate : cl.state with
        | active sock => exact absurd hstate (inactive sock)
        | _ => simp_all
      · have hown : connectOwn pton cl args ans k = _ :=
          connectOwn_inactive inactive (by simpa using hidle) hparsed
        rw [hown] at h ⊢
        rcases hsock : World.connectSock cl.state addr ans k with ⟨_ | sock, left, k'⟩ <;>
          rw [hsock] at h
        · cases h
        · refine ⟨sock, rfl, rfl, ?_⟩
          have held := connectSock_held hsock
          cases hstate : cl.state with
          | active sock => exact absurd hstate (inactive sock)
          | _ => rwa [hstate] at held

/-- What `connect` makes of a client that it succeeds on. -/
theorem connect_called {w : World proto} (h : Started w) {pton : InetPton} {port : UInt64}
    {ans : Answer} {dead : ConnectArgs}
    (connects : (w.connect pton 0 (connectArgs port) ans dead).1 = true) :
    ∃ addr sock, fromStringAndPort pton loopbackText port = some addr ∧
      (w.connect pton 0 (connectArgs port) ans dead).2.clients 0 =
        connectedClient (w.clients 0) (connectArgs port) addr sock ∧
      implOf (w.clients 0).state = some sock.impl := by
  have hexact : Exact pton w _ ⟨0, connectArgs port, ans⟩ _ :=
    exact_of_fresh (fun later => absurd later (by rw [h.statics]; simp)) dead
  obtain ⟨addr, sock, hparsed, hcalled, hsock⟩ :=
    connectOwn_connected (hexact.result.symm.trans connects)
  exact ⟨addr, sock, hparsed, hexact.called.trans hcalled, hsock⟩

/-- A client that `connect` succeeds on has the functions that it was given. -/
theorem connect_running {w : World proto} (h : Started w) {pton : InetPton} {port : UInt64}
    {ans : Answer} {dead : ConnectArgs}
    (connects : (w.connect pton 0 (connectArgs port) ans dead).1 = true) :
    Running (w.connect pton 0 (connectArgs port) ans dead).2 := by
  obtain ⟨impl, himpl, hfd, hfamily⟩ := h.socket
  obtain ⟨addr, sock, -, hcalled, hsock⟩ := connect_called h connects
  obtain rfl : impl = sock.impl := Option.some.inj (himpl.symm.trans hsock)
  have hhandlers := @World.connect_handlers proto pton w 0 0 (connectArgs port) ans dead
  refine ⟨⟨sock, congrArg Client.state hcalled, hfd, hfamily⟩,
    registered_congr h.handlers hhandlers, allRegistered_congr h.all hhandlers,
    congrArg Client.onReadReady hcalled, (congrArg Client.unhandled hcalled).trans h.unhandled⟩

/-- `init` succeeds on a client that `connect` succeeds on once it is started. -/
theorem init_connects {pton : InetPton} {port : UInt64} {localPort : Option UInt64}
    {ans : Except Errno Fd} {bound : Answer} {added : Bool} {connected : Answer}
    (h : (init pton proto port localPort ans bound added connected).1 = true) :
    ∃ w : World proto, Started w ∧
      (w.connect pton 0 (connectArgs port) connected (connectArgs port)).1 = true ∧
      (init pton proto port localPort ans bound added connected).2 =
        (w.connect pton 0 (connectArgs port) connected (connectArgs port)).2 := by
  unfold init at h ⊢
  cases localPort with
  | none =>
    simp only at h ⊢
    split_ifs at h ⊢ with hstarted
    exact ⟨_, started_start hstarted, h, rfl⟩
  | some localPort =>
    simp only at h ⊢
    split_ifs at h ⊢ with hstarted
    exact ⟨_, started_startLocal hstarted, h, rfl⟩

theorem init_running {pton : InetPton} {port : UInt64} {localPort : Option UInt64}
    {ans : Except Errno Fd} {bound : Answer} {added : Bool} {connected : Answer}
    (h : (init pton proto port localPort ans bound added connected).1 = true) :
    Running (init pton proto port localPort ans bound added connected).2 := by
  obtain ⟨w, hstarted, hconnects, hw⟩ := init_connects h
  rw [hw]
  exact connect_running hstarted hconnects

/-- The client sends to the address that it was given. -/
theorem init_remote {pton : InetPton} {port : UInt64} {localPort : Option UInt64}
    {ans : Except Errno Fd} {bound : Answer} {added : Bool} {connected : Answer}
    (h : (init pton proto port localPort ans bound added connected).1 = true) :
    ((init pton proto port localPort ans bound added connected).2.clients 0).remote =
      fromStringAndPort pton loopbackText port := by
  obtain ⟨w, hstarted, hconnects, hw⟩ := init_connects h
  obtain ⟨addr, sock, hparsed, hcalled, -⟩ := connect_called hstarted hconnects
  rw [hw, hcalled, hparsed]
  rfl

/-! ### A batch -/

/-- A handler throws nothing while `on_read_ready` is set. -/
theorem invoke_able (h : (w.clients 0).onReadReady.isSome) (func : ClientHandler) (fd : Fd) :
    (w.invoke user 0 func fd).1 = .ok () := by
  obtain ⟨callback, hcallback⟩ := Option.isSome_iff_exists.mp h
  unfold World.invoke
  split_ifs
  · cases func with
    | erase =>
      simp only
      split
      · simp [World.callOnce, World.call, user]
      · rfl
    | readReady => simp [hcallback, World.call, user]
    | writeReady =>
      simp only
      split
      · simp [World.callOnce, World.call, user]
      · rfl
  · rfl

theorem handleEventTypes_able (table : Handlers ClientHandler) (event : Event)
    (tps : List EventType) (found : Bool) (h : (w.clients 0).onReadReady.isSome) :
    (handleEventTypes (World.invoke user 0) table event tps found w).1.2 = none := by
  induction tps generalizing found w with
  | nil => rfl
  | cons tp tps ih =>
    rw [handleEventTypes_cons, handleEventType]
    cases table (event.type &&& tp) with
    | none => exact ih _ h
    | some func =>
      have hok := invoke_able h func event.fd
      have hsame := invoke_onReadReady user (c := 0) func event.fd w
      rcases hout : w.invoke user 0 func event.fd with ⟨_ | _, v⟩ <;> rw [hout] at hok hsame
      · cases hok
      · simp only [hout]
        exact ih _ (by rwa [hsame])

theorem handleEvents_able (table : Handlers ClientHandler) (events : List Event)
    (h : (w.clients 0).onReadReady.isSome) :
    (handleEvents (World.invoke user 0) table events w).1.2 = [] := by
  induction events generalizing w with
  | nil => rfl
  | cons event events ih =>
    have hnone := handleEventTypes_able table event dispatchOrder false h
    have hsome : ((handleEvent (World.invoke user 0) table event w).2.clients 0).onReadReady.isSome :=
      handleEvent_induction (fun v : World proto => (v.clients 0).onReadReady.isSome)
        (fun _ func _ v hv => by rwa [invoke_onReadReady]) h
    have hrest := ih hsome
    simp only [handleEvents, handleEvent] at hnone hrest ⊢
    rw [hnone, hrest]
    rfl

/-- A batch of the client program throws nothing, and calls what its own events call. -/
theorem proceed_running (h : Running w) (events : List Event) :
    w.proceed user 0 events = (.ok !events.isEmpty,
      (handleEvents (World.invoke user 0) (w.clients 0).handlers (w.ownEvents 0 events) w).2) := by
  have hnone := handleEvents_able (w.clients 0).handlers events
    (by rw [h.onReadReady]; rfl)
  rw [handleEvents_own]
  simp only [World.proceed, Endpoint.proceed, h.unhandled, Option.map_none, handleUnhandled, hnone]
  rfl

theorem callOnce_unhandled (inv : Invocation) {clear : Client proto → Client proto}
    (h : ∀ cl, (clear cl).unhandled = cl.unhandled) :
    ((w.callOnce user 0 inv clear).2.clients 0).unhandled = (w.clients 0).unhandled := by
  rcases World.callOnce_cases user w 0 inv clear with heq | heq <;> rw [heq]
  · rw [World.update_client, if_pos rfl, h]
    rfl
  · rfl

theorem invoke_keepsUnhandled (func : ClientHandler) (fd : Fd) :
    ((w.invoke user 0 func fd).2.clients 0).unhandled = (w.clients 0).unhandled := by
  unfold World.invoke
  split_ifs
  · cases func <;> simp only
    · split
      · exact callOnce_unhandled _ fun _ => rfl
      · rfl
    · split <;> rfl
    · split
      · exact callOnce_unhandled _ fun _ => rfl
      · rfl
  · rfl

theorem running_handled (h : Running w) (events : List Event) :
    Running (handleEvents (World.invoke user 0) (w.clients 0).handlers events w).2 := by
  have calm : World.Calm w
      (handleEvents (World.invoke user 0) (w.clients 0).handlers events w).2 :=
    handleEvents_induction (World.Calm w) (fun event _ u hu => handleEvent_induction (World.Calm w)
      (fun _ func _ v hv => hv.trans (.invoke func event.fd v)) hu) (.refl w)
  have keeps (f : Client proto → Option Callback)
      (hf : ∀ func fd (v : World proto), f ((v.invoke user 0 func fd).2.clients 0) = f (v.clients 0)) :
      f ((handleEvents (World.invoke user 0) (w.clients 0).handlers events w).2.clients 0) =
        f (w.clients 0) :=
    handleEvents_induction (fun v : World proto => f (v.clients 0) = f (w.clients 0))
      (fun event _ u hu => handleEvent_induction (fun v : World proto => f (v.clients 0) =
        f (w.clients 0)) (fun _ func _ v hv => (hf func event.fd v).trans hv) hu) rfl
  refine ⟨?_, registered_congr h.handlers (calm.handlers 0),
    allRegistered_congr h.all (calm.handlers 0), ?_, ?_⟩
  · rw [calm.state 0]
    exact h.active
  · exact (keeps Client.onReadReady (invoke_onReadReady user)).trans h.onReadReady
  · exact (keeps Client.unhandled fun func fd v => invoke_keepsUnhandled func fd).trans h.unhandled

/-- What is sent or received leaves the client as it is. -/
theorem running_kernel (h : Running w) (k : Kernel) : Running { w with kernel := k } :=
  ⟨h.active, h.handlers, h.all, h.onReadReady, h.unhandled⟩

theorem Running.recvI (h : Running w) : (recvI w).reads = true ∧ (recvI w).constant = none := by
  obtain ⟨sock, hstate, hfd, hfamily⟩ := h.active
  unfold ClientMain.recvI
  rw [hstate]
  exact ⟨by simp [RecvI.reads, hfd, hfamily], rfl⟩

/-! ### What an own event calls -/

theorem callsOf_append {w' : World proto} {calls : List Invocation}
    (h : w'.trace = calls ++ w.trace) : callsOf w w' = calls.reverse := by
  rw [callsOf, h, List.length_append, Nat.add_sub_cancel, List.take_left]

/-- An own event calls `on_read_ready`, `on_connect` and `on_disconnect`, in this order. -/
theorem callsOf_event (h : Running w) {event : Event} (hfd : event.fd = w.getFd 0) :
    callsOf w (handleEvents (World.invoke user 0) (w.clients 0).handlers [event] w).2 =
      readCall 0 w event ++ connectCall 0 w event ++ disconnectCall 0 w event := by
  have hread : readThrows user 0 w event = false := by
    simp [readThrows, h.onReadReady, user]
  have hconnect : connectThrows user 0 w event = false := by
    simp [connectThrows, user, Except.isOk, Except.toBool]
  have htrace := event_trace user h.handlers h.all hfd
  rw [hread, hconnect, if_neg Bool.false_ne_true, if_neg Bool.false_ne_true,
    ← List.append_assoc] at htrace
  have hsingle (calls : List Invocation) (hlength : calls.length ≤ 1) : calls.reverse = calls := by
    rcases calls with _ | ⟨call, _ | ⟨call', calls⟩⟩
    · rfl
    · rfl
    · simp at hlength
  refine (callsOf_append htrace).trans ?_
  have hcalls (has : Bool) (role : Role) (func : Option Callback) :
      (if has then (func.map (Invocation.callback 0 role)).toList else []).length ≤ 1 := by
    cases has <;> cases func <;> simp
  rw [List.reverse_append, List.reverse_append, hsingle (readCall 0 w event) (hcalls _ _ _),
    hsingle (connectCall 0 w event) (hcalls _ _ _),
    hsingle (disconnectCall 0 w event) (hcalls _ _ _), List.append_assoc]

/-- What is printed for calls of `on_disconnect`. -/
def farewell (calls : List Invocation) : List Printed := if calls = [] then [] else [.disconnect]

theorem fold_event (event : Event) (s : ClientMain proto × Rx) :
    (readCall 0 w event ++ connectCall 0 w event ++ disconnectCall 0 w event).foldlM called s =
      ((readCall 0 w event).foldlM called s).map fun out =>
        ({ out.1 with printed := farewell (disconnectCall 0 w event) ++ out.1.printed }, out.2) := by
  have hconnect (s : ClientMain proto × Rx) : (connectCall 0 w event).foldlM called s = some s := by
    unfold connectCall
    split_ifs
    · cases (w.clients 0).onConnect <;> rfl
    · rfl
  have hdisconnect (s : ClientMain proto × Rx) : (disconnectCall 0 w event).foldlM called s =
      some ({ s.1 with printed := farewell (disconnectCall 0 w event) ++ s.1.printed }, s.2) := by
    unfold disconnectCall
    split_ifs
    · cases (w.clients 0).onDisconnect <;> rfl
    · rfl
  rw [List.foldlM_append, List.foldlM_append]
  cases (readCall 0 w event).foldlM called s with
  | none => rfl
  | some out =>
    simp only [Option.bind_eq_bind, Option.bind_some, Option.map_some, hconnect, hdisconnect]

theorem fold_read (h : Running w) (event : Event) (s : ClientMain proto × Rx) :
    (readCall 0 w event).foldlM called s =
      if event.has .readReady then
        (drained s.1.world s.2).map fun d =>
          ({ s.1 with printed := .response d.received :: s.1.printed }, d.rx)
      else some s := by
  rw [readCall, h.onReadReady]
  split_ifs
  · rw [Option.map_some, Option.toList_some, List.foldlM_cons]
    exact bind_pure (called s _)
  · rfl

/-- A poll that reports a descriptor once at most reports one own event at most. -/
theorem ownEvents_once {events : List Event} (once : (events.map Event.fd).Nodup) :
    w.ownEvents 0 events = [] ∨
      ∃ event, w.ownEvents 0 events = [event] ∧ event.fd = w.getFd 0 ∧
        ∀ e ∈ events, e.fd = w.getFd 0 → e = event := by
  have hmem (e : Event) : e ∈ w.ownEvents 0 events ↔ e ∈ events ∧ e.fd = w.getFd 0 := by
    simp [World.ownEvents]
  have hnodup : ((w.ownEvents 0 events).map Event.fd).Nodup :=
    once.sublist (List.filter_sublist.map Event.fd)
  match hown : w.ownEvents 0 events with
  | [] => exact Or.inl rfl
  | [event] =>
    rw [hown] at hmem
    refine Or.inr ⟨event, rfl, ((hmem event).mp List.mem_cons_self).2, fun e he hfd => ?_⟩
    exact List.mem_singleton.mp ((hmem e).mpr ⟨he, hfd⟩)
  | event :: event' :: rest =>
    rw [hown] at hmem hnodup
    have hfd := ((hmem event).mp (by simp)).2
    have hfd' := ((hmem event').mp (by simp)).2
    simp [hfd, hfd'] at hnodup

/-! ### One turn -/

variable {s : ClientMain proto}

/-- A turn calls what its own events call. -/
theorem proceed_eq (h : Running s.world) (t : ClientTurn) :
    s.proceed t =
      ((callsOf s.world (handleEvents (World.invoke user 0) (s.world.clients 0).handlers
        (s.world.ownEvents 0 t.events) s.world).2).foldlM called
          ({ s with world := (handleEvents (World.invoke user 0) (s.world.clients 0).handlers
            (s.world.ownEvents 0 t.events) s.world).2 }, ⟨t.errno, t.chunks, t.ending⟩)).map
        fun out =>
          ({ out.1 with
            world := { out.1.world with kernel := { out.1.world.kernel with errno := out.2.errno } } },
            out.2) := by
  rw [proceed, proceed_running h]

theorem fold_world {calls : List Invocation} {s s' : ClientMain proto × Rx}
    (h : calls.foldlM called s = some s') : s'.1.world = s.1.world := by
  induction calls generalizing s with
  | nil =>
    cases h
    rfl
  | cons inv calls ih =>
    rw [List.foldlM_cons] at h
    obtain ⟨s1, hcalled, hrest⟩ := Option.bind_eq_some_iff.mp h
    refine (ih hrest).trans ?_
    unfold called at hcalled
    split at hcalled
    · obtain ⟨d, -, rfl⟩ := Option.map_eq_some_iff.mp hcalled
      rfl
    · cases hcalled
      rfl
    · cases hcalled
      rfl

/-- A call of `send` changes the kernel only. -/
theorem input_world (s : ClientMain proto) (line : Option (List UInt8)) (ans : Except Errno Nat) :
    ∃ k, (s.input line ans).world = { s.world with kernel := k } := by
  unfold input
  cases line with
  | none => exact ⟨s.world.kernel, rfl⟩
  | some input =>
    have hsend : ∃ k, (s.world.send 0 input ans).2.2 = { s.world with kernel := k } := by
      unfold World.send
      split
      · exact ⟨_, rfl⟩
      · exact ⟨s.world.kernel, rfl⟩
    obtain ⟨k, hk⟩ := hsend
    rcases hout : s.world.send 0 input ans with ⟨_ | sent, call, w⟩ <;> rw [hout] at hk <;>
      simp only [hout]
    · split_ifs <;> exact ⟨k, hk⟩
    · exact ⟨k, hk⟩

/-- A turn, with the world after the handlers. -/
theorem next_cases (h : Running s.world) {t : ClientTurn} {s' : ClientMain proto}
    (hnext : s.next t = some s') :
    let w := (handleEvents (World.invoke user 0) (s.world.clients 0).handlers
      (s.world.ownEvents 0 t.events) s.world).2
    ∃ out, (callsOf s.world w).foldlM called
        ({ s with world := w }, ⟨t.errno, t.chunks, t.ending⟩) = some out ∧
      (∃ k, s'.world = { w with kernel := k }) ∧
      (s'.printed = out.1.printed ∨ ∃ line, s'.printed = .sendError line :: out.1.printed) := by
  obtain ⟨out, hproceed, rfl⟩ := Option.map_eq_some_iff.mp hnext
  rw [proceed_eq h] at hproceed
  obtain ⟨out, hfold, rfl⟩ := Option.map_eq_some_iff.mp hproceed
  refine ⟨out, hfold, ?_, ?_⟩
  · obtain ⟨k, hk⟩ := input_world { out.1 with
      world := { out.1.world with kernel := { out.1.world.kernel with errno := out.2.errno } } }
      t.line t.ans
    exact ⟨k, hk.trans (by rw [fold_world hfold])⟩
  · unfold input
    cases t.line with
    | none => exact Or.inl rfl
    | some line =>
      simp only
      split
      · exact Or.inl rfl
      · split_ifs
        · exact Or.inr ⟨line, rfl⟩
        · exact Or.inl rfl

theorem running_next (h : Running s.world) {t : ClientTurn} {s' : ClientMain proto}
    (hnext : s.next t = some s') : Running s'.world := by
  obtain ⟨-, -, ⟨k, hk⟩, -⟩ := next_cases h hnext
  rw [hk]
  exact running_kernel (running_handled h _) k

/-! ### "disconnect" -/

def isDisconnect : Invocation → Bool
  | .callback _ .onDisconnect _ => true
  | _ => false

/-- The calls of `on_disconnect`, and one that may still come. -/
def farewells (w : World proto) : Nat :=
  w.trace.countP isDisconnect + if (w.clients 0).onDisconnect.isSome then 1 else 0

/-- A call that clears its field. -/
theorem callOnce_farewells {inv : Invocation} {clear : Client proto → Client proto}
    (spends : (if isDisconnect inv then 1 else 0) +
      (if (clear (w.clients 0)).onDisconnect.isSome then 1 else 0) =
        if (w.clients 0).onDisconnect.isSome then 1 else 0) :
    farewells (w.callOnce user 0 inv clear).2 = farewells w := by
  have hout : (w.callOnce user 0 inv clear).2 =
      ({ w with trace := inv :: w.trace } : World proto).update 0 clear := rfl
  have htrace : (w.callOnce user 0 inv clear).2.trace = inv :: w.trace := rfl
  rw [farewells, farewells, htrace, hout, World.update_client, if_pos rfl, List.countP_cons]
  simp only at spends ⊢
  omega

theorem invoke_farewells (func : ClientHandler) (fd : Fd) (v : World proto) :
    farewells (v.invoke user 0 func fd).2 = farewells v := by
  unfold World.invoke
  split_ifs
  · cases func with
    | erase =>
      simp only
      split
      · rename_i func hfunc
        exact callOnce_farewells (by simp [isDisconnect, hfunc])
      · rfl
    | readReady =>
      simp only
      split
      · rfl
      · rfl
    | writeReady =>
      simp only
      split
      · exact callOnce_farewells (by simp [isDisconnect])
      · rfl
  · rfl

theorem fold_farewells {calls : List Invocation} {s s' : ClientMain proto × Rx}
    (h : calls.foldlM called s = some s') :
    s'.1.printed.count .disconnect = s.1.printed.count .disconnect + calls.countP isDisconnect := by
  induction calls generalizing s with
  | nil =>
    cases h
    rfl
  | cons inv calls ih =>
    rw [List.foldlM_cons] at h
    obtain ⟨s1, hcalled, hrest⟩ := Option.bind_eq_some_iff.mp h
    rw [ih hrest, List.countP_cons]
    unfold called at hcalled
    split at hcalled
    · obtain ⟨d, -, rfl⟩ := Option.map_eq_some_iff.mp hcalled
      simp [isDisconnect]
    · cases hcalled
      simp [isDisconnect, Nat.add_comm, Nat.add_left_comm]
    · rename_i hread hdisconnect
      cases hcalled
      have hother : isDisconnect inv = false := by
        unfold isDisconnect
        split
        · exact absurd rfl (hdisconnect _ _)
        · rfl
      simp [hother]

theorem farewells_next (h : Running s.world) {t : ClientTurn} {s' : ClientMain proto}
    (hnext : s.next t = some s') (once : s.printed.count .disconnect +
      (if (s.world.clients 0).onDisconnect.isSome then 1 else 0) ≤ 1) :
    s'.printed.count .disconnect +
      (if (s'.world.clients 0).onDisconnect.isSome then 1 else 0) ≤ 1 := by
  obtain ⟨out, hfold, ⟨k, hk⟩, hprinted⟩ := next_cases h hnext
  have hcount : s'.printed.count .disconnect = out.1.printed.count .disconnect := by
    rcases hprinted with hsame | ⟨line, hsame⟩ <;> rw [hsame]
    simp
  have hsame : farewells (handleEvents (World.invoke user 0) (s.world.clients 0).handlers
      (s.world.ownEvents 0 t.events) s.world).2 = farewells s.world :=
    handleEvents_induction (fun v : World proto => farewells v = farewells s.world)
      (fun event _ u hu => handleEvent_induction (fun v : World proto => farewells v =
        farewells s.world) (fun _ func _ v hv => (invoke_farewells func event.fd v).trans hv) hu) rfl
  obtain ⟨calls, hcalls⟩ := events_suffix user 0 (s.world.clients 0).handlers
    (s.world.ownEvents 0 t.events) s.world
  have hfarewells := fold_farewells hfold
  rw [callsOf_append hcalls.symm, List.countP_reverse] at hfarewells
  rw [farewells, farewells, ← hcalls, List.countP_append] at hsame
  have hclients : (s'.world.clients 0).onDisconnect =
      ((handleEvents (World.invoke user 0) (s.world.clients 0).handlers
        (s.world.ownEvents 0 t.events) s.world).2.clients 0).onDisconnect := by rw [hk]
  rw [hcount, hfarewells, hclients]
  simp only at hsame ⊢
  omega

/-- The handlers for the end of a connection take the descriptor out of the poll. -/
theorem attempt_unregisters {fd : Fd} (hfd : fd = w.getFd 0) (h : (w.clients 0).onReadReady.isSome)
    {funcs : List ClientHandler} (herase : ClientHandler.erase ∈ funcs) :
    (attempt (onFd user 0 fd) funcs w).2.registered 0 fd = none := by
  induction funcs generalizing w with
  | nil => cases herase
  | cons func funcs ih =>
    obtain ⟨v, hout⟩ : ∃ v, w.invoke user 0 func fd = (.ok (), v) :=
      ⟨_, Prod.ext (invoke_able h func fd) rfl⟩
    have hv : v = (w.invoke user 0 func fd).2 := by rw [hout]
    have hact : onFd user 0 fd func w = (.ok (), v) := hout
    rw [attempt_ok hact]
    by_cases hfunc : func = .erase
    · subst hfunc
      have hnone : v.registered 0 fd = none := by
        rw [hv, World.invoke, if_pos hfd]
        simp only
        split
        · rw [callOnce_registered]
          simp [World.delSocket]
        · simp [World.delSocket]
      refine attempt_induction (fun u : World proto => u.registered 0 fd = none) ?_ hnone
      intro func' _ u hu
      by_contra hsome
      have hwas := invoke_registered_of func' fd u (Option.isSome_iff_ne_none.mpr hsome)
      rw [hu] at hwas
      cases hwas
    · have herase : ClientHandler.erase ∈ funcs := by
        rcases List.mem_cons.mp herase with heq | hmem
        · exact absurd heq.symm hfunc
        · exact hmem
      refine ih ?_ ?_ herase
      · rw [hv, (World.Calm.invoke func fd w).getFd 0]
        exact hfd
      · rw [hv, invoke_onReadReady]
        exact h

theorem event_unregisters (h : Running w) {event : Event} (hfd : event.fd = w.getFd 0)
    (ends : event.terminates = true) :
    (handleEvents (World.invoke user 0) (w.clients 0).handlers [event] w).2.registered 0
      (w.getFd 0) = none := by
  have hone : (handleEvents (World.invoke user 0) (w.clients 0).handlers [event] w).2 =
      (attempt (onFd user 0 event.fd) (handlersOf (w.clients 0).handlers event) w).2 :=
    handleEvent_run h.handlers event w
  rw [hone, ← hfd]
  refine attempt_unregisters hfd (by rw [h.onReadReady]; rfl) ?_
  have hlength := (event_terminates_iff event).mp ends
  rw [handlersOf_cbs h.all]
  obtain ⟨tp, htp⟩ := List.exists_mem_of_ne_nil (EventType.terminations.filter event.has)
    fun hnil => hlength (by rw [hnil]; rfl)
  exact List.mem_append_right _ (List.mem_append_right _ (List.mem_map.mpr ⟨tp, htp, rfl⟩))

/-- After "disconnect" the poll does not observe the descriptor, and no response is printed. -/
structure Parted (s : ClientMain proto) : Prop where
  running : Running s.world
  last : s.DisconnectsLast
  unobserved : .disconnect ∈ s.printed → s.world.registered 0 (s.world.getFd 0) = none

/-- An error message changes nothing about it. -/
theorem disconnectsLast_error {printed : List Printed} {line : List UInt8}
    (h : ∀ after before, printed = after ++ .disconnect :: before →
      ∀ text, Printed.response text ∉ after) :
    ∀ after before, .sendError line :: printed = after ++ .disconnect :: before →
      ∀ text, Printed.response text ∉ after := by
  intro after before heq text hmem
  cases after with
  | nil => cases hmem
  | cons p after =>
    obtain ⟨rfl, hrest⟩ := List.cons.inj heq
    rcases List.mem_cons.mp hmem with hp | hmem
    · cases hp
    · exact h after before hrest text hmem

theorem disconnectsLast_fresh {printed : List Printed} (fresh : .disconnect ∉ printed)
    (calls : List Invocation) :
    ∀ after before, farewell calls ++ printed = after ++ .disconnect :: before →
      ∀ text, Printed.response text ∉ after := by
  intro after before heq text hmem
  cases after with
  | nil => cases hmem
  | cons p after =>
    refine fresh ?_
    unfold farewell at heq
    split_ifs at heq
    · rw [List.nil_append] at heq
      rw [heq]
      simp
    · rw [List.singleton_append] at heq
      rw [(List.cons.inj heq).2]
      simp

theorem parted_next (h : Parted s) {t : ClientTurn} (observed : s.Observed t)
    {s' : ClientMain proto} (hnext : s.next t = some s') : Parted s' := by
  obtain ⟨out, hfold, ⟨k, hk⟩, hprinted⟩ := next_cases h.running hnext
  have handled : (∀ after before, out.1.printed = after ++ .disconnect :: before →
        ∀ text, Printed.response text ∉ after) ∧
      (.disconnect ∈ out.1.printed → s'.world.registered 0 (s'.world.getFd 0) = none) := by
    rcases ownEvents_once (w := s.world) observed.1 with hnone | ⟨event, hown, hfd, -⟩
    · rw [hnone] at hfold hk
      have hcalls : callsOf s.world s.world = [] := by simp [callsOf]
      simp only [handleEvents, hcalls] at hfold hk
      cases hfold
      rw [hk]
      exact ⟨h.last, h.unobserved⟩
    · have hmem : event ∈ s.world.ownEvents 0 t.events := by rw [hown]; exact List.mem_cons_self
      have hsome := observed.2 event (List.mem_filter.mp hmem).1
      have fresh : .disconnect ∉ s.printed := fun hprinted => by
        rw [hfd, h.unobserved hprinted] at hsome
        cases hsome
      rw [hown] at hfold hk
      rw [callsOf_event h.running hfd, fold_event] at hfold
      obtain ⟨read, hread, rfl⟩ := Option.map_eq_some_iff.mp hfold
      have freshRead : .disconnect ∉ read.1.printed := by
        rw [fold_read h.running] at hread
        split_ifs at hread
        · obtain ⟨d, -, rfl⟩ := Option.map_eq_some_iff.mp hread
          simpa using fresh
        · cases hread
          exact fresh
      refine ⟨disconnectsLast_fresh freshRead _, fun hdisconnect => ?_⟩
      have ends : event.terminates = true := by
        by_contra hnot
        simp [disconnectCall, hnot, farewell] at hdisconnect
        exact freshRead hdisconnect
      have hsame : s'.world.getFd 0 = s.world.getFd 0 := by
        rw [hk]
        exact (calm_event user s.world event).getFd 0
      rw [hsame, hk]
      exact event_unregisters h.running hfd ends
  refine ⟨running_next h.running hnext, ?_, ?_⟩
  · rcases hprinted with hsame | ⟨line, hsame⟩
    · rw [DisconnectsLast, hsame]
      exact handled.1
    · rw [DisconnectsLast, hsame]
      exact disconnectsLast_error handled.1
  · intro hdisconnect
    refine handled.2 ?_
    rcases hprinted with hsame | ⟨line, hsame⟩
    · rwa [hsame] at hdisconnect
    · rw [hsame] at hdisconnect
      simpa using hdisconnect

end

/-! ### The program -/

section

variable (pton : InetPton) (proto : Proto) (port : UInt64) (localPort : Option UInt64)
  (ans : Except Errno Fd) (bound : Answer) (added : Bool) (connected : Answer)

/-- "disconnect" is printed once at most, and when the poll reports nothing but what it observes, no
response is printed after it. -/
theorem disconnect_run
    (started : (init pton proto port localPort ans bound added connected).1 = true)
    (turns : List ClientTurn) :
    Always next DisconnectsOnce
        (initial (init pton proto port localPort ans bound added connected).2) turns ∧
      (Along next Observed
          (initial (init pton proto port localPort ans bound added connected).2) turns →
        Always next DisconnectsLast
          (initial (init pton proto port localPort ans bound added connected).2) turns) := by
  have running := init_running started
  constructor
  · have farewells : Always next (fun s : ClientMain proto => Running s.world ∧
        s.printed.count .disconnect +
          (if (s.world.clients 0).onDisconnect.isSome then 1 else 0) ≤ 1)
        (initial (init pton proto port localPort ans bound added connected).2) turns := by
      refine Always.of_inv ?_ ⟨running, ?_⟩ turns
      · rintro s t s' ⟨h, once⟩ hnext
        exact ⟨running_next h hnext, farewells_next h hnext once⟩
      · rw [initial, List.count_nil, Nat.zero_add]
        split_ifs <;> decide
    exact farewells.mono fun s h => (Nat.le_add_right _ _).trans h.2
  · intro observed
    refine (Always.of_along (fun _ _ _ h hobserved hnext => parted_next h hobserved hnext)
      ⟨running, ?_, ?_⟩ observed).mono fun _ h => h.last
    · intro after before heq
      cases after <;> cases heq
    · intro hmem
      cases hmem

end

/-! ### A response and the end of the connection -/

/-- The kernel hands out the chunks after the event. -/
def turnOf (type : EventType) (chunks : List (List UInt8)) : ClientTurn :=
  ⟨[⟨3, type⟩], chunks.map fun data => (data, blankAddr AfInet.ipv4.toInt), .again, 0, none, .ok 0⟩

def lastTurns : List ClientTurn := [turnOf .readReady [[50]], turnOf .hangup []]

def connectedAs3 (proto : Proto) (localPort : Option UInt64) : Bool × World proto :=
  init loopbackPton proto 80 localPort (.ok 3) (.ok ()) true (.ok ())

example :
    (exec next (initial (connectedAs3 tcp none).2) lastTurns).map ClientMain.printed =
      some [.disconnect, .response [50]] := by
  decide +kernel

theorem lastTurns_observed :
    Along next Observed (initial (connectedAs3 tcp none).2) lastTurns := by
  have hopen : ((connectedAs3 tcp none).2.registered 0 3).isSome := by decide +kernel
  refine ⟨⟨by simp [OncePerFd, turnOf], by simpa [turnOf, initial] using hopen⟩, fun s hnext =>
    ⟨⟨by simp [OncePerFd, turnOf], ?_⟩, fun _ _ => trivial⟩⟩
  have hstill : ((initial (connectedAs3 tcp none).2).next (turnOf .readReady [[50]])).all
      (fun s => (s.world.registered 0 3).isSome) = true := by
    decide +kernel
  rw [hnext] at hstill
  simpa [turnOf] using hstill

theorem disconnect_run_last :
    Always next DisconnectsOnce (initial (connectedAs3 tcp none).2) lastTurns ∧
      Always next DisconnectsLast (initial (connectedAs3 tcp none).2) lastTurns := by
  have h := disconnect_run loopbackPton tcp 80 none (.ok 3) (.ok ()) true (.ok ())
    (by decide +kernel) lastTurns
  exact ⟨h.1, h.2 lastTurns_observed⟩

end ClientMain

end TypedSockets.App
