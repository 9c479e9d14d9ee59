import TypedSockets.App.Service
import TypedSockets.Endpoint.Drain
import TypedSockets.Endpoint.Handlers
import TypedSockets.Socket.Transfer

/-! The server program over UDP.  Its main loop calls `proceed`, receives into the buffer of each
element of `active_sockets` until nothing is left, and answers the address received from last. -/

namespace TypedSockets.App

open TypedSockets.Socket TypedSockets.Epoll TypedSockets.Endpoint TypedSockets.Lib

/-- A datagram that waits at the socket: where it comes from, and its bytes. -/
abbrev Datagram := FilledAddr × List UInt8

/-- The size of `tmp_buff`. -/
def buffSize : Nat := 256

/-- The bytes that one `recv` puts into the buffer: those that do not fit are lost. -/
def Datagram.bytes (d : Datagram) : List UInt8 := d.2.take buffSize

def Datagram.sender (d : Datagram) : Option InAddressPort := parseAddr d.1

/-- An element of `active_sockets`: the `m_remote` of its `accepted_sock_ref` and its string.
`taken` holds the datagrams that it received, oldest first. -/
structure Element where
  remote : Option InAddressPort
  request : List UInt8
  taken : List Datagram

/-- A reply as given to `send`.  `taken` holds the datagrams that its request was received from. -/
structure Reply where
  dest : InAddressPort
  request : List UInt8
  data : List UInt8
  taken : List Datagram

/-- The program between two turns of its main loop.  `queue` holds the datagrams that wait, oldest
first, and `replies` the replies, latest first.  `active_sockets` has one element at most: an
insertion beside another one would move it, and what its `base_socket` points to with it. -/
structure ServerMain where
  host : Host udp
  queue : List Datagram
  element : Option Element
  replies : List Reply

inductive MainOp where
  | arrive (d : Datagram)
  | turn (events : List Event) (late : List Datagram) (errno : Errno) (ans : Except Errno Nat)

/-- The functions that the program gives to `start`, as numbers. -/
def onMessage : Callback := 0

def onClose : Callback := 1

/-- The functions throw nothing, and destroy no socket. -/
def callbacks : ServerUser := fun _ => (.ok (), [])

/-- What an action does to `active_sockets`.  A second element is undefined behaviour. -/
def insertOrClear (element : Option Element) : Action → Option (Option Element)
  | .onMessage _ =>
    match element with
    | none => some (some ⟨none, [], []⟩)
    | some _ => none
  | .onClose _ => some none
  | _ => some element

/-- The state that the reference of an `accepted_sock_ref` refers to. -/
def refState : ServerState udp → ClientState udp
  | .idle sock => .idle sock
  | .active _ sock => .active sock
  | .binded based _ => nomatch based
  | .listening based _ => nomatch based

namespace ServerMain

/-- The call of `proceed`, and the callbacks that it makes. -/
def proceed (s : ServerMain) (events : List Event) : Option ServerMain :=
  match s.host.proceed callbacks (-1) false events with
  | (.ok _, h) =>
    let actions := (h.trace.take (h.trace.length - s.host.trace.length)).reverse
    (actions.foldlM insertOrClear s.element).map fun element => { s with host := h, element }
  | (.error _, _) => none

/-- The loop `do { rec = recv } while (rec)` on an element, where the failing `recv` sets
`errno`. -/
def drained (s : ServerMain) (e : Element) (errno : Errno) : Option DrainState :=
  let rx : Rx := ⟨s.host.kernel.errno, s.queue.map fun d => (d.bytes, d.1),
    if errno = eAgain then .again else .error errno⟩
  doWhile recvRound whileReceived (s.queue.length + 1)
    ⟨.acceptedSockRef udp rfl (refState s.host.server.state) e.remote, rx, e.request, false⟩

/-- `send` on an `accepted_sock_ref`: the kernel after it. -/
def sendRef (s : ServerMain) (remote : Option InAddressPort) (data : List UInt8)
    (ans : Except Errno Nat) : Kernel :=
  match refState s.host.server.state, remote with
  | .active sock, some remote => (sock.send udp remote data ans s.host.kernel).2.2
  | _, _ => s.host.kernel

/-- The body of the loop over `active_sockets`.  It has no outcome when `create_response` throws. -/
def serve (s : ServerMain) (errno : Errno) (ans : Except Errno Nat) : Option ServerMain :=
  match s.element with
  | none => some s
  | some e =>
    (s.drained e errno).bind fun d =>
      let count := s.queue.length - d.rx.chunks.length
      let taken := e.taken ++ s.queue.take count
      let remote := match d.endpoint with
        | .acceptedSockRef _ _ _ remote => remote
        | _ => e.remote
      let s := { s with
        host := { s.host with kernel := { s.host.kernel with errno := d.rx.errno } }
        queue := s.queue.drop count }
      if d.endpoint.finishedRecvImpl d.rx.errno && !d.received.isEmpty then
        (Service.createResponse d.received).map fun resp =>
          { s with
            host := { s.host with kernel := s.sendRef remote resp ans }
            element := none
            replies := (remote.map fun dest => Reply.mk dest d.received resp taken).toList ++ s.replies }
      else some { s with element := some ⟨remote, d.received, taken⟩ }

/-- One turn of the main loop, with the datagrams that come in before its loops have received
everything.  It has no outcome when the program ends or its behaviour is undefined. -/
def next (s : ServerMain) : MainOp → Option ServerMain
  | .arrive d => some { s with queue := s.queue ++ [d] }
  | .turn events late errno ans =>
    (s.proceed events).bind fun s => serve { s with queue := s.queue ++ late } errno ans

/-! ### Receiving -/

/-- The server has its socket, an IPv4 one. -/
def Ready (h : Host udp) : Prop :=
  ∃ connectionless sock, h.server.state = .active connectionless sock ∧ sock.impl.fd.isSome ∧
    sock.impl.family = AfInet.ipv4.toInt

/-- The bytes of datagrams. -/
def requestOf (ds : List Datagram) : List UInt8 := ds.flatMap Datagram.bytes

/-- The sender of the last datagram. -/
def lastSender (ds : List Datagram) : Option InAddressPort := ds.getLast?.bind Datagram.sender

theorem sender_isSome (d : Datagram) : d.sender.isSome := parseAddr_isSome d.1

theorem lastSender_cons (d : Datagram) (ds : List Datagram) :
    lastSender (d :: ds) = (lastSender ds).or d.sender := by
  rw [lastSender, lastSender, List.getLast?_cons, Option.bind_some]
  cases ds.getLast? with
  | none => rfl
  | some last =>
    obtain ⟨sender, hsender⟩ := Option.isSome_iff_exists.mp (sender_isSome last)
    simp [hsender]

theorem recvRound_cons {sock : ActiveSocket} (hfd : sock.impl.fd.isSome)
    (hfam : sock.impl.family = AfInet.ipv4.toInt) (remote : Option InAddressPort) (errno : Errno)
    (d : Datagram) (chunks : List (List UInt8 × FilledAddr)) (ending : Ending)
    (request : List UInt8) (got : Bool) :
    recvRound ⟨.acceptedSockRef udp rfl (.active sock) remote,
        ⟨errno, (d.bytes, d.1) :: chunks, ending⟩, request, got⟩ =
      ⟨.acceptedSockRef udp rfl (.active sock) d.sender, ⟨errno, chunks, ending⟩,
        request ++ d.bytes, true⟩ := by
  obtain ⟨fd, hfd⟩ := Option.isSome_iff_exists.mp hfd
  obtain ⟨sender, hsender⟩ := Option.isSome_iff_exists.mp (sender_isSome d)
  have hparse : parseAddr d.1 = some sender := hsender
  simp [recvRound, RecvI.recvImpl, Endpoint.SocketImpl.receiveFrom, hfd, hfam, Rx.recv, hparse, hsender]

theorem recvRound_fails {sock : ActiveSocket} (hfd : sock.impl.fd.isSome)
    (hfam : sock.impl.family = AfInet.ipv4.toInt) (remote : Option InAddressPort) (errno e : Errno)
    (request : List UInt8) (got : Bool) :
    recvRound ⟨.acceptedSockRef udp rfl (.active sock) remote,
        ⟨errno, [], if e = eAgain then .again else .error e⟩, request, got⟩ =
      ⟨.acceptedSockRef udp rfl (.active sock) remote,
        ⟨e, [], if e = eAgain then .again else .eof⟩, request, false⟩ := by
  obtain ⟨fd, hfd⟩ := Option.isSome_iff_exists.mp hfd
  by_cases he : e = eAgain <;>
    simp [recvRound, RecvI.recvImpl, Endpoint.SocketImpl.receiveFrom, hfd, hfam, Rx.recv, he]

/-- The loop receives every datagram that waits, and keeps the sender of the last one. -/
theorem doWhile_received {sock : ActiveSocket} (hfd : sock.impl.fd.isSome)
    (hfam : sock.impl.family = AfInet.ipv4.toInt) (errno e : Errno) (queue : List Datagram)
    (remote : Option InAddressPort) (request : List UInt8) (got : Bool) :
    doWhile recvRound whileReceived (queue.length + 1)
        ⟨.acceptedSockRef udp rfl (.active sock) remote,
          ⟨errno, queue.map fun d => (d.bytes, d.1), if e = eAgain then .again else .error e⟩,
          request, got⟩ =
      some ⟨.acceptedSockRef udp rfl (.active sock) ((lastSender queue).or remote),
        ⟨e, [], if e = eAgain then .again else .eof⟩, request ++ requestOf queue, false⟩ := by
  induction queue generalizing remote request got with
  | nil =>
    have hround := recvRound_fails hfd hfam remote errno e request got
    simp [doWhile, hround, whileReceived, lastSender, requestOf]
  | cons d queue ih =>
    have hround := recvRound_cons hfd hfam remote errno d
      (queue.map fun d => (d.bytes, d.1)) (if e = eAgain then .again else .error e) request got
    rw [List.length_cons, List.map_cons, doWhile, hround]
    simp only [whileReceived, ↓reduceIte]
    rw [ih]
    obtain ⟨sender, hsender⟩ := Option.isSome_iff_exists.mp (sender_isSome d)
    rw [lastSender_cons, Option.or_assoc, hsender, Option.some_or]
    simp [requestOf]

/-! ### The callbacks of a batch -/

/-- A server as `start` leaves it. -/
structure Started (h : Host udp) : Prop where
  ready : Ready h
  handlers : h.server.handlers = Host.table
  onConn : h.server.onConn = some (some onMessage)
  onClose : h.server.eraseActiveSocket = some (some onClose)
  unhandled : h.server.unhandled = none

/-- The callbacks that an event makes. -/
def actionsOf (h : Host udp) (event : Event) : List Action :=
  (if event.has .readReady ∧ event.fd = h.getFd then [.onMessage onMessage] else []) ++
    (EventType.terminations.filter event.has).map fun _ => .onClose onClose

/-- The server made these callbacks, and is otherwise as it was. -/
structure Acted (h h' : Host udp) (actions : List Action) : Prop where
  server : h'.server = h.server
  kernel : h'.kernel = h.kernel
  trace : h'.trace = actions.reverse ++ h.trace

theorem Acted.refl (h : Host udp) : Acted h h [] := ⟨rfl, rfl, rfl⟩

theorem Acted.trans {h1 h2 h3 : Host udp} {as bs : List Action} (h12 : Acted h1 h2 as)
    (h23 : Acted h2 h3 bs) : Acted h1 h3 (as ++ bs) :=
  ⟨h23.server.trans h12.server, h23.kernel.trans h12.kernel, by
    rw [h23.trace, h12.trace, List.reverse_append, List.append_assoc]⟩

theorem Started.acted {h h' : Host udp} {actions : List Action} (started : Started h)
    (acted : Acted h h' actions) : Started h' := by
  obtain ⟨ready, handlers, onConn, onClose, unhandled⟩ := started
  unfold Ready at ready
  rw [← acted.server] at ready handlers onConn onClose unhandled
  exact ⟨ready, handlers, onConn, onClose, unhandled⟩

theorem Acted.getFd {h h' : Host udp} {actions : List Action} (acted : Acted h h' actions) :
    h'.getFd = h.getFd := by
  rw [Host.getFd, acted.server]
  rfl

/-- The callback of a handler. -/
def actionOf (h : Host udp) (fd : Fd) : ServerHandler → List Action
  | .erase => [.onClose onClose]
  | .readReady => if fd = h.getFd then [.onMessage onMessage] else []

theorem invoke_acted {h : Host udp} (started : Started h) (new fd : Fd) (added : Bool)
    (func : ServerHandler) :
    ∃ h', h.invoke callbacks new added func fd = (.ok (), h') ∧ Acted h h' (actionOf h fd func) := by
  cases func with
  | erase =>
    have hset : (h.delSocket fd).server.eraseActiveSocket = some (some onClose) := started.onClose
    refine ⟨{ h.delSocket fd with trace := .onClose onClose :: h.trace }, ?_, rfl, rfl, rfl⟩
    simp only [Host.invoke, hset]
    rfl
  | readReady =>
    by_cases hfd : fd = h.getFd
    · refine ⟨{ h with trace := .onMessage onMessage :: h.trace }, ?_, rfl, rfl, ?_⟩
      · simp only [Host.invoke, if_pos hfd, started.onConn]
        rfl
      · simp [actionOf, hfd]
    · refine ⟨h, by simp only [Host.invoke, if_neg hfd], rfl, rfl, ?_⟩
      simp [actionOf, hfd]

theorem attempt_acted {h : Host udp} (started : Started h) (new fd : Fd) (added : Bool)
    (funcs : List ServerHandler) :
    ∃ h', attempt (fun func => Host.invoke callbacks new added func fd) funcs h = (none, h') ∧
      Acted h h' (funcs.flatMap (actionOf h fd)) := by
  induction funcs generalizing h with
  | nil => exact ⟨h, rfl, .refl h⟩
  | cons func funcs ih =>
    obtain ⟨h1, hinvoke, hacted⟩ := invoke_acted started new fd added func
    obtain ⟨h2, hattempt, hrest⟩ := ih (started.acted hacted)
    have hsame : actionOf h1 fd = actionOf h fd := by
      funext func
      cases func <;> simp only [actionOf, hacted.getFd]
    rw [hsame] at hrest
    refine ⟨h2, ?_, hacted.trans hrest⟩
    rw [attempt, hinvoke]
    exact hattempt

theorem handleEvent_acted {h : Host udp} (started : Started h) (new : Fd) (added : Bool)
    (event : Event) :
    ∃ h', (handleEvent (Host.invoke callbacks new added) Host.table event h).1.2 = none ∧
      (handleEvent (Host.invoke callbacks new added) Host.table event h).2 = h' ∧
      Acted h h' (actionsOf h event) := by
  obtain ⟨h', hattempt, hacted⟩ := attempt_acted started new event.fd added
    (handlersOf Host.table event)
  have hactions : (handlersOf Host.table event).flatMap (actionOf h event.fd) =
      actionsOf h event := by
    rw [Host.handlersOf_table, List.flatMap_append, actionsOf, List.flatMap_map, List.map_eq_flatMap]
    congr 1
    cases event.has .readReady <;> simp [actionOf]
  rw [handleEvent_attempt Host.table_over, hattempt]
  exact ⟨h', rfl, rfl, hactions ▸ hacted⟩

/-- A batch makes the callbacks of its events, and throws nothing. -/
theorem handleEvents_acted {h : Host udp} (started : Started h) (new : Fd) (added : Bool)
    (events : List Event) :
    (handleEvents (Host.invoke callbacks new added) Host.table events h).1.2 = [] ∧
      Acted h (handleEvents (Host.invoke callbacks new added) Host.table events h).2
        (events.flatMap (actionsOf h)) := by
  induction events generalizing h with
  | nil => exact ⟨rfl, .refl h⟩
  | cons event events ih =>
    obtain ⟨h1, hnone, hstate, hacted⟩ := handleEvent_acted started new added event
    obtain ⟨hexceptions, hrest⟩ := ih (started.acted hacted)
    have hsame : actionsOf h1 = actionsOf h := by
      funext event
      simp only [actionsOf, hacted.getFd]
    rw [hsame] at hrest
    rw [handleEvents, List.flatMap_cons]
    simp only [hnone, hstate, hexceptions, Option.toList_none, List.nil_append, true_and]
    exact hacted.trans hrest

theorem proceed_acted {h : Host udp} (started : Started h) (new : Fd) (added : Bool)
    (events : List Event) :
    ∃ h', h.proceed callbacks new added events = (.ok !events.isEmpty, h') ∧
      Acted h h' (events.flatMap (actionsOf h)) := by
  obtain ⟨hexceptions, hacted⟩ := handleEvents_acted started new added events
  refine ⟨_, ?_, hacted⟩
  simp [Host.proceed, Endpoint.proceed, started.handlers, started.unhandled, handleUnhandled,
    hexceptions]

/-! ### One turn -/

/-- An element that received some datagrams. -/
def elementOf (taken : List Datagram) : Element := ⟨lastSender taken, requestOf taken, taken⟩

theorem requestOf_append (ds ds' : List Datagram) :
    requestOf (ds ++ ds') = requestOf ds ++ requestOf ds' :=
  List.flatMap_append

theorem lastSender_append (ds ds' : List Datagram) :
    lastSender (ds ++ ds') = (lastSender ds').or (lastSender ds) := by
  induction ds with
  | nil => simp [lastSender]
  | cons d ds ih => rw [List.cons_append, lastSender_cons, ih, lastSender_cons, Option.or_assoc]

/-- The program after it received what waits. -/
def emptied (s : ServerMain) (errno : Errno) : ServerMain :=
  { s with
    host := { s.host with kernel := { s.host.kernel with errno } }
    queue := [] }

/-- The program after it answered what an element took. -/
def answered (s : ServerMain) (taken : List Datagram) (resp : List UInt8)
    (ans : Except Errno Nat) : ServerMain :=
  { s with
    host := { s.host with kernel := s.sendRef (lastSender taken) resp ans }
    element := none
    replies :=
      ((lastSender taken).map fun dest => Reply.mk dest (requestOf taken) resp taken).toList ++
        s.replies }

/-- An element is answered when it finishes with a request, and kept otherwise. -/
theorem serve_eq {s : ServerMain} (ready : Ready s.host) {taken : List Datagram}
    (holds : s.element = some (elementOf taken)) (errno : Errno) (ans : Except Errno Nat) :
    s.serve errno ans =
      if errno = eAgain ∧ requestOf (taken ++ s.queue) ≠ [] then
        (Service.createResponse (requestOf (taken ++ s.queue))).map fun resp =>
          (s.emptied errno).answered (taken ++ s.queue) resp ans
      else some { s.emptied errno with element := some (elementOf (taken ++ s.queue)) } := by
  obtain ⟨connectionless, sock, hstate, hfd, hfam⟩ := ready
  have hdrained : s.drained (elementOf taken) errno =
      some ⟨.acceptedSockRef udp rfl (.active sock) (lastSender (taken ++ s.queue)),
        ⟨errno, [], if errno = eAgain then .again else .eof⟩, requestOf (taken ++ s.queue), false⟩ := by
    rw [lastSender_append, requestOf_append]
    have hloop := doWhile_received hfd hfam s.host.kernel.errno errno s.queue (lastSender taken)
      (requestOf taken) false
    simp only [drained, hstate, refState, elementOf]
    exact hloop
  have hfinished : RecvI.finishedRecvImpl errno
      (.acceptedSockRef udp rfl (.active sock) (lastSender (taken ++ s.queue))) = (errno == eAgain) :=
    RecvI.finishedRecvImpl_eq _ _
  simp only [serve, holds, hdrained, Option.bind_some, List.length_nil, Nat.sub_zero,
    List.take_length, List.drop_length, hfinished]
  by_cases h : errno = eAgain ∧ requestOf (taken ++ s.queue) ≠ []
  · have hdone : (errno == eAgain && !(requestOf (taken ++ s.queue)).isEmpty) = true := by
      simpa using h
    rw [if_pos hdone, if_pos h]
    rfl
  · have hdone : ¬(errno == eAgain && !(requestOf (taken ++ s.queue)).isEmpty) = true := by
      simpa using h
    rw [if_neg hdone, if_neg h]
    rfl

/-- A state of the program: its server was started, and what its element has is what it took. -/
structure Running (s : ServerMain) : Prop where
  started : Started s.host
  element : ∀ e ∈ s.element, e = elementOf e.taken

/-- `active_sockets` after the callbacks of a batch. -/
def elementAfter (s : ServerMain) (events : List Event) : Option (Option Element) :=
  (events.flatMap (actionsOf s.host)).foldlM insertOrClear s.element

theorem insertOrClear_element {element : Option Element} (h : ∀ e ∈ element, e = elementOf e.taken)
    {action : Action} {element' : Option Element} (hins : insertOrClear element action = some element') :
    ∀ e ∈ element', e = elementOf e.taken := by
  cases action with
  | onMessage func =>
    cases element with
    | none =>
      cases hins
      rintro e ⟨⟩
      rfl
    | some e => cases hins
  | onClose func =>
    cases hins
    intro e he
    cases he
  | _ =>
    cases hins
    exact h

theorem elementAfter_element {s : ServerMain} (running : Running s) {events : List Event}
    {element : Option Element} (h : s.elementAfter events = some element) :
    ∀ e ∈ element, e = elementOf e.taken := by
  unfold elementAfter at h
  generalize events.flatMap (actionsOf s.host) = actions at h
  have hstart := running.element
  generalize s.element = before at h hstart
  induction actions generalizing before with
  | nil =>
    cases h
    exact hstart
  | cons action actions ih =>
    rw [List.foldlM_cons] at h
    obtain ⟨next, hnext, hrest⟩ := Option.bind_eq_some_iff.mp h
    exact ih next hrest (insertOrClear_element hstart hnext)

/-- The server after the callbacks of a batch. -/
def hostAfter (s : ServerMain) (events : List Event) : Host udp :=
  (s.host.proceed callbacks (-1) false events).2

theorem hostAfter_acted {s : ServerMain} (running : Running s) (events : List Event) :
    Acted s.host (s.hostAfter events) (events.flatMap (actionsOf s.host)) := by
  obtain ⟨h', hproceed, hacted⟩ := proceed_acted running.started (-1) false events
  rw [hostAfter, hproceed]
  exact hacted

theorem proceed_eq {s : ServerMain} (running : Running s) (events : List Event) :
    s.proceed events = (s.elementAfter events).map fun element =>
      { s with host := s.hostAfter events, element } := by
  obtain ⟨h', hproceed, hacted⟩ := proceed_acted running.started (-1) false events
  have hactions : (h'.trace.take (h'.trace.length - s.host.trace.length)).reverse =
      events.flatMap (actionsOf s.host) := by
    rw [hacted.trace, List.length_append, Nat.add_sub_cancel, List.take_left, List.reverse_reverse]
  simp only [proceed, hostAfter, hproceed, hactions]
  rfl

/-- What the element of a turn has taken once it received what waits. -/
def taking (s : ServerMain) (e : Element) (late : List Datagram) : List Datagram :=
  e.taken ++ (s.queue ++ late)

/-- The loop over `active_sockets`, in terms of what the element takes. -/
def serveTaken (s : ServerMain) (taken : List Datagram) (errno : Errno) (ans : Except Errno Nat) :
    Option ServerMain :=
  if errno = eAgain ∧ requestOf taken ≠ [] then
    (Service.createResponse (requestOf taken)).map fun resp =>
      (s.emptied errno).answered taken resp ans
  else some { s.emptied errno with element := some (elementOf taken) }

theorem next_turn {s : ServerMain} (running : Running s) (events : List Event)
    (late : List Datagram) (errno : Errno) (ans : Except Errno Nat) :
    s.next (.turn events late errno ans) = (s.elementAfter events).bind fun element =>
      let s' := { s with host := s.hostAfter events, queue := s.queue ++ late, element }
      match element with
      | none => some s'
      | some e => s'.serveTaken (s.taking e late) errno ans := by
  rw [next, proceed_eq running]
  cases hafter : s.elementAfter events with
  | none => rfl
  | some element =>
    simp only [Option.map_some, Option.bind_some]
    cases element with
    | none => rfl
    | some e =>
      have helem := elementAfter_element running hafter e rfl
      have hready : Ready (s.hostAfter events) :=
        (running.started.acted (hostAfter_acted running events)).ready
      let s' : ServerMain :=
        { s with host := s.hostAfter events, queue := s.queue ++ late, element := some e }
      have holds : s'.element = some (elementOf e.taken) := congrArg some helem
      exact serve_eq (s := s') hready holds errno ans

theorem Started.kernel {h : Host udp} (started : Started h) (k : Kernel) :
    Started { h with kernel := k } :=
  ⟨started.ready, started.handlers, started.onConn, started.onClose, started.unhandled⟩

theorem running_next {s s' : ServerMain} (running : Running s) {op : MainOp}
    (hstep : s.next op = some s') : Running s' := by
  cases op with
  | arrive d =>
    cases hstep
    exact ⟨running.started, running.element⟩
  | turn events late errno ans =>
    have started : Started (s.hostAfter events) :=
      running.started.acted (hostAfter_acted running events)
    rw [next_turn running] at hstep
    obtain ⟨element, hafter, hserve⟩ := Option.bind_eq_some_iff.mp hstep
    cases element with
    | none =>
      cases hserve
      exact ⟨started, by simp⟩
    | some e =>
      simp only [serveTaken] at hserve
      split_ifs at hserve
      · obtain ⟨resp, -, rfl⟩ := Option.map_eq_some_iff.mp hserve
        exact ⟨started.kernel _, by simp [answered]⟩
      · cases hserve
        refine ⟨started.kernel _, ?_⟩
        rintro _ ⟨⟩
        rfl

/-! ### The start -/

/-- The program with the server that it started. -/
def initial (host : Host udp) : ServerMain := ⟨host, [], none, []⟩

/-- "127.0.0.1". -/
def localAddress : List UInt8 := [49, 50, 55, 46, 48, 46, 48, 46, 49]

/-- `init(server_t<udp, epoll_t>&, int)`. -/
def init (pton : InetPton) (localPort : UInt64) (ans : Except Errno Fd) (bound : Answer)
    (added : Bool) : Bool × Host udp :=
  (Host.initial AfInet.ipv4.toInt none).startConnectionless pton rfl localAddress localPort
    (some onMessage) (some onClose) ans bound added

theorem createActive_impl {proto : Proto} {af : Int} {local_ : InAddressPort}
    {ans : Except Errno Fd} {bound : Answer} {k k' : Kernel} {active : ActiveSocket}
    (h : Host.createActive proto af local_ ans bound k = (some active, k')) :
    ∃ fd, active.impl = ⟨some fd, af⟩ := by
  unfold Host.createActive at h
  split at h
  · rename_i sock k1 hcreate
    obtain ⟨fd, hfd⟩ := SocketT.create_impl hcreate
    have himpl : active.impl = sock.impl :=
      SocketT.bindConnectionless_impl (Option.mem_def.mpr (congrArg Prod.fst h))
    exact ⟨fd, himpl.trans hfd⟩
  · cases h

theorem running_initial {pton : InetPton} {localPort : UInt64} {ans : Except Errno Fd}
    {bound : Answer} {added : Bool} (started : (init pton localPort ans bound added).1 = true) :
    Running (initial (init pton localPort ans bound added).2) := by
  refine ⟨?_, by simp [initial]⟩
  unfold init Host.startConnectionless at started
  have hidle : (Host.initial AfInet.ipv4.toInt none : Host udp).server.state.isIdle = true := rfl
  simp only [hidle, ↓reduceIte] at started
  cases haddress : fromStringAndPort pton localAddress localPort with
  | none => simp [haddress] at started
  | some addr =>
    rcases hcreate : Host.createActive udp (Host.initial AfInet.ipv4.toInt none : Host udp).server.af
      addr ans bound (Host.initial AfInet.ipv4.toInt none : Host udp).kernel with ⟨_ | active, k⟩
    · simp [haddress, hcreate] at started
    · obtain ⟨fd, himpl⟩ := createActive_impl hcreate
      have hserver : (initial (init pton localPort ans bound added).2).host.server =
          { (Host.initial AfInet.ipv4.toInt none : Host udp).registerCbs.server with
            state := .active rfl active
            onConn := some (some onMessage)
            eraseActiveSocket := some (some onClose) } := by
        simp only [initial, init, Host.startConnectionless, hidle, ↓reduceIte, haddress, hcreate]
        cases added <;> rfl
      refine ⟨⟨rfl, active, ?_, ?_, ?_⟩, ?_, ?_, ?_, ?_⟩
      all_goals first | rw [hserver] | rw [himpl]
      all_goals rfl

end ServerMain

end TypedSockets.App
