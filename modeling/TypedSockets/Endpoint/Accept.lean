import TypedSockets.Endpoint.Dispatch
import TypedSockets.Endpoint.Server
import TypedSockets.Lib.Run

/-! The connections that wait at the listening descriptor, which the poll reports on the edge only:
when a report of it leaves none of them behind. -/

namespace TypedSockets.Endpoint

open TypedSockets.Socket TypedSockets.Epoll EpollFlags TypedSockets.Lib

/-- A connection comes in, or `proceed` is called and `epoll_wait` stores `raw`. -/
inductive HostOp where
  | arrive (peer : FilledAddr)
  | proceed (new : Fd) (added : Bool) (raw : List RawEvent)

namespace Host

variable {proto : Proto}

/-- The listening descriptor is reported as ready to be read. -/
def Reports (h : Host proto) (raw : List RawEvent) : Prop :=
  ∃ r ∈ raw, r.fd = h.getFd ∧ r.flags &&& epollIn ≠ 0

instance (h : Host proto) (raw : List RawEvent) : Decidable (h.Reports raw) :=
  inferInstanceAs (Decidable (∃ r ∈ raw, _))

/-- `epoll_wait` has the listening descriptor to report: edge-triggered, when a connection came
after the last report, and level-triggered, when one waits. -/
def reportable (h : Host proto) : Bool :=
  match h.registered h.getFd with
  | some op =>
    flagsFromOp op &&& epollIn ≠ 0 &&
      if flagsFromOp op &&& epollEt ≠ 0 then h.edge else !h.queue.isEmpty
  | none => false

/-- What `epoll_wait` and `accept4` may answer: a descriptor is reported once in a call, and
`accept4` fails on an empty queue only. -/
def Admissible (h : Host proto) (new : Fd) (raw : List RawEvent) : Prop :=
  (raw.map RawEvent.fd).Nodup ∧
    (h.Reports raw → h.reportable = true ∧ 0 ≤ new ∧ ¬h.kernel.Open new)

instance (h : Host proto) (new : Fd) (raw : List RawEvent) : Decidable (h.Admissible new raw) :=
  inferInstanceAs (Decidable (_ ∧ _))

def next (user : ServerUser) (h : Host proto) : HostOp → Option (Host proto)
  | .arrive peer => some { h with queue := h.queue ++ [peer], edge := true }
  | .proceed new added raw =>
    if h.Admissible new raw then
      let h := { h with edge := h.edge && !decide (h.Reports raw) }
      some (h.proceed user new added (EpollT.proceed raw)).2
    else none

/-- The connections given to `on_conn`, oldest first. -/
def handed (h : Host proto) : List (Fd × InAddressPort) :=
  h.trace.reverse.filterMap fun
    | .onConn _ fd remote => some (fd, remote)
    | _ => none

/-- The descriptors added to the poll, oldest first. -/
def polled (h : Host proto) : List Fd :=
  h.trace.reverse.filterMap fun
    | .added fd _ => some fd
    | _ => none

/-- A `proceed` that reports the listening descriptor empties the queue: every connection in it is
added to the poll and given to `on_conn`, once each. -/
def Serves (user : ServerUser) (h : Host proto) : HostOp → Prop
  | .arrive _ => True
  | .proceed new added raw =>
    h.Reports raw → ∀ h', h.next user (.proceed new added raw) = some h' →
      h'.queue = [] ∧ ∃ conns, h'.handed = h.handed ++ conns ∧
        h'.polled = h.polled ++ conns.map Prod.fst ∧
        conns.map (fun conn => some conn.2) = h.queue.map parseAddr

/-- At most one connection waits when the listening descriptor is reported, and the poll takes its
descriptor. -/
def Single (h : Host proto) : HostOp → Prop
  | .arrive _ => True
  | .proceed new added raw =>
    h.Admissible new raw → h.Reports raw →
      h.queue.length ≤ 1 ∧ (h.queue ≠ [] → added = true)

/-- A server that listens, as `start` leaves it. -/
structure Listening (s : Server proto) : Prop where
  socket : ∃ based sock fd, s.state = .listening based sock ∧ sock.impl.fd = some fd ∧
    (sock.impl.family = AfInet.ipv4.toInt ∨ sock.impl.family = AfInet.ipv6.toInt)
  reads : ∀ tp, s.handlers tp = some .readReady ↔ tp = EventType.readReady
  notifies : ∃ func, s.onConn = some (some func)

/-! ### What `start` leaves -/

theorem createListener_impl {af : Int} {local_ : InAddressPort} {maxConns : UInt32}
    {ans : Except Errno Fd} {bound listened : Answer} {k k' : Kernel} {listener : ListeningSocket}
    (h : createListener proto af local_ maxConns ans bound listened k = (some listener, k')) :
    ∃ fd, listener.impl = ⟨some fd, af⟩ := by
  unfold createListener at h
  split at h
  · rename_i sock k1 hcreate
    split at h
    · rename_i binded left k2 hbind
      obtain ⟨fd, hfd⟩ := SocketT.create_impl hcreate
      have hbinded : binded.impl = sock.impl := SocketT.bind_impl (k := k1) (by rw [hbind]; rfl)
      have hlisten : listener.impl = binded.impl :=
        BindedSocket.listen_impl (Option.mem_def.mpr (congrArg Prod.fst h))
      exact ⟨fd, by rw [hlisten, hbinded, hfd]⟩
    · cases h
  · cases h

@[simp] theorem addSocket_server (h : Host proto) (fd : Fd) (op : SockOp) (added : Bool) :
    (h.addSocket fd op added).server = h.server := by
  unfold Host.addSocket
  split <;> rfl

theorem start_server {pton : InetPton} {h : Host proto} {based : proto.isConnectionless = false}
    {args : ServerArgs} {ans : Except Errno Fd} {bound listened : Answer} {added : Bool}
    (started : (h.start pton based args ans bound listened added).1 = true) :
    ∃ listener fd, listener.impl = ⟨some fd, h.server.af⟩ ∧
      (h.start pton based args ans bound listened added).2.server =
        { h.registerCbs.server with
          state := .listening based listener
          onConn := some args.onConn
          eraseActiveSocket := args.eraseActiveSocket.map some } := by
  unfold Host.start at started ⊢
  by_cases hidle : h.server.state.isIdle = true
  · simp only [hidle, ↓reduceIte] at started ⊢
    cases haddress : fromStringAndPort pton args.address args.port with
    | none => simp [haddress] at started
    | some address =>
      simp only [haddress] at started ⊢
      rcases hcreate : createListener proto h.server.af address args.maxConns ans bound listened
        h.kernel with ⟨_ | listener, k⟩
      · simp [hcreate] at started
      · obtain ⟨fd, himpl⟩ := createListener_impl hcreate
        refine ⟨listener, fd, himpl, ?_⟩
        simp only [Host.setState, addSocket_server]
        rfl
  · simp [hidle] at started

/-- A server that never listened before listens once `start` returned true. -/
theorem start_listening {pton : InetPton} {h : Host proto} {based : proto.isConnectionless = false}
    {args : ServerArgs} {ans : Except Errno Fd} {bound listened : Answer} {added : Bool}
    {func : Callback} (unused : h.server.handlers = .empty)
    (family : h.server.af = AfInet.ipv4.toInt ∨ h.server.af = AfInet.ipv6.toInt)
    (onConn : args.onConn = some func)
    (started : (h.start pton based args ans bound listened added).1 = true) :
    Listening (h.start pton based args ans bound listened added).2.server := by
  obtain ⟨listener, fd, himpl, hserver⟩ := start_server started
  rw [hserver]
  refine ⟨⟨based, listener, fd, rfl, by rw [himpl], by rw [himpl]; exact family⟩, ?_, func,
    by rw [onConn]⟩
  intro tp
  have htable : h.registerCbs.server.handlers =
      cbs.foldl (fun t cb => (t.add cb.1 cb.2).2) .empty := by
    rw [← unused]
    rfl
  simp only [htable]
  constructor
  · intro hfold
    rcases Handlers.addAll_mem cbs hfold with hempty | hmem
    · cases hempty
    · simpa [cbs] using hmem
  · rintro rfl
    decide

/-! ### What one report does -/

/-- What the actions other than an accepted connection leave alone. -/
structure Untouched (new : Fd) (h h' : Host proto) : Prop where
  server : h'.server = h.server
  queue : h'.queue = h.queue
  handed : h'.handed = h.handed
  polled : h'.polled = h.polled
  fresh : ¬h.kernel.Open new → ¬h'.kernel.Open new

variable {new : Fd} {h : Host proto}

theorem Untouched.refl (h : Host proto) : Untouched new h h := ⟨rfl, rfl, rfl, rfl, id⟩

theorem Untouched.trans {h1 h2 h3 : Host proto} (h12 : Untouched new h1 h2)
    (h23 : Untouched new h2 h3) : Untouched new h1 h3 :=
  ⟨h23.server.trans h12.server, h23.queue.trans h12.queue, h23.handed.trans h12.handed,
    h23.polled.trans h12.polled, h23.fresh ∘ h12.fresh⟩

theorem Untouched.drop (h : Host proto) (fd : Fd) : Untouched new h (h.drop fd) := by
  unfold Host.drop
  split
  · refine ⟨rfl, rfl, rfl, rfl, fun hnew hopen => ?_⟩
    exact hnew ((Kernel.open_close h.kernel fd new).mp hopen).2
  · exact .refl h

theorem Untouched.dropAll (h : Host proto) (fds : List Fd) :
    Untouched new h (fds.foldl Host.drop h) := by
  induction fds generalizing h with
  | nil => exact .refl h
  | cons fd fds ih => exact (Untouched.drop h fd).trans (ih (h.drop fd))

theorem Untouched.delSocket (h : Host proto) (fd : Fd) : Untouched new h (h.delSocket fd) :=
  ⟨rfl, rfl, rfl, rfl, id⟩

variable (user : ServerUser)

/-- What the user does with an action: the action is in the trace. -/
theorem Untouched.call (h : Host proto) (action : Action) :
    Untouched new { h with trace := action :: h.trace } (h.call user action).2 :=
  Untouched.dropAll _ _

/-- An action that hands nothing over. -/
theorem Untouched.quiet (h : Host proto) {action : Action}
    (handed : ∀ func fd remote, action ≠ .onConn func fd remote)
    (polled : ∀ fd op, action ≠ .added fd op) : Untouched new h (h.call user action).2 := by
  have logged : Untouched new h { h with trace := action :: h.trace } := by
    refine ⟨rfl, rfl, ?_, ?_, id⟩
    · cases action <;> simp_all [Host.handed]
    · cases action <;> simp_all [Host.polled]
  exact logged.trans (.call user h action)

/-- A connection handed to a function of the user. -/
theorem Untouched.handOver {h : Host proto} (fd : Fd) (remote : InAddressPort) {func : Callback}
    (onConn : h.server.onConn = some (some func)) :
    Untouched new { h with trace := .onConn func fd remote :: h.trace }
      (h.handOver user fd remote).2 := by
  have held : Untouched new { h with trace := .onConn func fd remote :: h.trace }
      { h with held := fd :: h.held, trace := .onConn func fd remote :: h.trace } :=
    ⟨rfl, rfl, rfl, rfl, id⟩
  unfold Host.handOver
  simp only [onConn]
  exact held.trans (.call user { h with held := fd :: h.held } _)

theorem Untouched.invoke (added : Bool) {func : ServerHandler} {fd : Fd} (h : Host proto)
    (other : func = .readReady → fd ≠ h.getFd) :
    Untouched new h (h.invoke user new added func fd).2 := by
  unfold Host.invoke
  cases func with
  | erase =>
    have del : Untouched new h (h.delSocket fd) := .delSocket h fd
    simp only
    split
    · refine del.trans (Untouched.quiet user _ ?_ ?_)
      · intro func fd remote
        split <;> simp
      · intro fd op
        split <;> simp
    · exact del
  | readReady =>
    simp only [other rfl, ↓reduceIte]
    exact .refl h

/-- One connection is accepted, when there is one. -/
structure Accepted (added : Bool) (h h' : Host proto) : Prop where
  server : h'.server = h.server
  queue : h'.queue = h.queue.tail
  served : ∃ conns, h'.handed = h.handed ++ conns ∧
    h'.polled = h.polled ++ (if added then conns.map Prod.fst else []) ∧
    conns.map (fun conn => some conn.2) = (h.queue.take 1).map parseAddr

theorem Accepted.untouched {added : Bool} {h1 h2 h3 : Host proto} (h12 : Accepted added h1 h2)
    (new : Fd) (h23 : Untouched new h2 h3) : Accepted added h1 h3 := by
  obtain ⟨conns, hhanded, hpolled, hpeers⟩ := h12.served
  exact ⟨h23.server.trans h12.server, h23.queue.trans h12.queue, conns,
    h23.handed.trans hhanded, h23.polled.trans hpolled, hpeers⟩

theorem Untouched.accepted {added : Bool} {h1 h2 h3 : Host proto} (h12 : Untouched new h1 h2)
    (h23 : Accepted added h2 h3) : Accepted added h1 h3 := by
  obtain ⟨conns, hhanded, hpolled, hpeers⟩ := h23.served
  rw [h12.handed] at hhanded
  rw [h12.polled] at hpolled
  rw [h12.queue] at hpeers
  exact ⟨h23.server.trans h12.server, h12.queue ▸ h23.queue, conns, hhanded, hpolled, hpeers⟩

theorem accept_empty (sock : ListeningSocket) (new : Fd) (empty : h.queue = []) :
    ∃ k, h.accept sock new = (none, { h with kernel := k }) := by
  have hnone : ∀ k, (sock.accept (.error eAgain) k).1 = none := by
    intro k
    unfold ListeningSocket.accept SocketImpl.accept Kernel.accept4
    grind
  refine ⟨(sock.accept (.error eAgain) h.kernel).2, ?_⟩
  simp [Host.accept, empty, hnone]

theorem accept_waiting {sock : ListeningSocket} {fd : Fd} (hfd : sock.impl.fd = some fd)
    (family : sock.impl.family = AfInet.ipv4.toInt ∨ sock.impl.family = AfInet.ipv6.toInt)
    (positive : 0 ≤ new) (fresh : ¬h.kernel.Open new) {peer : FilledAddr} {rest : List FilledAddr}
    (waiting : h.queue = peer :: rest) :
    ∃ conn remote k, h.accept sock new = (some conn, { h with kernel := k, queue := rest }) ∧
      conn.impl.handle = new ∧ conn.remote = some remote ∧ parseAddr peer = some remote := by
  obtain ⟨conn, remote, k, haccept, hconn, hremote, hparse⟩ :=
    ListeningSocket.accept_ok peer hfd family positive fresh
  refine ⟨conn, remote, k, ?_, by simp [SocketImpl.handle, hconn], hremote, hparse⟩
  simp [Host.accept, waiting, haccept]

theorem invoke_accepted {added : Bool} (listening : Listening h.server) (positive : 0 ≤ new)
    (fresh : ¬h.kernel.Open new) :
    Accepted added h (h.invoke user new added .readReady h.getFd).2 := by
  obtain ⟨based, sock, fd, hstate, hfd, family⟩ := listening.socket
  obtain ⟨func, honConn⟩ := listening.notifies
  unfold Host.invoke
  simp only [↓reduceIte, based, Bool.false_eq_true, hstate]
  cases hqueue : h.queue with
  | nil =>
    obtain ⟨k, haccept⟩ := accept_empty sock new hqueue
    simp only [haccept]
    exact ⟨rfl, by rw [hqueue]; rfl, [], by simp [Host.handed], by simp [Host.polled], by simp [hqueue]⟩
  | cons peer rest =>
    obtain ⟨conn, remote, k, haccept, hhandle, hremote, hparse⟩ :=
      accept_waiting hfd family positive fresh hqueue
    simp only [haccept, hhandle, hremote]
    let h1 : Host proto := { h with kernel := k, queue := rest }.addSocket new .read added
    have honConn1 : h1.server.onConn = some (some func) := by
      rw [addSocket_server]
      exact honConn
    refine Accepted.untouched ?_ new (.handOver user new remote honConn1)
    cases added with
    | true =>
      exact ⟨rfl, by rw [hqueue]; rfl, [(new, remote)], by simp [Host.handed, Host.addSocket],
        by simp [Host.polled, Host.addSocket], by simp [hqueue, hparse]⟩
    | false =>
      exact ⟨rfl, by rw [hqueue]; rfl, [(new, remote)], by simp [Host.handed, Host.addSocket],
        by simp [Host.polled, Host.addSocket], by simp [hqueue, hparse]⟩

variable {table : Handlers ServerHandler}

/-- An event that does not report the listening descriptor accepts nothing. -/
theorem handleEvent_untouched (added : Bool) {h : Host proto} {event : Event}
    (other : event.fd ≠ h.getFd) :
    Untouched new h (handleEvent (Host.invoke user new added) table event h).2 := by
  refine handleEvent_induction (fun h' => Untouched new h h') ?_ (.refl h)
  intro tp func _ h' hh'
  refine hh'.trans (.invoke user added h' fun _ => ?_)
  rwa [Host.getFd, hh'.server]

theorem handleEvents_untouched (added : Bool) {h : Host proto} {events : List Event}
    (other : ∀ event ∈ events, event.fd ≠ h.getFd) :
    Untouched new h (handleEvents (Host.invoke user new added) table events h).2 := by
  refine handleEvents_induction (fun h' => Untouched new h h') ?_ (.refl h)
  intro event hevent h' hh'
  refine hh'.trans (handleEvent_untouched user added ?_)
  rw [Host.getFd, hh'.server]
  exact other event hevent

/-- Types under which accepting is not looked up accept nothing. -/
theorem handleEventTypes_untouched (added : Bool) {h : Host proto} {event : Event}
    {tps : List EventType} (other : ∀ tp ∈ tps, table (event.type &&& tp) ≠ some .readReady)
    (found : Bool) :
    Untouched new h (handleEventTypes (Host.invoke user new added) table event tps found h).2 := by
  refine handleEventTypes_induction (fun h' => Untouched new h h') ?_ _ (.refl h)
  rintro tp htp func hfunc h' hh'
  refine hh'.trans (.invoke user added h' ?_)
  rintro rfl
  exact absurd hfunc (other tp htp)

theorem laterTypes {tp : EventType} (h : tp ∈ dispatchOrder.tail) :
    tp ∈ EventType.singles ∧ tp ≠ .readReady := by
  simp only [dispatchOrder, List.tail_cons, List.mem_cons, List.not_mem_nil, or_false] at h
  rcases h with rfl | rfl | rfl | rfl | rfl
  all_goals exact ⟨by simp [EventType.singles], by decide⟩

/-- The event that reports the listening descriptor accepts one connection. -/
theorem handleEvent_accepted (added : Bool) {h : Host proto} {event : Event}
    (listening : Listening h.server) (positive : 0 ≤ new) (fresh : ¬h.kernel.Open new)
    (own : event.fd = h.getFd) (ready : event.type &&& .readReady = .readReady) :
    Accepted added h (handleEvent (Host.invoke user new added) h.server.handlers event h).2 := by
  have hlook : h.server.handlers (event.type &&& .readReady) = some .readReady := by
    rw [ready]
    exact (listening.reads _).mpr rfl
  have hlater : ∀ tp ∈ dispatchOrder.tail,
      h.server.handlers (event.type &&& tp) ≠ some .readReady := by
    intro tp htp hfunc
    obtain ⟨hsingle, hne⟩ := laterTypes htp
    have hkey := (listening.reads _).mp hfunc
    rw [mask_single hsingle] at hkey
    split_ifs at hkey
    · exact absurd hkey hne
    · exact absurd hkey (by decide)
  have haccepted : Accepted added h (h.invoke user new added .readReady h.getFd).2 :=
    invoke_accepted user listening positive fresh
  unfold handleEvent dispatchOrder
  rw [handleEventTypes_cons]
  simp only [handleEventType, hlook, own]
  rcases hinvoke : h.invoke user new added .readReady h.getFd with ⟨_ | _, h1⟩
  · rw [hinvoke] at haccepted
    exact haccepted
  · rw [hinvoke] at haccepted
    exact haccepted.untouched new (handleEventTypes_untouched user added hlater _)

theorem proceed_unhandled (h : Host proto) (added : Bool) (events : List Event) :
    Untouched new
      (handleEvents (Host.invoke user new added) h.server.handlers events h).2
      (h.proceed user new added events).2 := by
  unfold Host.proceed
  rw [proceed_snd]
  cases h.server.unhandled with
  | none => exact .refl _
  | some func =>
    rw [Option.map_some, handleUnhandled_some]
    exact .quiet user _ (by simp) (by simp)

/-- The one event of a batch that reports the listening descriptor. -/
theorem Reports.split {h : Host proto} {raw : List RawEvent} (reports : h.Reports raw)
    (once : (raw.map RawEvent.fd).Nodup) :
    ∃ pre r post, raw = pre ++ r :: post ∧ r.fd = h.getFd ∧
      r.toEvent.type &&& .readReady = .readReady ∧
      (∀ event ∈ EpollT.proceed pre, event.fd ≠ h.getFd) ∧
      ∀ event ∈ EpollT.proceed post, event.fd ≠ h.getFd := by
  obtain ⟨r, hmem, hfd, hflag⟩ := reports
  obtain ⟨pre, post, rfl⟩ := List.append_of_mem hmem
  rw [List.map_append, List.map_cons, List.nodup_append, List.nodup_cons] at once
  obtain ⟨-, ⟨hpost, -⟩, hpre⟩ := once
  refine ⟨pre, r, post, rfl, hfd, ?_, ?_, ?_⟩
  · have hentry : (epollIn, EventType.readReady) ∈ flagOrder := by simp [flagOrder]
    have hmask := eventTypeFromFlags_mask r.flags hentry
    rw [if_pos hflag] at hmask
    exact hmask
  · intro event hevent
    obtain ⟨e, he, rfl⟩ := List.mem_map.mp hevent
    rw [← hfd]
    exact hpre e.fd (List.mem_map_of_mem he) r.fd List.mem_cons_self
  · intro event hevent heq
    obtain ⟨e, he, rfl⟩ := List.mem_map.mp hevent
    rw [← hfd] at heq
    exact hpost (heq ▸ List.mem_map_of_mem he)

/-- A batch that reports the listening descriptor accepts one connection. -/
theorem proceed_accepted {h : Host proto} (added : Bool) {raw : List RawEvent}
    (listening : Listening h.server) (positive : 0 ≤ new) (fresh : ¬h.kernel.Open new)
    (once : (raw.map RawEvent.fd).Nodup) (reports : h.Reports raw) :
    Accepted added h (h.proceed user new added (EpollT.proceed raw)).2 := by
  obtain ⟨pre, r, post, rfl, hfd, hready, hbefore, hafter⟩ := reports.split once
  have hsplit : EpollT.proceed (pre ++ r :: post) =
      EpollT.proceed pre ++ ([r.toEvent] ++ EpollT.proceed post) := by
    simp [EpollT.proceed]
  refine Accepted.untouched ?_ new (proceed_unhandled user h added _)
  rw [hsplit, handleEvents_append, handleEvents_append]
  let dispatch : List Event → Host proto → Host proto := fun events h1 =>
    (handleEvents (Host.invoke user new added) h.server.handlers events h1).2
  have hpre : Untouched new h (dispatch (EpollT.proceed pre) h) :=
    handleEvents_untouched user added hbefore
  have hown : Accepted added (dispatch (EpollT.proceed pre) h)
      (dispatch [r.toEvent] (dispatch (EpollT.proceed pre) h)) := by
    have hone := handleEvent_accepted user (h := dispatch (EpollT.proceed pre) h) added
      (hpre.server ▸ listening) positive (hpre.fresh fresh)
      (by rw [Host.getFd, hpre.server]; exact hfd) hready
    rw [hpre.server] at hone
    exact hone
  have hrest : Untouched new (dispatch [r.toEvent] (dispatch (EpollT.proceed pre) h))
      (dispatch (EpollT.proceed post) (dispatch [r.toEvent] (dispatch (EpollT.proceed pre) h))) :=
    handleEvents_untouched user added fun event hevent => by
      rw [Host.getFd, hown.server, hpre.server]
      exact hafter event hevent
  exact hpre.accepted (hown.untouched new hrest)

/-! ### Runs -/

variable {user}

theorem serves_of_accepted {added : Bool} {h h' : Host proto} (accepted : Accepted added h h') :
    (h'.queue = [] ∧ ∃ conns, h'.handed = h.handed ++ conns ∧
        h'.polled = h.polled ++ conns.map Prod.fst ∧
        conns.map (fun conn => some conn.2) = h.queue.map parseAddr) ↔
      h.queue.length ≤ 1 ∧ (h.queue ≠ [] → added = true) := by
  obtain ⟨conns, hhanded, hpolled, hpeers⟩ := accepted.served
  rw [accepted.queue]
  constructor
  · rintro ⟨hempty, conns', hhanded', hpolled', hpeers'⟩
    obtain rfl : conns = conns' := List.append_cancel_left (hhanded.symm.trans hhanded')
    have hlength := congrArg List.length hempty
    rw [List.length_tail, List.length_nil] at hlength
    refine ⟨by omega, fun hwaits => ?_⟩
    by_contra hadded
    have hnone : conns.map Prod.fst = [] := by
      have hsame := List.append_cancel_left (hpolled'.symm.trans hpolled)
      simpa [hadded] using hsame
    rw [List.map_eq_nil_iff.mp hnone] at hpeers'
    exact hwaits (List.map_eq_nil_iff.mp hpeers'.symm)
  · rintro ⟨hlength, hadded⟩
    have htail : h.queue.tail = [] := by
      rw [← List.length_eq_zero_iff, List.length_tail]
      omega
    have htake : h.queue.take 1 = h.queue := List.take_of_length_le hlength
    rw [htake] at hpeers
    refine ⟨htail, conns, hhanded, ?_, hpeers⟩
    by_cases hwaits : h.queue = []
    · have hnone : conns = [] := by simpa [hwaits] using hpeers
      simpa [hnone] using hpolled
    · simpa [hadded hwaits] using hpolled

theorem serves_iff {h : Host proto} (listening : Listening h.server) (op : HostOp) :
    Serves user h op ↔ Single h op := by
  cases op with
  | arrive peer => exact Iff.rfl
  | proceed new added raw =>
    by_cases hadmissible : h.Admissible new raw
    · by_cases hreports : h.Reports raw
      · obtain ⟨-, hpositive, hfresh⟩ := hadmissible.2 hreports
        have haccepted : Accepted added h
            ({ h with edge := h.edge && !decide (h.Reports raw) }.proceed user new added
              (EpollT.proceed raw)).2 := by
          have hstep := proceed_accepted user
            (h := { h with edge := h.edge && !decide (h.Reports raw) }) added listening hpositive
            hfresh hadmissible.1 hreports
          exact ⟨hstep.server, hstep.queue, hstep.served⟩
        have hiff := serves_of_accepted haccepted
        simpa [Serves, Single, Host.next, hadmissible, hreports] using hiff
      · simp [Serves, Single, hreports]
    · simp [Serves, Single, Host.next, hadmissible]

variable (user) in
theorem call_server (h : Host proto) (action : Action) :
    (h.call user action).2.server = h.server :=
  (Untouched.call user h action : Untouched 0 _ _).server

variable (user) in
theorem handOver_server (h : Host proto) (fd : Fd) (remote : InAddressPort) :
    (h.handOver user fd remote).2.server = h.server := by
  unfold Host.handOver
  simp only
  split
  · exact call_server user _ _
  · exact (Untouched.drop _ fd : Untouched 0 _ _).server

variable (user) in
/-- No handler changes the server itself. -/
theorem invoke_server (new : Fd) (added : Bool) (func : ServerHandler) (fd : Fd)
    (h : Host proto) : (h.invoke user new added func fd).2.server = h.server := by
  by_cases other : func = .readReady → fd ≠ h.getFd
  · exact (Untouched.invoke user added h other : Untouched new _ _).server
  · obtain ⟨rfl, hfd⟩ := Classical.not_imp.mp other
    unfold Host.invoke
    simp only [not_not.mp hfd, ↓reduceIte]
    split
    · split
      · exact call_server user h _
      · rfl
    · split
      · rename_i based sock hstate
        rcases haccept : h.accept sock new with ⟨_ | conn, h1⟩
        · exact (congrArg (fun r => r.2.server) haccept).symm
        · have hserver : h1.server = h.server := (congrArg (fun r => r.2.server) haccept).symm
          simp only
          split
          · rw [handOver_server, addSocket_server, hserver]
          · rw [addSocket_server, hserver]
      · rfl

theorem next_server {h h' : Host proto} {op : HostOp} (hnext : h.next user op = some h') :
    h'.server = h.server := by
  cases op with
  | arrive peer =>
    cases hnext
    rfl
  | proceed new added raw =>
    simp only [Host.next, Option.ite_none_right_eq_some, Option.some.injEq] at hnext
    obtain ⟨-, rfl⟩ := hnext
    refine (proceed_unhandled user _ added _ : Untouched new _ _).server.trans ?_
    refine handleEvents_induction (fun h1 : Host proto => h1.server = h.server) ?_ rfl
    intro event _ h1 hh1
    exact handleEvent_induction (fun h1 : Host proto => h1.server = h.server)
      (fun _ func _ h2 hh2 => (invoke_server user new added func event.fd h2).trans hh2) hh1

/-- In every run of a listening server, a report of the listening descriptor empties the queue
exactly when at most one connection waits and the poll takes it. -/
theorem serves_run (user : ServerUser) {h : Host proto} (listening : Listening h.server)
    (ops : List HostOp) :
    Along (Host.next user) (Serves user) h ops ↔ Along (Host.next user) Single h ops :=
  along_iff (fun (h1 : Host proto) op (hlistening : Listening h1.server) =>
      serves_iff hlistening op)
    (fun _ _ _ hlistening _ hnext => (next_server hnext).symm ▸ hlistening) listening ops

def silent : ServerUser := fun _ => (.ok (), [])

/-- A server that listens on 127.0.0.1:80 under descriptor 3. -/
def started : Host tcp :=
  ((initial AfInet.ipv4.toInt none).start loopbackPton rfl
    ⟨[49, 50, 55, 46, 48, 46, 48, 46, 49], 80, 5, some 1, some 2⟩ (.ok 3) (.ok ()) (.ok ()) true).2

theorem started_listening : Listening started.server :=
  start_listening rfl (Or.inl rfl) rfl (by decide)

def peerOn (port : UInt16) : FilledAddr := ⟨.in4 port fun _ => 0, fun _ => 0⟩

/-- Two connections come in before the poll reports them. -/
def pairRun : List HostOp :=
  [.arrive (peerOn 1), .arrive (peerOn 2), .proceed 4 true [⟨3, epollIn⟩]]

theorem serves_run_pair :
    Along (Host.next silent) (Serves silent) started pairRun ↔
      Along (Host.next silent) Single started pairRun :=
  serves_run silent started_listening pairRun

theorem pairRun_not_served : ¬Along (Host.next silent) (Serves silent) started pairRun := by
  intro h
  have hserves := ((h.2 _ rfl).2 _ rfl).1
  have hqueue := (hserves ⟨⟨3, epollIn⟩, by simp, rfl, by decide⟩ _ rfl).1
  exact absurd hqueue (by decide)

end Host

end TypedSockets.Endpoint
