import TypedSockets.App.ClientMain
import TypedSockets.App.Delivery
import TypedSockets.Endpoint.EraseOnce

/-! The server program over TCP with all its connections.  Its main loop calls `proceed`, which
inserts and erases elements of `active_sockets`, and then drains and answers one element after the
other. -/

namespace TypedSockets.App

open TypedSockets.Socket TypedSockets.Epoll TypedSockets.Endpoint TypedSockets.Lib

/-- `fd` of the `base_socket`. -/
def Connection.fd (c : Connection) : Fd := c.sock.sock.impl.handle

/-- The vector `active_sockets`: its elements, and how many of them its block has room for.  An
operation that moves an element has no outcome: the pointer of the element refers to the place that
it was moved from. -/
structure Connections where
  capacity : Nat
  elements : List Connection

namespace Connections

/-- `emplace_back`.  A new block has `spare` slots more than it needs. -/
def emplaceBack (v : Connections) (spare : Nat) (c : Connection) : Option Connections :=
  if v.elements.length < v.capacity then some { v with elements := v.elements ++ [c] }
  else if v.elements.isEmpty then some ⟨1 + spare, [c]⟩
  else none

/-- `erase` of what `remove_if` leaves behind the elements without the descriptor. -/
def eraseFd (v : Connections) (fd : Fd) : Option Connections :=
  if (v.elements.dropWhile fun c => c.fd ≠ fd).all fun c => c.fd = fd then
    some { v with elements := v.elements.takeWhile fun c => c.fd ≠ fd }
  else none

end Connections

/-- What the main loop meets at the element with the descriptor: the chunks that `recv` hands out and
what follows them, and the answer to `send`. -/
structure Reading where
  fd : Fd
  chunks : List (List UInt8 × FilledAddr)
  ending : Ending
  ans : Except Errno Nat

def Reading.visit (r : Reading) (k : Kernel) : Visit := ⟨k, r.chunks, r.ending, r.ans⟩

/-- The kernel after the visit of an element. -/
def Connection.kernelAfter (c : Connection) (v : Visit) : Kernel :=
  match c.drained v with
  | some d =>
    let k := { v.kernel with errno := d.rx.errno }
    if finished d then
      match Service.createResponse d.received with
      | some resp => (c.sock.sock.send tcp c.sock.remote resp v.ans k).2.2
      | none => k
    else k
  | none => v.kernel

/-- The program between two turns of its main loop. -/
structure TcpServer where
  host : Host tcp
  sockets : Connections

/-- A connection comes in, or the main loop takes a turn: the events of the poll, the descriptor
that `accept4` returns, the answer of the poll that it is added to, and the readings of the elements
in the order of the loop. -/
inductive TcpOp where
  | arrive (peer : FilledAddr)
  | turn (events : List Event) (new : Fd) (added : Bool) (spare : Nat) (readings : List Reading)

namespace TcpServer

/-- The functions that the program gives to `start`, as numbers. -/
def onConn : Callback := 0

def eraseActiveSocket : Callback := 1

/-- They throw nothing, and the second one destroys the element with the descriptor. -/
def callbacks : ServerUser
  | .eraseActiveSocket _ fd :: _ => (.ok (), [fd])
  | _ => (.ok (), [])

def serverArgs (localPort : UInt64) : ServerArgs :=
  ⟨ClientMain.loopbackText, localPort, 10, some onConn, some eraseActiveSocket⟩

/-- `init`, on a server just constructed: the constructor is given no function for unhandled
events. -/
def init (pton : InetPton) (localPort : UInt64) (ans : Except Errno Fd) (bound listened : Answer)
    (added : Bool) : Bool × Host tcp :=
  (Host.initial AfInet.ipv4.toInt none).start pton Connection.tcp_connectionBased
    (serverArgs localPort) ans bound listened added

def initial (h : Host tcp) : TcpServer := ⟨h, ⟨0, []⟩⟩

/-- The element that `on_conn` makes of a socket that was accepted. -/
def inserted (server : Server tcp) (fd : Fd) (remote : InAddressPort) : Connection :=
  match server.state with
  | .listening _ listener => .accepted
      ⟨⟨⟨some fd, listener.impl.family⟩, some remote, some listener.local_, true⟩, remote⟩
  | _ => .accepted ⟨⟨⟨some fd, server.af⟩, some remote, none, true⟩, remote⟩

/-- What an action does to `active_sockets`. -/
def act (server : Server tcp) (spare : Nat) (v : Connections) : Action → Option Connections
  | .onConn _ fd remote => v.emplaceBack spare (inserted server fd remote)
  | .eraseActiveSocket _ fd => v.eraseFd fd
  | _ => some v

/-- The call of `proceed`, and the callbacks that it makes.  An exception ends the program. -/
def proceed (s : TcpServer) (events : List Event) (new : Fd) (added : Bool) (spare : Nat) :
    Option TcpServer :=
  match s.host.proceed callbacks new added events with
  | (.ok _, h) =>
    let actions := (h.trace.take (h.trace.length - s.host.trace.length)).reverse
    (actions.foldlM (act h.server spare) s.sockets).map fun sockets => ⟨h, sockets⟩
  | (.error _, _) => none

/-- The loop over `active_sockets`, with the elements before `it` and those from it on.  An element
that was answered is visited again.  There is no outcome without the readings of the elements, where
a visit has none, and where an erasure moves an element. -/
def serve (done : List Connection) : List Connection → List Reading → Host tcp →
    Option (List Connection × Host tcp)
  | [], [], h => some (done, h)
  | c :: rest, r :: readings, h =>
    if r.fd = c.fd then
      let v := r.visit h.kernel
      (c.visit v).bind fun c' =>
        let h := { h with kernel := c.kernelAfter v }
        if c'.kept then
          if c.requests.length < c'.requests.length then serve done (c' :: rest) readings h
          else serve (done ++ [c']) rest readings h
        else if rest.isEmpty then serve done rest readings (h.drop c.fd)
        else none
    else none
  | _, _, _ => none

def next (s : TcpServer) : TcpOp → Option TcpServer
  | .arrive peer => some { s with host := { s.host with queue := s.host.queue ++ [peer], edge := true } }
  | .turn events new added spare readings =>
    (s.proceed events new added spare).bind fun s =>
      (serve [] s.sockets.elements readings s.host).map fun out =>
        ⟨out.2, { s.sockets with elements := out.1 }⟩

/-- The descriptors of the elements. -/
def fds (elements : List Connection) : List Fd := elements.map Connection.fd

/-- The open descriptors are the listening one and those of the elements, each of which has its own,
and the poll watches no other ones. -/
structure Owned (s : TcpServer) : Prop where
  apart : (s.host.getFd :: fds s.sockets.elements).Nodup
  opened : ∀ fd, s.host.kernel.Open fd ↔ fd = s.host.getFd ∨ fd ∈ fds s.sockets.elements
  polled : ∀ fd, (s.host.registered fd).isSome → s.host.kernel.Open fd

/-! ### Who holds which descriptor -/

/-- A server that runs with the functions of the program. -/
structure Running (server : Server tcp) : Prop where
  state : ∃ based listener, server.state = .listening based listener
  handlers : server.handlers = Host.table
  onConn : server.onConn = some (some TcpServer.onConn)
  erase : server.eraseActiveSocket = some (some TcpServer.eraseActiveSocket)
  unhandled : server.unhandled = none

/-- The user holds the descriptors of the elements, each its own, and no other one but the listening
one is open. -/
structure Accounts (h : Host tcp) (elements : List Connection) : Prop where
  held : h.held.Perm (fds elements)
  apart : (h.getFd :: fds elements).Nodup
  opened : ∀ fd, h.kernel.Open fd ↔ fd = h.getFd ∨ fd ∈ fds elements
  polled : ∀ fd, (h.registered fd).isSome → h.kernel.Open fd
  sockets : ∀ c ∈ elements, c.sock.sock.impl.fd.isSome

section

variable {h : Host tcp} {elements : List Connection} {fd : Fd}

theorem fds_filter (elements : List Connection) (fd : Fd) :
    fds (elements.filter fun c => c.fd ≠ fd) = (fds elements).filter fun fd' => fd' ≠ fd := by
  rw [fds, fds, List.filter_map]
  rfl

theorem mem_fds_filter {fd' : Fd} :
    fd' ∈ fds (elements.filter fun c => c.fd ≠ fd) ↔ fd' ∈ fds elements ∧ fd' ≠ fd := by
  rw [fds_filter, List.mem_filter, decide_eq_true_eq]

theorem filter_of_not_mem (h : fd ∉ fds elements) :
    (elements.filter fun c => c.fd ≠ fd) = elements := by
  refine List.filter_eq_self.mpr fun c hc => decide_eq_true fun heq => h ?_
  exact heq ▸ List.mem_map_of_mem hc

/-- The erasure of the elements with a descriptor. -/
theorem eraseFd_elements {v v' : Connections} (h : v.eraseFd fd = some v') :
    v'.elements = v.elements.filter fun c => c.fd ≠ fd := by
  unfold Connections.eraseFd at h
  split_ifs at h with hall
  cases h
  have hkept : ((v.elements.takeWhile fun c => c.fd ≠ fd).filter fun c => c.fd ≠ fd) =
      v.elements.takeWhile fun c => c.fd ≠ fd :=
    List.filter_eq_self.mpr fun c hc => List.all_eq_true.mp List.all_takeWhile c hc
  have hgone : ((v.elements.dropWhile fun c => c.fd ≠ fd).filter fun c => c.fd ≠ fd) = [] := by
    refine List.filter_eq_nil_iff.mpr fun c hc => ?_
    simpa using List.all_eq_true.mp hall c hc
  conv_rhs => rw [← List.takeWhile_append_dropWhile (p := fun c : Connection => decide (c.fd ≠ fd))
    (l := v.elements), List.filter_append, hkept, hgone, List.append_nil]

theorem emplaceBack_elements {v v' : Connections} {spare : Nat} {c : Connection}
    (h : v.emplaceBack spare c = some v') : v'.elements = v.elements ++ [c] := by
  unfold Connections.emplaceBack at h
  split_ifs at h with hroom hempty
  · cases h
    rfl
  · cases h
    rw [List.isEmpty_iff.mp hempty]
    rfl

/-- Only the descriptors of a host count. -/
theorem Accounts.congr (accounts : Accounts h elements) {h' : Host tcp}
    {elements' : List Connection}
    (held : h'.held = h.held) (listener : h'.getFd = h.getFd)
    (opened : ∀ fd, h'.kernel.Open fd ↔ h.kernel.Open fd)
    (polled : ∀ fd, (h'.registered fd).isSome → (h.registered fd).isSome)
    (same : fds elements' = fds elements)
    (sockets : ∀ c ∈ elements', c.sock.sock.impl.fd.isSome) : Accounts h' elements' := by
  refine ⟨?_, ?_, fun fd => ?_, fun fd hfd => ?_, sockets⟩
  · rw [held, same]
    exact accounts.held
  · rw [listener, same]
    exact accounts.apart
  · rw [opened, listener, same]
    exact accounts.opened fd
  · rw [opened]
    exact accounts.polled fd (polled fd hfd)

theorem Accounts.delSocket (accounts : Accounts h elements) (fd : Fd) :
    Accounts (h.delSocket fd) elements := by
  refine accounts.congr rfl rfl (fun _ => Iff.rfl) (fun fd' hfd' => ?_) rfl accounts.sockets
  by_cases heq : fd' = fd
  · subst heq
    simp [Host.delSocket] at hfd'
  · simpa [Host.delSocket, heq] using hfd'

/-- The element with a descriptor is destroyed. -/
theorem Accounts.drop (accounts : Accounts h elements) (fd : Fd) :
    Accounts (h.drop fd) (elements.filter fun c => c.fd ≠ fd) := by
  unfold Host.drop
  by_cases hmem : fd ∈ h.held
  · have hne : h.getFd ≠ fd := fun heq =>
      (List.nodup_cons.mp accounts.apart).1 (heq ▸ accounts.held.mem_iff.mp hmem)
    have hnodup : (fds elements).Nodup := (List.nodup_cons.mp accounts.apart).2
    rw [if_pos hmem]
    refine ⟨?_, ?_, fun fd' => ?_, fun fd' hfd' => ?_, fun c hc => ?_⟩
    · have herase : (fds elements).erase fd = (fds elements).filter fun fd' => fd' ≠ fd := by
        rw [hnodup.erase_eq_filter]
        exact List.filter_congr fun fd' _ => by by_cases heq : fd' = fd <;> simp [heq]
      rw [fds_filter, ← herase]
      exact accounts.held.erase fd
    · refine List.nodup_cons.mpr ⟨fun hin => ?_, ?_⟩
      · exact (List.nodup_cons.mp accounts.apart).1 (mem_fds_filter.mp hin).1
      · rw [fds_filter]
        exact hnodup.filter _
    · rw [Kernel.open_close, accounts.opened, mem_fds_filter]
      constructor
      · rintro ⟨hne', rfl | hin⟩
        · exact Or.inl rfl
        · exact Or.inr ⟨hin, hne'⟩
      · rintro (rfl | ⟨hin, hne'⟩)
        · exact ⟨hne, Or.inl rfl⟩
        · exact ⟨hne', Or.inr hin⟩
    · by_cases heq : fd' = fd
      · subst heq
        simp at hfd'
      · refine (Kernel.open_close h.kernel fd fd').mpr ⟨heq, accounts.polled fd' ?_⟩
        simpa [heq] using hfd'
    · exact accounts.sockets c (List.mem_filter.mp hc).1
  · rw [if_neg hmem, filter_of_not_mem fun hin => hmem (accounts.held.mem_iff.mpr hin)]
    exact accounts

/-- A descriptor that was not open becomes that of a new element. -/
theorem Accounts.insert (accounts : Accounts h elements) (fresh : ¬h.kernel.Open fd) {h' : Host tcp}
    {c : Connection} (hfd : c.fd = fd) (some : c.sock.sock.impl.fd.isSome)
    (held : h'.held = fd :: h.held) (listener : h'.getFd = h.getFd)
    (opened : ∀ fd', h'.kernel.Open fd' ↔ fd' = fd ∨ h.kernel.Open fd')
    (polled : ∀ fd', (h'.registered fd').isSome → fd' = fd ∨ (h.registered fd').isSome) :
    Accounts h' (elements ++ [c]) := by
  have hsame : fds (elements ++ [c]) = fds elements ++ [fd] := by simp [fds, hfd]
  have hperm : (fds elements ++ [fd]).Perm (fd :: fds elements) := List.perm_append_singleton _ _
  have hnew : fd ≠ h.getFd ∧ fd ∉ fds elements := by
    rw [accounts.opened, not_or] at fresh
    exact fresh
  obtain ⟨hlistener, hnodup⟩ := List.nodup_cons.mp accounts.apart
  refine ⟨?_, ?_, fun fd' => ?_, fun fd' hfd' => ?_, fun c' hc' => ?_⟩
  · rw [held, hsame]
    exact (accounts.held.cons fd).trans hperm.symm
  · rw [listener, hsame, List.nodup_cons, List.mem_append, List.mem_singleton, hperm.nodup_iff]
    exact ⟨fun hin => hin.elim hlistener fun heq => hnew.1 heq.symm,
      List.nodup_cons.mpr ⟨hnew.2, hnodup⟩⟩
  · rw [opened, accounts.opened, listener, hsame, List.mem_append, List.mem_singleton]
    tauto
  · rw [opened]
    exact (polled fd' hfd').imp id fun hold => accounts.polled fd' hold
  · rcases List.mem_append.mp hc' with hold | hin
    · exact accounts.sockets c' hold
    · cases List.mem_singleton.mp hin
      exact some

end

/-! ### A batch -/

/-- The host after some actions, which insert nothing but an element with the descriptor `new`: a
vector that comes through them has the elements of the descriptors. -/
structure Follows (spare : Nat) (new : Fd) (h h' : Host tcp) : Prop where
  server : h'.server = h.server
  actions : ∃ actions : List Action, h'.trace = actions.reverse ++ h.trace ∧
    (∀ func fd remote, .onConn func fd remote ∈ actions → fd = new) ∧
    ∀ v v' : Connections, Accounts h v.elements →
      actions.foldlM (act h.server spare) v = some v' → Accounts h' v'.elements

section

variable {spare : Nat} {h : Host tcp} {new : Fd} {added : Bool}

theorem Follows.refl (h : Host tcp) : Follows spare new h h := by
  refine ⟨rfl, [], rfl, fun _ _ _ hmem => (by cases hmem), fun v v' accounts hacts => ?_⟩
  cases hacts
  exact accounts

theorem Follows.trans {h1 h2 h3 : Host tcp} (h12 : Follows spare new h1 h2)
    (h23 : Follows spare new h2 h3) : Follows spare new h1 h3 := by
  obtain ⟨hserver, actions, htrace, hnew, hacts⟩ := h12
  obtain ⟨hserver', actions', htrace', hnew', hacts'⟩ := h23
  refine ⟨hserver'.trans hserver, actions ++ actions', ?_, fun func fd remote hmem => ?_,
    fun v v'' accounts hall => ?_⟩
  · rw [htrace', htrace, List.reverse_append, List.append_assoc]
  · exact (List.mem_append.mp hmem).elim (hnew func fd remote) (hnew' func fd remote)
  · rw [List.foldlM_append] at hall
    obtain ⟨v', hfirst, hrest⟩ := Option.bind_eq_some_iff.mp hall
    exact hacts' v' v'' (hacts v v' accounts hfirst) (hserver ▸ hrest)

/-- A host that has done nothing of note. -/
theorem Follows.quiet {h' : Host tcp} (server : h'.server = h.server) (trace : h'.trace = h.trace)
    (accounts : ∀ elements, Accounts h elements → Accounts h' elements) :
    Follows spare new h h' := by
  refine ⟨server, [], trace, fun _ _ _ hmem => (by cases hmem), fun v v' haccounts hacts => ?_⟩
  cases hacts
  exact accounts _ haccounts

theorem Follows.one {h' : Host tcp} {action : Action} (server : h'.server = h.server)
    (trace : h'.trace = action :: h.trace)
    (inserts : ∀ func fd remote, action = .onConn func fd remote → fd = new)
    (accounts : ∀ v v', Accounts h v.elements → act h.server spare v action = some v' →
      Accounts h' v'.elements) : Follows spare new h h' := by
  refine ⟨server, [action], trace, fun func fd remote hmem => ?_, fun v v' haccounts hacts => ?_⟩
  · exact inserts func fd remote (List.mem_singleton.mp hmem).symm
  · exact accounts v v' haccounts (by simpa using hacts)

/-- The descriptor and the peer of an accepted socket are those that the kernel answers with. -/
theorem accept_answer {impl impl' : SocketImpl} {ans : Except Errno (Fd × FilledAddr)}
    {k k' : Kernel} {remote : InAddressPort}
    (h : impl.accept ans k = (some (impl', remote), k')) :
    ∃ fd peer, ans = .ok (fd, peer) ∧ impl'.fd = some fd ∧ parseAddr peer = some remote := by
  unfold SocketImpl.accept at h
  split_ifs at h with hfamily
  · cases hfd : impl.fd with
    | none =>
      rw [hfd] at h
      cases h
    | some listening =>
      simp only [hfd, Kernel.accept4, Kernel.install] at h
      rcases ans with e | ⟨fd, peer⟩
      · cases h
      · refine ⟨fd, peer, rfl, ?_⟩
        by_cases hnew : 0 ≤ fd ∧ ¬(k.issue (.accept listening)).Open fd
        · simp only [if_pos hnew] at h
          cases hremote : parseAddr peer <;> simp only [hremote] at h <;> cases h
          exact ⟨rfl, rfl⟩
        · simp only [if_neg hnew] at h
          cases h
  · cases h

/-- What an accept returns. -/
theorem accept_spec (h : Host tcp) (listener : ListeningSocket) (new : Fd) :
    (∃ remote k queue, h.accept listener new =
        (some ⟨⟨some new, listener.impl.family⟩, some remote, some listener.local_, true⟩,
          { h with kernel := k, queue := queue }) ∧
      ¬h.kernel.Open new ∧ ∀ fd, k.Open fd ↔ fd = new ∨ h.kernel.Open fd) ∨
    ∃ k queue, h.accept listener new = (none, { h with kernel := k, queue := queue }) ∧
      ∀ fd, k.Open fd ↔ h.kernel.Open fd := by
  obtain ⟨ans, hnew, hans⟩ : ∃ ans, (∀ fd peer, ans = .ok (fd, peer) → fd = new) ∧
      h.accept listener new = ((listener.accept ans h.kernel).1, { h with
        kernel := (listener.accept ans h.kernel).2
        queue := if (listener.accept ans h.kernel).1.isSome then h.queue.tail else h.queue }) := by
    refine ⟨_, fun fd peer heq => ?_, rfl⟩
    split at heq <;> cases heq
    rfl
  rw [hans]
  unfold ListeningSocket.accept
  rcases SocketImpl.accept_fds listener.impl ans h.kernel with
    ⟨fd, got, peer, remote, k, -, -, fresh, haccept, hfds⟩ | ⟨k, haccept, hfds⟩
  · obtain ⟨fd', peer', hok, hsome, -⟩ := accept_answer haccept
    obtain rfl : got = new := (Option.some.inj hsome).trans (hnew fd' peer' hok)
    rw [haccept]
    refine Or.inl ⟨remote, k, _, rfl, fresh, fun fd' => ?_⟩
    unfold Kernel.Open
    rw [hfds]
    by_cases heq : fd' = got <;> simp [heq]
  · rw [haccept]
    exact Or.inr ⟨k, _, rfl, fun fd => by rw [Kernel.Open, Kernel.Open, hfds]⟩

/-- A handler throws nothing. -/
theorem invoke_able (running : Running h.server) (func : ServerHandler) (fd : Fd) :
    (h.invoke callbacks new added func fd).1 = .ok () := by
  cases func with
  | erase =>
    rw [Host.invoke_erase callbacks new added Connection.tcp_connectionBased running.erase]
    rfl
  | readReady =>
    obtain ⟨based, listener, hstate⟩ := running.state
    unfold Host.invoke
    simp only
    split_ifs with hfd hconnectionless
    · cases hconnectionless
    · simp only [hstate]
      rcases accept_spec h listener new with ⟨remote, k, queue, haccept, -⟩ |
        ⟨k, queue, haccept, -⟩
      · cases added <;> simp [haccept, Host.addSocket, Host.handOver, running.onConn, Host.call,
          callbacks]
      · rw [haccept]
    · rfl

theorem erase_follows (running : Running h.server) (fd : Fd) :
    Follows spare new h (h.invoke callbacks new added .erase fd).2 := by
  rw [Host.invoke_erase callbacks new added Connection.tcp_connectionBased running.erase]
  refine .one (Host.call_server _ _ _) (Host.call_trace _ _ _) (fun _ _ _ heq => by cases heq)
    fun v v' accounts hact => ?_
  have herased : v.eraseFd fd = some v' := hact
  rw [eraseFd_elements herased]
  have reported : Accounts { h.delSocket fd with
      trace := .eraseActiveSocket eraseActiveSocket fd :: h.trace } v.elements :=
    (accounts.delSocket fd).congr rfl rfl (fun _ => Iff.rfl) (fun _ => id) rfl accounts.sockets
  exact reported.drop fd

/-- Handing an accepted socket over inserts its element. -/
theorem accept_follows (running : Running h.server) {based : tcp.isConnectionless = false}
    {listener : ListeningSocket} (state : h.server.state = .listening based listener)
    {remote : InAddressPort} {k : Kernel} {queue : List FilledAddr} (fresh : ¬h.kernel.Open new)
    (opened : ∀ fd, k.Open fd ↔ fd = new ∨ h.kernel.Open fd) (added : Bool) :
    Follows spare new h
      ((({ h with kernel := k, queue := queue } : Host tcp).addSocket new .read added).handOver
        callbacks new remote).2 := by
  have hinserted : inserted h.server new remote = .accepted
      ⟨⟨⟨some new, listener.impl.family⟩, some remote, some listener.local_, true⟩, remote⟩ := by
    rw [inserted, state]
  have inserts {v v' : Connections} {h' : Host tcp} (accounts : Accounts h v.elements)
      (hact : act h.server spare v (.onConn TcpServer.onConn new remote) = some v')
      (held : h'.held = new :: h.held) (listener : h'.getFd = h.getFd)
      (kernel : h'.kernel = k)
      (polled : ∀ fd, (h'.registered fd).isSome → fd = new ∨ (h.registered fd).isSome) :
      Accounts h' v'.elements := by
    rw [emplaceBack_elements hact, hinserted]
    exact accounts.insert fresh rfl rfl held listener (fun fd => kernel ▸ opened fd) polled
  cases added with
  | false =>
    simp only [Host.addSocket, Host.handOver, running.onConn, Bool.false_eq_true, ↓reduceIte]
    exact .one rfl rfl (fun _ _ _ heq => by cases heq; rfl) fun v v' accounts hact =>
      inserts accounts hact rfl rfl rfl fun _ hfd => Or.inr hfd
  | true =>
    simp only [Host.addSocket, Host.handOver, running.onConn, ↓reduceIte]
    refine ⟨rfl, [.added new .read, .onConn TcpServer.onConn new remote], rfl,
      fun _ _ _ hmem => ?_, fun v v' accounts hacts => ?_⟩
    · simp only [List.mem_cons, reduceCtorEq, Action.onConn.injEq, List.not_mem_nil, or_false,
        false_or] at hmem
      exact hmem.2.1
    · have hact : act h.server spare v (.onConn TcpServer.onConn new remote) = some v' := by
        simpa [act] using hacts
      refine inserts accounts hact rfl rfl rfl fun fd hfd => ?_
      by_cases heq : fd = new
      · exact Or.inl heq
      · refine Or.inr ?_
        simpa [Host.call, callbacks, heq] using hfd

theorem invoke_follows (running : Running h.server) (func : ServerHandler) (fd : Fd) :
    Follows spare new h (h.invoke callbacks new added func fd).2 := by
  cases func with
  | erase => exact erase_follows running fd
  | readReady =>
    obtain ⟨based, listener, hstate⟩ := running.state
    unfold Host.invoke
    simp only
    split_ifs with hfd hconnectionless
    · cases hconnectionless
    · simp only [hstate]
      rcases accept_spec h listener new with
        ⟨remote, k, queue, haccept, fresh, opened⟩ | ⟨k, queue, haccept, opened⟩
      · rw [haccept]
        exact accept_follows running hstate fresh opened added
      · rw [haccept]
        exact .quiet rfl rfl fun elements accounts => accounts.congr rfl rfl opened
          (fun _ => id) rfl accounts.sockets
    · exact .refl h

theorem proceed_follows (running : Running h.server) (events : List Event) :
    Follows spare new h (h.proceed callbacks new added events).2 := by
  refine proceed_induction (Follows spare new h) ?_ ?_ (.refl h)
  · intro event _ h1 follows1
    refine handleEvent_induction (Follows spare new h) (fun _ func _ h2 follows2 => ?_) follows1
    exact follows2.trans (invoke_follows (follows2.server ▸ running) func event.fd)
  · intro func hfunc
    rw [running.unhandled] at hfunc
    cases hfunc

end

variable {s s' : TcpServer}

/-- The program keeps the accounts of its descriptors. -/
structure Kept (s : TcpServer) : Prop where
  running : Running s.host.server
  accounts : Accounts s.host s.sockets.elements

/-- The callbacks of `proceed`: what they do to `active_sockets`, and the accounts after them. -/
theorem proceed_acts (kept : Kept s) {events : List Event} {new : Fd} {added : Bool} {spare : Nat}
    (hproceed : s.proceed events new added spare = some s') :
    ∃ actions : List Action, s'.host = (s.host.proceed callbacks new added events).2 ∧
      s'.host.trace = actions.reverse ++ s.host.trace ∧
      (∀ func fd remote, .onConn func fd remote ∈ actions → fd = new) ∧
      actions.foldlM (act s.host.server spare) s.sockets = some s'.sockets ∧ Kept s' := by
  unfold TcpServer.proceed at hproceed
  have follows : Follows spare new s.host (s.host.proceed callbacks new added events).2 :=
    proceed_follows kept.running events
  rcases hout : s.host.proceed callbacks new added events with ⟨_ | _, h⟩ <;>
    rw [hout] at hproceed follows
  · cases hproceed
  · obtain ⟨server, actions, htrace, hnew, hacts⟩ := follows
    obtain ⟨v, hfold, rfl⟩ := Option.map_eq_some_iff.mp hproceed
    have htake : (h.trace.take (h.trace.length - s.host.trace.length)).reverse = actions := by
      rw [htrace, List.length_append, Nat.add_sub_cancel, List.take_left, List.reverse_reverse]
    rw [htake, server] at hfold
    exact ⟨actions, rfl, htrace, hnew, hfold,
      ⟨server ▸ kept.running, hacts _ _ kept.accounts hfold⟩⟩

/-! ### The loop over the elements -/

theorem kernelAfter_open (c : Connection) (v : Visit) (fd : Fd) :
    (c.kernelAfter v).Open fd ↔ v.kernel.Open fd := by
  have hfds : (c.kernelAfter v).fds = v.kernel.fds := by
    unfold Connection.kernelAfter
    split
    · split_ifs
      · split
        · exact SocketImpl.send_fds _ _ _ _
        · rfl
      · rfl
    · rfl
  rw [Kernel.Open, Kernel.Open, hfds]

/-- A visit changes neither the descriptor of its element nor those that are open. -/
theorem Accounts.visit {h : Host tcp} {done rest : List Connection} {c c' : Connection}
    (accounts : Accounts h (done ++ c :: rest)) {v : Visit} (kernel : v.kernel = h.kernel)
    (hvisit : c.visit v = some c') :
    Accounts { h with kernel := c.kernelAfter v } (done ++ c' :: rest) := by
  have hsome := accounts.sockets c (by simp)
  have hsock : c'.sock = c.sock := Connection.visit_sock hsome hvisit
  have hfd : c'.fd = c.fd := congrArg (fun sock : AcceptedSock => sock.sock.impl.handle) hsock
  refine accounts.congr rfl rfl (fun fd => kernel ▸ kernelAfter_open c v fd) (fun _ => id) ?_
    fun e he => ?_
  · simp [fds, hfd]
  · rcases List.mem_append.mp he with hold | hin
    · exact accounts.sockets e (List.mem_append_left _ hold)
    · rcases List.mem_cons.mp hin with rfl | hold
      · rwa [hsock]
      · exact accounts.sockets e (by simp [hold])

/-- The last element is erased. -/
theorem Accounts.eraseLast {h : Host tcp} {done : List Connection} {c : Connection}
    (accounts : Accounts h (done ++ [c])) : Accounts (h.drop c.fd) done := by
  have hnodup : (fds done ++ [c.fd]).Nodup := by
    have hall := (List.nodup_cons.mp accounts.apart).2
    rwa [fds, List.map_append] at hall
  have hnew : c.fd ∉ fds done := fun hin =>
    (List.nodup_append.mp hnodup).2.2 c.fd hin c.fd (List.mem_singleton_self _) rfl
  have hdone : ((done ++ [c]).filter fun e => e.fd ≠ c.fd) = done := by
    rw [List.filter_append, filter_of_not_mem hnew]
    simp
  exact hdone ▸ accounts.drop c.fd

theorem drop_server (h : Host tcp) (fd : Fd) : (h.drop fd).server = h.server := by
  unfold Host.drop
  split <;> rfl

theorem serve_nil {done : List Connection} {readings : List Reading} {h : Host tcp}
    {out : List Connection × Host tcp} (hserve : serve done [] readings h = some out) :
    readings = [] ∧ out = (done, h) := by
  cases readings with
  | nil => exact ⟨rfl, (Option.some.inj hserve).symm⟩
  | cons r readings => cases hserve

/-- One round of the loop. -/
theorem serve_cons {done rest : List Connection} {c : Connection} {readings : List Reading}
    {h : Host tcp} {out : List Connection × Host tcp} (accounts : Accounts h (done ++ c :: rest))
    (hserve : serve done (c :: rest) readings h = some out) :
    ∃ r readings' c', readings = r :: readings' ∧ r.fd = c.fd ∧ c'.fd = c.fd ∧
      c.visit (r.visit h.kernel) = some c' ∧
      let h' := { h with kernel := c.kernelAfter (r.visit h.kernel) }
      Accounts h' (done ++ c' :: rest) ∧
        (c'.kept = true ∧ c.requests.length < c'.requests.length ∧
            serve done (c' :: rest) readings' h' = some out ∨
          c'.kept = true ∧ ¬c.requests.length < c'.requests.length ∧
            serve (done ++ [c']) rest readings' h' = some out ∨
          c'.kept = false ∧ rest = [] ∧ readings' = [] ∧ out = (done, h'.drop c.fd)) := by
  cases readings with
  | nil => cases hserve
  | cons r readings =>
    rw [serve] at hserve
    have hfd : r.fd = c.fd := by
      by_contra hne
      rw [if_neg hne] at hserve
      cases hserve
    rw [if_pos hfd] at hserve
    obtain ⟨c', hvisit, hrest⟩ := Option.bind_eq_some_iff.mp hserve
    have hsock : c'.sock = c.sock :=
      Connection.visit_sock (accounts.sockets c (by simp)) hvisit
    refine ⟨r, readings, c', rfl, hfd,
      congrArg (fun sock : AcceptedSock => sock.sock.impl.handle) hsock, hvisit,
      accounts.visit rfl hvisit, ?_⟩
    split_ifs at hrest with hkept hanswered hlast
    · exact Or.inl ⟨hkept, hanswered, hrest⟩
    · exact Or.inr (Or.inl ⟨hkept, hanswered, hrest⟩)
    · have hnil := List.isEmpty_iff.mp hlast
      rw [hnil] at hrest
      obtain ⟨hreadings, hout⟩ := serve_nil hrest
      exact Or.inr (Or.inr ⟨by simpa using hkept, hnil, hreadings, hout⟩)

theorem serve_accounts {done rest : List Connection} {readings : List Reading} {h : Host tcp}
    {out : List Connection × Host tcp} (accounts : Accounts h (done ++ rest))
    (hserve : serve done rest readings h = some out) :
    out.2.server = h.server ∧ Accounts out.2 out.1 := by
  induction readings generalizing done rest h with
  | nil =>
    cases rest with
    | nil =>
      obtain ⟨-, rfl⟩ := serve_nil hserve
      exact ⟨rfl, List.append_nil done ▸ accounts⟩
    | cons c rest => cases hserve
  | cons r readings ih =>
    cases rest with
    | nil => cases hserve
    | cons c rest =>
      obtain ⟨r', readings', c', hreadings, -, hfd, -, visited, hcases⟩ :=
        serve_cons accounts hserve
      cases hreadings
      rcases hcases with ⟨-, -, hagain⟩ | ⟨-, -, hnext⟩ | ⟨-, rfl, -, rfl⟩
      · have hsame := ih visited hagain
        exact hsame
      · have hsame := ih (List.append_cons done c' rest ▸ visited) hnext
        exact hsame
      · exact ⟨drop_server _ _, hfd ▸ visited.eraseLast⟩

theorem kept_next (kept : Kept s) {op : TcpOp} (hnext : s.next op = some s') : Kept s' := by
  cases op with
  | arrive peer =>
    cases hnext
    exact ⟨kept.running, kept.accounts.congr rfl rfl (fun _ => Iff.rfl) (fun _ => id) rfl
      kept.accounts.sockets⟩
  | turn events new added spare readings =>
    obtain ⟨s1, hproceed, hserve⟩ := Option.bind_eq_some_iff.mp hnext
    obtain ⟨out, hout, rfl⟩ := Option.map_eq_some_iff.mp hserve
    obtain ⟨-, -, -, -, -, kept1⟩ := proceed_acts kept hproceed
    have accounts1 : Accounts s1.host ([] ++ s1.sockets.elements) := kept1.accounts
    obtain ⟨hserver, accounts⟩ := serve_accounts accounts1 hout
    exact ⟨hserver ▸ kept1.running, accounts⟩

/-! ### The start -/

/-- `create`, `bind` and `listen` open the descriptor of the listening socket and no other one. -/
theorem createListener_opens {proto : Proto} {af : Int} {local_ : InAddressPort}
    {maxConns : UInt32} {ans : Except Errno Fd} {bound listened : Answer} {k k' : Kernel}
    {listener : ListeningSocket}
    (h : Host.createListener proto af local_ maxConns ans bound listened k = (some listener, k')) :
    ∀ fd, k'.Open fd ↔ fd = listener.impl.handle ∨ k.Open fd := by
  unfold Host.createListener at h
  split at h
  · rename_i sock k1 hcreate
    obtain ⟨fd, hfd⟩ := SocketT.create_impl hcreate
    have hopens := SocketT.create_opens proto af ans k
    rw [hcreate, Option.bind_some, hfd] at hopens
    split at h
    · rename_i binded left k2 hbind
      have hbinded : binded.impl.fd = some fd := by
        rw [SocketT.bind_impl (k := k1) (s := sock) (by rw [hbind]; rfl), hfd]
      have hbindPasses := sock.bind_passes local_ bound k1
      rw [hbind, Option.bind_some, hbinded] at hbindPasses
      rcases hlisten : binded.listen maxConns listened k2 with ⟨r, leftBinded, k3⟩
      rw [hlisten] at h
      obtain ⟨rfl, rfl⟩ := Prod.mk.inj h
      have hlistener : listener.impl.fd = some fd := by
        rw [BindedSocket.listen_impl (k := k2) (s := binded) (by rw [hlisten]; rfl), hbinded]
      have hlistenPasses := binded.listen_passes maxConns listened k2
      rw [hlisten, Option.bind_some, hlistener] at hlistenPasses
      intro fd'
      rw [SocketImpl.open_destroy, SocketImpl.open_destroy, left_none hbindPasses,
        left_none hlistenPasses, hlistenPasses.opened, hbindPasses.opened, hopens.opened]
      simp [SocketImpl.handle, hlistener, or_comm, eq_comm]
    · cases h
  · cases h

theorem started_kept {pton : InetPton} {localPort : UInt64} {ans : Except Errno Fd}
    {bound listened : Answer} {added : Bool}
    (started : (init pton localPort ans bound listened added).1 = true) :
    Kept (initial (init pton localPort ans bound listened added).2) := by
  unfold init Host.start at started ⊢
  have hidle : (Host.initial AfInet.ipv4.toInt none : Host tcp).server.state.isIdle = true := rfl
  simp only [hidle, ↓reduceIte] at started ⊢
  cases haddress : fromStringAndPort pton (serverArgs localPort).address
      (serverArgs localPort).port with
  | none => simp [haddress] at started
  | some address =>
    simp only [haddress] at started ⊢
    rcases hcreate : Host.createListener tcp (Host.initial AfInet.ipv4.toInt none : Host tcp).server.af
      address (serverArgs localPort).maxConns ans bound listened
      (Host.initial AfInet.ipv4.toInt none : Host tcp).kernel with ⟨_ | listener, k⟩
    · simp [hcreate] at started
    · have hopens := createListener_opens hcreate
      have hnone : ∀ fd, ¬(Host.initial AfInet.ipv4.toInt none : Host tcp).kernel.Open fd :=
        fun fd => Bool.false_ne_true
      have hopened : ∀ fd, k.Open fd ↔ fd = listener.impl.handle ∨ fd ∈ fds [] := fun fd => by
        rw [hopens]
        simp [hnone, fds]
      have hpolled (registered : Fd → Option SockOp) (fd : Fd)
          (hfd : (if k.Open fd then registered fd else none).isSome) : k.Open fd := by
        split_ifs at hfd with hopen
        · exact hopen
        · cases hfd
      cases added <;>
        exact ⟨⟨⟨_, listener, rfl⟩, rfl, rfl, rfl, rfl⟩,
          ⟨.refl _, List.nodup_singleton _, hopened, hpolled _, fun _ hc => by cases hc⟩⟩

/-! ### Runs -/

section

variable {pton : InetPton} {localPort : UInt64} {ans : Except Errno Fd} {bound listened : Answer}
  {added : Bool}

/-- Whatever comes in at a server that was started, its process leaks no descriptor, closes none that
an element still has, and polls none that is closed. -/
theorem owned_run (started : (init pton localPort ans bound listened added).1 = true)
    (ops : List TcpOp) :
    Always next Owned (initial (init pton localPort ans bound listened added).2) ops :=
  (Always.of_inv (fun _ _ _ h hnext => kept_next h hnext) (started_kept started) ops).mono
    fun _ h => ⟨h.accounts.apart, h.accounts.opened, h.accounts.polled⟩

end

/-- A server that listens under descriptor 3. -/
def listening : Host tcp := (init loopbackPton 80 (.ok 3) (.ok ()) (.ok ()) true).2

/-- The kernel hands out the bytes at the descriptor and takes as many of the response, and hands out
nothing more. -/
def readingsOf (fd : Fd) (data : List UInt8) (sent : Nat) : List Reading :=
  [⟨fd, [(data, blankAddr AfInet.ipv4.toInt)], .again, .ok sent⟩, ⟨fd, [], .again, .ok 0⟩]

/-- A connection is accepted and answered, and its peer hangs up. -/
def oneConnection : List TcpOp :=
  [.arrive (Host.peerOn 1), .turn [⟨3, .readReady⟩] 4 true 0 (readingsOf 4 [50] 4),
    .turn [⟨4, .hangup⟩] 5 true 0 []]

example : (exec next (initial listening) oneConnection).map
    (fun s => (decide (s.host.kernel.Open 3), decide (s.host.kernel.Open 4))) =
      some (true, false) := by
  decide +kernel

theorem owned_run_one :
    (exec next (initial listening) oneConnection).isSome ∧
      Always next Owned (initial listening) oneConnection :=
  ⟨by decide +kernel, owned_run (by decide +kernel) oneConnection⟩

end TcpServer

end TypedSockets.App
