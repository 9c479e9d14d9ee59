import TypedSockets.App.Dialogue
import TypedSockets.App.TcpService

/-! Any number of clients and the server program over TCP.  The kernel keeps two streams for each
client, queues its connection, and hands out what it sent at the element that was accepted from its
address. -/

namespace TypedSockets.App

open TypedSockets.Socket TypedSockets.Epoll TypedSockets.Endpoint TypedSockets.Lib

/-- `remote` of the socket. -/
def Connection.remote (c : Connection) : InAddressPort := c.sock.remote

/-- A client, and what is under way between it and the server.  `history` only records its turns and
the visits to its connection, oldest first. -/
structure Line where
  client : ClientMain tcp
  up : Pipe UInt8
  down : Pipe UInt8
  history : List PipelineOp

/-- The clients by their addresses, the server, and the addresses whose connections came in. -/
structure Network where
  lines : InAddressPort → Line
  server : TcpServer
  arrived : List InAddressPort

/-- The next turn of the client at the address, or the next operation of the server. -/
inductive NetworkOp where
  | client (a : InAddressPort) (t : ClientTurn)
  | server (op : TcpOp)

/-- Whose connection comes in. -/
def TcpOp.peers : TcpOp → List InAddressPort
  | .arrive peer => (parseAddr peer).toList
  | .turn .. => []

namespace Line

def initial (w : World tcp) : Line := ⟨.initial w, .empty, .empty, []⟩

/-- The line with a connection at the end of the server. -/
def pipeline (l : Line) (c : Connection) : Pipeline := ⟨l.client, c, l.up, l.down⟩

/-- A turn of the client.  What `recv` hands out is the beginning of what is under way. -/
def turn (l : Line) (t : ClientTurn) : Option Line :=
  if ClientMain.bytes t.chunks <+: l.down.flight then
    (l.client.proceed t).map fun out =>
      let client := out.1.input t.line t.ans
      { client
        up := l.up.write (client.sent.drop l.client.sent.length)
        down := l.down.take
          ((ClientMain.bytes t.chunks).length - (ClientMain.bytes out.2.chunks).length)
        history := l.history ++ [.client t] }
  else none

/-- A visit to the connection. -/
def visited (l : Line) (c : Connection) (v : Visit) : Option Line :=
  ((l.pipeline c).next (.server v)).map fun p =>
    { l with up := p.up, down := p.down, history := l.history ++ [.server v] }

end Line

namespace Network

/-- The clients as their `init` leaves them, and the server. -/
def start (worlds : InAddressPort → World tcp) (host : Host tcp) : Network :=
  ⟨fun a => .initial (worlds a), .initial host, []⟩

/-- A visit to an element meets what its client sent. -/
def visited (lines : InAddressPort → Line) (visit : Connection × Visit) :
    Option (InAddressPort → Line) :=
  ((lines visit.1.remote).visited visit.1 visit.2).map fun l =>
    Function.update lines visit.1.remote l

/-- One step.  The connection of a client comes in once. -/
def next (s : Network) : NetworkOp → Option Network
  | .client a t => ((s.lines a).turn t).map fun l =>
      { s with lines := Function.update s.lines a l }
  | .server op =>
    if ∀ a ∈ op.peers, a ∉ s.arrived then
      (s.server.next op).bind fun server =>
        ((s.server.visitsOf op).foldlM visited s.lines).map fun lines =>
          ⟨lines, server, s.arrived ++ op.peers⟩
    else none

/-- Whose connections wait to be accepted. -/
def waiting (h : Host tcp) : List InAddressPort := h.queue.filterMap parseAddr

def remotes (elements : List Connection) : List InAddressPort := elements.map Connection.remote

/-- The steps in the history lead one client and one connection, with nobody else there, to where
they are. -/
def Replayed (w : World tcp) (l : Line) (c : Connection) : Prop :=
  exec Pipeline.next (.connected w c.sock) l.history = some (l.pipeline c)

/-- Each element belongs to a client of its own, and each client and its connection are where their
own steps lead them. -/
structure Separated (worlds : InAddressPort → World tcp) (s : Network) : Prop where
  apart : (remotes s.server.sockets.elements).Nodup
  replayed : ∀ a, ∃ c : Connection, c.sock.sock.impl.fd.isSome ∧
    (∀ e ∈ s.server.sockets.elements, e.remote = a → e = c) ∧ Replayed (worlds a) (s.lines a) c

/-- The visits of an operation have the property. -/
def Allows (Q : InAddressPort → Connection → Visit → Prop) (s : Network) : NetworkOp → Prop
  | .client _ _ => True
  | .server op => ∀ visit ∈ s.server.visitsOf op, Q visit.1.remote visit.1 visit.2

/-- The kernel takes the whole of each response to the client. -/
def TakesAll (a : InAddressPort) : Network → NetworkOp → Prop :=
  Allows fun b c v => b = a → c.TakesAll v

instance (a : InAddressPort) (s : Network) : (op : NetworkOp) → Decidable (s.TakesAll a op)
  | .client _ _ => isTrue trivial
  | .server op => inferInstanceAs (Decidable (∀ visit ∈ s.server.visitsOf op,
      visit.1.remote = a → visit.1.TakesAll visit.2))

/-- What the client printed and what is under way to it are the responses, in full, to requests that
are the beginning of what it sent.  Its element holds the requests, and what was received after
them. -/
def Answered (a : InAddressPort) (s : Network) : Prop :=
  ∃ requests : List (List UInt8), requests.flatten <+: (s.lines a).client.sent ∧
    ClientMain.text (s.lines a).client.printed ++ (s.lines a).down.flight = answers requests ∧
    ∀ c ∈ s.server.sockets.elements, c.remote = a → c.requests = requests ∧
      (s.lines a).client.sent = requests.flatten ++ c.request ++ (s.lines a).up.flight

/-- Each client and its connection, which is not accepted yet, has its element or had it, are where
their own steps lead them.  A user who waits for each response before typing the next line, and
whose lines and responses the kernel hands over as a whole, is answered each line with its
response. -/
def Conversing (worlds : InAddressPort → World tcp) (s : Network) : Prop :=
  ∀ a, ∃ c : Connection, c.sock.sock.impl.fd.isSome ∧
    (a ∈ waiting s.server.host ∨ a ∉ s.arrived → ∃ sock, c = .accepted sock) ∧
    (∀ e ∈ s.server.sockets.elements, e.remote = a → e = c) ∧
    Replayed (worlds a) (s.lines a) c ∧
    (Along Dialogue.next Dialogue.Orderly (.start (worlds a) c.sock) (s.lines a).history →
      Dialogue.Answering ⟨(s.lines a).pipeline c,
        (s.lines a).history.flatMap PipelineOp.typed⟩)

/-! ### The queue of the server -/

/-- Whose connections were handed over. -/
def handed (actions : List Action) : List InAddressPort :=
  actions.filterMap fun
    | .onConn _ _ remote => some remote
    | _ => none

/-- From `h` to `h'` the connections that left the queue were handed over, in their order. -/
structure HandsOver (h h' : Host tcp) : Prop where
  server : h'.server = h.server
  actions : ∃ actions : List Action, h'.trace = actions.reverse ++ h.trace ∧
    waiting h = handed actions ++ waiting h'

theorem HandsOver.refl (h : Host tcp) : HandsOver h h := ⟨rfl, [], rfl, rfl⟩

theorem HandsOver.trans {h1 h2 h3 : Host tcp} (h12 : HandsOver h1 h2) (h23 : HandsOver h2 h3) :
    HandsOver h1 h3 := by
  obtain ⟨hserver, actions, htrace, hwaiting⟩ := h12
  obtain ⟨hserver', actions', htrace', hwaiting'⟩ := h23
  refine ⟨hserver'.trans hserver, actions ++ actions', ?_, ?_⟩
  · rw [htrace', htrace, List.reverse_append, List.append_assoc]
  · rw [hwaiting, hwaiting', handed, handed, handed, List.filterMap_append, List.append_assoc]

section

variable {h : Host tcp} {new : Fd} {added : Bool}

/-- A connection that is accepted was the first in the queue, and one that is not stays there. -/
theorem accept_waiting (h : Host tcp) (listener : ListeningSocket) (new : Fd) :
    (∃ fd remote k queue, h.accept listener new =
        (some ⟨⟨some fd, listener.impl.family⟩, some remote, some listener.local_, true⟩,
          { h with kernel := k, queue := queue }) ∧
      waiting h = remote :: queue.filterMap parseAddr) ∨
    ∃ k, h.accept listener new = (none, { h with kernel := k }) := by
  obtain ⟨ans, hans, haccept⟩ : ∃ ans, (∀ fd peer, ans = .ok (fd, peer) →
        ∃ queue, h.queue = peer :: queue) ∧
      h.accept listener new = ((listener.accept ans h.kernel).1, { h with
        kernel := (listener.accept ans h.kernel).2
        queue := if (listener.accept ans h.kernel).1.isSome then h.queue.tail else h.queue }) := by
    refine ⟨_, fun fd peer heq => ?_, rfl⟩
    split at heq <;> cases heq
    exact ⟨_, by assumption⟩
  rw [haccept]
  unfold ListeningSocket.accept
  rcases SocketImpl.accept_fds listener.impl ans h.kernel with
    ⟨_, fd, _, remote, k, -, -, -, haccepted, -⟩ | ⟨k, haccepted, -⟩
  · obtain ⟨_, peer, hok, -, hremote⟩ := TcpServer.accept_answer haccepted
    obtain ⟨queue, hqueue⟩ := hans _ peer hok
    rw [haccepted]
    refine Or.inl ⟨fd, remote, k, queue, by simp [hqueue], ?_⟩
    rw [waiting, hqueue, List.filterMap_cons, hremote]
  · rw [haccepted]
    exact Or.inr ⟨k, rfl⟩

theorem invoke_handsOver (running : TcpServer.Running h.server) (func : ServerHandler) (fd : Fd) :
    HandsOver h (h.invoke TcpServer.callbacks new added func fd).2 := by
  cases func with
  | erase =>
    rw [Host.invoke_erase TcpServer.callbacks new added Connection.tcp_connectionBased
      running.erase]
    refine ⟨Host.call_server _ _ _, [_], Host.call_trace _ _ _, ?_⟩
    have hqueue : ((h.delSocket fd).call TcpServer.callbacks
        (.eraseActiveSocket TcpServer.eraseActiveSocket fd)).2.queue = h.queue := by
      simp only [Host.call, TcpServer.callbacks, List.foldl_cons, List.foldl_nil, Host.drop]
      split <;> rfl
    rw [waiting, waiting, hqueue]
    rfl
  | readReady =>
    obtain ⟨based, listener, hstate⟩ := running.state
    unfold Host.invoke
    simp only
    split_ifs with hfd hconnectionless
    · cases hconnectionless
    · simp only [hstate]
      rcases accept_waiting h listener new with ⟨fd, remote, k, queue, haccept, hwaiting⟩ |
        ⟨k, haccept⟩
      · rw [haccept]
        cases added <;>
          simp only [Host.addSocket, Host.handOver, running.onConn, Bool.false_eq_true, ↓reduceIte]
        · exact ⟨rfl, [.onConn TcpServer.onConn fd remote], rfl, hwaiting⟩
        · exact ⟨rfl, [.added fd .read, .onConn TcpServer.onConn fd remote], rfl, hwaiting⟩
      · rw [haccept]
        exact ⟨rfl, [], rfl, rfl⟩
    · exact .refl h

theorem proceed_handsOver (running : TcpServer.Running h.server) (events : List Event) :
    HandsOver h (h.proceed TcpServer.callbacks new added events).2 := by
  refine proceed_induction (HandsOver h) ?_ ?_ (.refl h)
  · intro event _ h1 hands1
    refine handleEvent_induction (HandsOver h) (fun _ func _ h2 hands2 => ?_) hands1
    exact hands2.trans (invoke_handsOver (hands2.server ▸ running) func event.fd)
  · intro func hfunc
    rw [running.unhandled] at hfunc
    cases hfunc

end

section

variable {server : Server tcp} {spare : Nat}

theorem inserted_accepted (server : Server tcp) (fd : Fd) (remote : InAddressPort) :
    ∃ sock : AcceptedSock, TcpServer.inserted server fd remote = .accepted sock ∧
      sock.remote = remote := by
  unfold TcpServer.inserted
  split <;> exact ⟨_, rfl, rfl⟩

/-- The vector after some actions has elements that it had before, and new ones of the peers that
were handed over. -/
theorem acts_remotes {actions : List Action} {v v' : Connections}
    (hacts : actions.foldlM (TcpServer.act server spare) v = some v') :
    (remotes v'.elements).Sublist (remotes v.elements ++ handed actions) ∧
      ∀ c ∈ v'.elements,
        c ∈ v.elements ∨ c.remote ∈ handed actions ∧ ∃ sock, c = .accepted sock := by
  induction actions generalizing v with
  | nil =>
    cases hacts
    exact ⟨by simp [handed], fun c hc => Or.inl hc⟩
  | cons action actions ih =>
    rw [List.foldlM_cons] at hacts
    obtain ⟨v1, hact, hrest⟩ := Option.bind_eq_some_iff.mp hacts
    obtain ⟨hsublist, helements⟩ := ih hrest
    cases action with
    | onConn func fd remote =>
      obtain ⟨sock, hinserted, hremote⟩ := inserted_accepted server fd remote
      have hmore : v1.elements = v.elements ++ [.accepted sock] :=
        hinserted ▸ TcpServer.emplaceBack_elements hact
      have hhanded : handed (.onConn func fd remote :: actions) = remote :: handed actions := rfl
      have hremotes : remotes v1.elements = remotes v.elements ++ [remote] := by
        rw [hmore, remotes, remotes, List.map_append, ← hremote]
        rfl
      rw [hremotes, List.append_assoc] at hsublist
      rw [hmore] at helements
      rw [hhanded]
      refine ⟨hsublist, fun c hc => ?_⟩
      rcases helements c hc with hold | ⟨hnew, hsock⟩
      · rcases List.mem_append.mp hold with hold | hlast
        · exact Or.inl hold
        · rw [List.mem_singleton.mp hlast]
          exact Or.inr ⟨hremote ▸ List.mem_cons_self, sock, rfl⟩
      · exact Or.inr ⟨List.mem_cons_of_mem remote hnew, hsock⟩
    | eraseActiveSocket func fd =>
      have hless : v1.elements = v.elements.filter fun c => c.fd ≠ fd :=
        TcpServer.eraseFd_elements hact
      rw [hless] at hsublist helements
      refine ⟨hsublist.trans ((List.filter_sublist.map _).append_right _), fun c hc => ?_⟩
      exact (helements c hc).imp_left fun hold => (List.mem_filter.mp hold).1
    | _ =>
      cases hact
      exact ⟨hsublist, helements⟩

end

/-! ### A line and its connection -/

/-- A relation between the line of a client and its connection that holds from the start on, and
that the turns of the client and the visits with the property `Q` keep. -/
structure Keeps (worlds : InAddressPort → World tcp)
    (Q : InAddressPort → Connection → Visit → Prop)
    (R : InAddressPort → Line → Connection → Prop) : Prop where
  start : ∀ a sock, R a (.initial (worlds a)) (.accepted sock)
  turn : ∀ {a l l' c t}, R a l c → l.turn t = some l' → R a l' c
  visit : ∀ {a l l' c c' v}, R a l c → c.sock.sock.impl.fd.isSome → Q a c v →
    c.visit v = some c' → l.visited c v = some l' → R a l' c'

/-- Each element belongs to a client of its own, and each client has, or had, a connection that the
relation holds of. -/
structure Linked (R : InAddressPort → Line → Connection → Prop) (lines : InAddressPort → Line)
    (elements : List Connection) : Prop where
  kept : ∀ c ∈ elements, c.kept = true
  apart : (remotes elements).Nodup
  each : ∀ c ∈ elements, R c.remote (lines c.remote) c
  ever : ∀ a, ∃ c : Connection, c.sock.sock.impl.fd.isSome ∧ R a (lines a) c

section

variable {worlds : InAddressPort → World tcp} {Q : InAddressPort → Connection → Visit → Prop}
  {R : InAddressPort → Line → Connection → Prop} {lines lines' : InAddressPort → Line}
  {done rest : List Connection} {c c' : Connection} {v : Visit}

theorem remotes_append (elements elements' : List Connection) :
    remotes (elements ++ elements') = remotes elements ++ remotes elements' :=
  List.map_append

/-- A visit changes the line of its element alone. -/
theorem visited_other (hline : visited lines (c, v) = some lines') {a : InAddressPort}
    (ha : a ≠ c.remote) : lines' a = lines a := by
  obtain ⟨l, -, rfl⟩ := Option.map_eq_some_iff.mp hline
  exact Function.update_of_ne ha l lines

/-- What a visit leaves of the links. -/
theorem Linked.visit (keeps : Keeps worlds Q R) (linked : Linked R lines (done ++ c :: rest))
    (hfd : c.sock.sock.impl.fd.isSome) (allowed : Q c.remote c v) (hvisit : c.visit v = some c')
    (hline : visited lines (c, v) = some lines') :
    Linked R lines' (done ++ rest) ∧ c'.remote = c.remote ∧ R c'.remote (lines' c'.remote) c' := by
  have hsock : c'.sock = c.sock := Connection.visit_sock hfd hvisit
  have hremote : c'.remote = c.remote := congrArg AcceptedSock.remote hsock
  have hall := linked.apart
  rw [remotes_append, show remotes (c :: rest) = c.remote :: remotes rest from rfl,
    List.nodup_middle, ← remotes_append] at hall
  obtain ⟨hother, happart⟩ := List.nodup_cons.mp hall
  have hold : ∀ e ∈ done ++ rest, e ∈ done ++ c :: rest := fun e he => by
    simp only [List.mem_append, List.mem_cons] at he ⊢
    tauto
  have hnew : R c.remote (lines' c.remote) c' := by
    obtain ⟨l, hl, rfl⟩ := Option.map_eq_some_iff.mp hline
    rw [Function.update_self]
    exact keeps.visit (linked.each c (by simp)) hfd allowed hvisit hl
  refine ⟨⟨fun e he => linked.kept e (hold e he), happart, fun e he => ?_, fun a => ?_⟩, hremote,
    hremote ▸ hnew⟩
  · have hne : e.remote ≠ c.remote := fun heq => hother (heq ▸ List.mem_map_of_mem he)
    rw [visited_other hline hne]
    exact linked.each e (hold e he)
  · by_cases ha : a = c.remote
    · subst ha
      exact ⟨c', hsock ▸ hfd, hnew⟩
    · rw [visited_other hline ha]
      exact linked.ever a

theorem Linked.visit_kept (keeps : Keeps worlds Q R) (linked : Linked R lines (done ++ c :: rest))
    (hfd : c.sock.sock.impl.fd.isSome) (allowed : Q c.remote c v) (hvisit : c.visit v = some c')
    (hkept : c'.kept = true) (hline : visited lines (c, v) = some lines') :
    Linked R lines' (done ++ c' :: rest) ∧
      remotes (done ++ c' :: rest) = remotes (done ++ c :: rest) := by
  obtain ⟨others, hremote, hnew⟩ := linked.visit keeps hfd allowed hvisit hline
  have hsame : remotes (done ++ c' :: rest) = remotes (done ++ c :: rest) := by
    simp [remotes, hremote]
  have heach {P : Connection → Prop} (hp : ∀ e ∈ done ++ rest, P e) (hc : P c') :
      ∀ e ∈ done ++ c' :: rest, P e := fun e he => by
    rcases List.mem_append.mp he with hin | hin
    · exact hp e (List.mem_append_left _ hin)
    · rcases List.mem_cons.mp hin with rfl | hin
      · exact hc
      · exact hp e (List.mem_append_right _ hin)
  exact ⟨⟨heach others.kept hkept, hsame ▸ linked.apart, heach others.each hnew, others.ever⟩,
    hsame⟩

/-! ### A turn of the server -/

variable {h : Host tcp} {readings : List Reading} {out : List Connection × Host tcp}

/-- The loop ends with the visit that erases its element. -/
theorem visits_last {r : Reading} (hvisit : c.visit (r.visit h.kernel) = some c')
    (hgone : c'.kept = false) :
    TcpServer.visits (c :: rest) (r :: readings) h = [(c, r.visit h.kernel)] := by
  rw [TcpServer.visits]
  simp [hvisit, hgone]

/-- The loop over the elements leaves the queue alone. -/
theorem serve_queue (accounts : TcpServer.Accounts h (done ++ rest))
    (hserve : TcpServer.serve done rest readings h = some out) : out.2.queue = h.queue := by
  induction readings generalizing done rest h with
  | nil =>
    cases rest with
    | nil =>
      obtain ⟨-, rfl⟩ := TcpServer.serve_nil hserve
      rfl
    | cons c rest => cases hserve
  | cons r readings ih =>
    cases rest with
    | nil => cases hserve
    | cons c rest =>
      obtain ⟨r', readings', c', hreadings, -, -, -, visited, hcases⟩ :=
        TcpServer.serve_cons accounts hserve
      cases hreadings
      rcases hcases with ⟨-, -, hagain⟩ | ⟨-, -, hnext⟩ | ⟨-, -, -, rfl⟩
      · have hsame := ih visited hagain
        exact hsame
      · have hsame := ih (List.append_cons done c' rest ▸ visited) hnext
        exact hsame
      · simp only [Host.drop]
        split <;> rfl

/-- The visit of an element that stays, and the visits after it. -/
theorem Linked.next {r : Reading} (keeps : Keeps worlds Q R)
    (linked : Linked R lines (done ++ c :: rest)) (hfd : c.sock.sock.impl.fd.isSome)
    (hvisit : c.visit (r.visit h.kernel) = some c') (hkept : c'.kept = true)
    (hlines : (TcpServer.visits (c :: rest) (r :: readings) h).foldlM visited lines = some lines')
    (allowed : ∀ visit ∈ TcpServer.visits (c :: rest) (r :: readings) h,
      Q visit.1.remote visit.1 visit.2) :
    let later := TcpServer.visits
      (if c.requests.length < c'.requests.length then c' :: rest else rest) readings
      { h with kernel := c.kernelAfter (r.visit h.kernel) }
    ∃ lines1, Linked R lines1 (done ++ c' :: rest) ∧
      remotes (done ++ c' :: rest) = remotes (done ++ c :: rest) ∧
      (∀ a ∉ remotes (done ++ c :: rest), lines1 a = lines a) ∧
      later.foldlM visited lines1 = some lines' ∧
      ∀ visit ∈ later, Q visit.1.remote visit.1 visit.2 := by
  rw [TcpServer.visits_cons hvisit hkept] at hlines allowed
  rw [List.forall_mem_cons] at allowed
  obtain ⟨lines1, hline, hrest⟩ := Option.bind_eq_some_iff.mp hlines
  obtain ⟨linked1, hsame⟩ := linked.visit_kept keeps hfd allowed.1 hvisit hkept hline
  refine ⟨lines1, linked1, hsame, fun a ha => visited_other hline fun heq => ha ?_, hrest,
    allowed.2⟩
  simp [remotes, heq]

/-- The loop over the elements keeps the links, and changes the lines of the elements alone. -/
theorem serve_linked (keeps : Keeps worlds Q R) (accounts : TcpServer.Accounts h (done ++ rest))
    (hserve : TcpServer.serve done rest readings h = some out)
    (hlines : (TcpServer.visits rest readings h).foldlM visited lines = some lines')
    (allowed : ∀ visit ∈ TcpServer.visits rest readings h, Q visit.1.remote visit.1 visit.2)
    (linked : Linked R lines (done ++ rest)) :
    Linked R lines' out.1 ∧ (remotes out.1).Sublist (remotes (done ++ rest)) ∧
      ∀ a ∉ remotes (done ++ rest), lines' a = lines a := by
  induction readings generalizing done rest h lines with
  | nil =>
    cases rest with
    | nil =>
      obtain ⟨-, rfl⟩ := TcpServer.serve_nil hserve
      cases hlines
      rw [List.append_nil] at linked
      exact ⟨linked, by simp, fun _ _ => rfl⟩
    | cons c rest => cases hserve
  | cons r readings ih =>
    cases rest with
    | nil => cases hserve
    | cons c rest =>
      obtain ⟨r', readings', c', hreadings, -, -, hvisit, visited, hcases⟩ :=
        TcpServer.serve_cons accounts hserve
      cases hreadings
      have hfd := accounts.sockets c (by simp)
      rcases hcases with ⟨hkept, hanswered, hagain⟩ | ⟨hkept, hanswered, hnext⟩ |
        ⟨hgone, rfl, rfl, rfl⟩
      · obtain ⟨lines1, linked1, hsame, hother, hrest, allowed1⟩ :=
          linked.next keeps hfd hvisit hkept hlines allowed
        rw [if_pos hanswered] at hrest allowed1
        obtain ⟨linked', hsublist, hother'⟩ := ih visited hagain hrest allowed1 linked1
        rw [hsame] at hsublist hother'
        exact ⟨linked', hsublist, fun a ha => (hother' a ha).trans (hother a ha)⟩
      · obtain ⟨lines1, linked1, hsame, hother, hrest, allowed1⟩ :=
          linked.next keeps hfd hvisit hkept hlines allowed
        rw [if_neg hanswered] at hrest allowed1
        rw [List.append_cons] at visited linked1 hsame
        obtain ⟨linked', hsublist, hother'⟩ := ih visited hnext hrest allowed1 linked1
        rw [hsame] at hsublist hother'
        exact ⟨linked', hsublist, fun a ha => (hother' a ha).trans (hother a ha)⟩
      · rw [visits_last hvisit hgone] at hlines allowed
        obtain ⟨lines1, hline, hnone⟩ := Option.bind_eq_some_iff.mp hlines
        cases hnone
        obtain ⟨linked', -, -⟩ :=
          linked.visit keeps hfd (allowed _ (List.mem_singleton_self _)) hvisit hline
        rw [List.append_nil] at linked'
        refine ⟨linked', ?_, fun a ha => visited_other hline fun heq => ha (by
          simp [remotes, heq])⟩
        rw [remotes_append]
        exact List.sublist_append_left _ _

end

/-! ### One step -/

/-- Every client has one connection at most, which waits to be accepted or is linked with it. -/
structure Paired (R : InAddressPort → Line → Connection → Prop) (s : Network) : Prop where
  kept : TcpServer.Kept s.server
  linked : Linked R s.lines s.server.sockets.elements
  apart : (waiting s.server.host ++ remotes s.server.sockets.elements).Nodup
  arrived : ∀ a ∈ waiting s.server.host ++ remotes s.server.sockets.elements, a ∈ s.arrived
  fresh : ∀ a, a ∈ waiting s.server.host ∨ a ∉ s.arrived → ∀ sock, R a (s.lines a) (.accepted sock)

section

variable {worlds : InAddressPort → World tcp} {Q : InAddressPort → Connection → Visit → Prop}
  {R : InAddressPort → Line → Connection → Prop} {s s' : Network}

theorem paired_client (keeps : Keeps worlds Q R) (paired : Paired R s) {a : InAddressPort}
    {t : ClientTurn} (hstep : s.next (.client a t) = some s') : Paired R s' := by
  obtain ⟨l, hturn, rfl⟩ := Option.map_eq_some_iff.mp hstep
  have still {b : InAddressPort} {c : Connection} (hb : R b (s.lines b) c) :
      R b (Function.update s.lines a l b) c := by
    by_cases heq : b = a
    · subst heq
      rw [Function.update_self]
      exact keeps.turn hb hturn
    · rwa [Function.update_of_ne heq]
  have linked := paired.linked
  exact ⟨paired.kept, ⟨linked.kept, linked.apart, fun c hc => still (linked.each c hc),
      fun b => (linked.ever b).imp fun c hc => ⟨hc.1, still hc.2⟩⟩,
    paired.apart, paired.arrived, fun b hb sock => still (paired.fresh b hb sock)⟩

theorem paired_arrive (paired : Paired R s) {peer : FilledAddr}
    (hstep : s.next (.server (.arrive peer)) = some s') : Paired R s' := by
  simp only [next] at hstep
  split_ifs at hstep with hnew
  cases hstep
  obtain ⟨a, ha⟩ := Option.isSome_iff_exists.mp (parseAddr_isSome peer)
  simp only [TcpOp.peers, ha, Option.toList_some, List.mem_singleton, forall_eq] at hnew ⊢
  have hwaiting : waiting { s.server.host with
      queue := s.server.host.queue ++ [peer], edge := true } = waiting s.server.host ++ [a] := by
    simp [waiting, List.filterMap_append, ha]
  refine ⟨@TcpServer.kept_next s.server _ paired.kept (.arrive peer) rfl, paired.linked, ?_,
    fun b hb => ?_, fun b hb => paired.fresh b ?_⟩
  · rw [hwaiting, List.append_assoc, List.singleton_append, List.nodup_middle]
    exact List.nodup_cons.mpr ⟨fun hin => hnew (paired.arrived a hin), paired.apart⟩
  · rw [hwaiting, List.append_assoc, List.singleton_append, List.mem_append, List.mem_cons] at hb
    rw [List.mem_append, List.mem_singleton]
    have harrived := paired.arrived b
    rw [List.mem_append] at harrived
    tauto
  · rw [hwaiting, List.mem_append, List.mem_append, List.mem_singleton, not_or] at hb
    rcases hb with (hold | rfl) | ⟨hnot, -⟩
    · exact Or.inl hold
    · exact Or.inr hnew
    · exact Or.inr hnot

/-- The callbacks of a batch take connections from the queue, and erase some. -/
theorem paired_proceed (paired : Paired R s) {events : List Event} {new : Fd} {added : Bool}
    {spare : Nat} {server : TcpServer}
    (hproceed : s.server.proceed events new added spare = some server) :
    Paired R { s with server } := by
  obtain ⟨actions, hhost, htrace, -, hacts, kept⟩ := TcpServer.proceed_acts paired.kept hproceed
  have hwaiting : waiting s.server.host = handed actions ++ waiting server.host := by
    have hands : HandsOver s.server.host server.host :=
      hhost ▸ proceed_handsOver paired.kept.running events
    obtain ⟨actions', htrace', hwaiting⟩ := hands.actions
    rwa [List.reverse_injective (List.append_cancel_right (htrace.symm.trans htrace'))]
  obtain ⟨hsublist, helements⟩ := acts_remotes hacts
  have hperm : (waiting s.server.host ++ remotes s.server.sockets.elements).Perm
      (waiting server.host ++ (remotes s.server.sockets.elements ++ handed actions)) := by
    rw [hwaiting, List.append_assoc, ← List.append_assoc (waiting server.host)]
    exact List.perm_append_comm
  have hless := hsublist.append_left (waiting server.host)
  have hapart := hless.nodup (hperm.nodup_iff.mp paired.apart)
  refine ⟨kept, ⟨fun c hc => ?_, hapart.of_append_right, fun c hc => ?_, paired.linked.ever⟩,
    hapart, fun a ha => paired.arrived a (hperm.mem_iff.mpr (hless.subset ha)), fun a ha =>
      paired.fresh a (ha.imp_left fun hwaits => ?_)⟩
  · rcases helements c hc with hold | ⟨-, sock, rfl⟩
    · exact paired.linked.kept c hold
    · rfl
  · rcases helements c hc with hold | ⟨hhanded, sock, rfl⟩
    · exact paired.linked.each c hold
    · refine paired.fresh _ (Or.inl ?_) sock
      rw [hwaiting]
      exact List.mem_append_left _ hhanded
  · rw [hwaiting]
    exact List.mem_append_right _ hwaits

/-- The loop over the elements answers some, and erases the last one at most. -/
theorem paired_serve (keeps : Keeps worlds Q R) (paired : Paired R s) {readings : List Reading}
    {out : List Connection × Host tcp} {lines : InAddressPort → Line}
    (hserve : TcpServer.serve [] s.server.sockets.elements readings s.server.host = some out)
    (hlines : (TcpServer.visits s.server.sockets.elements readings s.server.host).foldlM visited
      s.lines = some lines)
    (allowed : ∀ visit ∈ TcpServer.visits s.server.sockets.elements readings s.server.host,
      Q visit.1.remote visit.1 visit.2) :
    Paired R ⟨lines, ⟨out.2, { s.server.sockets with elements := out.1 }⟩, s.arrived⟩ := by
  have before : TcpServer.Accounts s.server.host ([] ++ s.server.sockets.elements) :=
    paired.kept.accounts
  obtain ⟨linked, hfewer, hother⟩ :=
    serve_linked keeps before hserve hlines allowed paired.linked
  obtain ⟨hserver, accounts⟩ := TcpServer.serve_accounts before hserve
  have hqueue : waiting out.2 = waiting s.server.host :=
    congrArg (List.filterMap parseAddr) (serve_queue before hserve)
  rw [List.nil_append] at hfewer hother
  have hless := hfewer.append_left (waiting s.server.host)
  rw [← hqueue] at hless
  refine ⟨⟨hserver ▸ paired.kept.running, accounts⟩, linked, hless.nodup (hqueue ▸ paired.apart),
    fun a ha => paired.arrived a (hqueue ▸ hless.subset ha), fun a ha sock => ?_⟩
  have hnone : a ∉ remotes s.server.sockets.elements := by
    rcases ha with hwaits | hnever
    · exact fun hin => List.disjoint_of_nodup_append paired.apart (hqueue ▸ hwaits) hin
    · exact fun hin => hnever (paired.arrived a (List.mem_append_right _ hin))
  have hfresh := paired.fresh a (ha.imp_left fun hwaits => hqueue ▸ hwaits) sock
  rwa [← hother a hnone] at hfresh

theorem paired_turn (keeps : Keeps worlds Q R) (paired : Paired R s) {events : List Event}
    {new : Fd} {added : Bool} {spare : Nat} {readings : List Reading}
    (allowed : s.Allows Q (.server (.turn events new added spare readings)))
    (hstep : s.next (.server (.turn events new added spare readings)) = some s') : Paired R s' := by
  simp only [next] at hstep
  split_ifs at hstep with hnew
  obtain ⟨server, hserver, hrest⟩ := Option.bind_eq_some_iff.mp hstep
  obtain ⟨lines, hlines, rfl⟩ := Option.map_eq_some_iff.mp hrest
  obtain ⟨s1, hproceed, hserve⟩ := Option.bind_eq_some_iff.mp hserver
  obtain ⟨out, hout, rfl⟩ := Option.map_eq_some_iff.mp hserve
  have hvisits : s.server.visitsOf (.turn events new added spare readings) =
      TcpServer.visits s1.sockets.elements readings s1.host := by
    simp only [TcpServer.visitsOf, hproceed]
  rw [Allows, hvisits] at allowed
  rw [hvisits] at hlines
  rw [TcpOp.peers, List.append_nil]
  exact paired_serve keeps (paired_proceed paired hproceed) hout hlines allowed

theorem paired_next (keeps : Keeps worlds Q R) (paired : Paired R s) {op : NetworkOp}
    (allowed : s.Allows Q op) (hstep : s.next op = some s') : Paired R s' := by
  cases op with
  | client a t => exact paired_client keeps paired hstep
  | server op =>
    cases op with
    | arrive peer => exact paired_arrive paired hstep
    | turn => exact paired_turn keeps paired allowed hstep

theorem paired_start (keeps : Keeps worlds Q R) {host : Host tcp}
    (kept : TcpServer.Kept (.initial host)) (empty : host.queue = []) :
    Paired R (start worlds host) := by
  have hnobody : waiting host ++ remotes [] = [] := by
    rw [waiting, empty]
    rfl
  exact ⟨kept, ⟨fun c hc => (by cases hc), List.nodup_nil, fun c hc => (by cases hc), fun a =>
      ⟨.accepted ⟨⟨⟨some 0, AfInet.ipv4.toInt⟩, some a, none, true⟩, a⟩, rfl, keeps.start a _⟩⟩,
    hnobody ▸ List.nodup_nil, fun a ha => absurd (hnobody ▸ ha) List.not_mem_nil,
    fun a _ => keeps.start a⟩

/-- The connection of a client, which is new until it is accepted. -/
theorem Paired.connection (paired : Paired R s) (a : InAddressPort) :
    ∃ c : Connection, c.sock.sock.impl.fd.isSome ∧
      (a ∈ waiting s.server.host ∨ a ∉ s.arrived → ∃ sock, c = .accepted sock) ∧
      (∀ e ∈ s.server.sockets.elements, e.remote = a → e = c) ∧ R a (s.lines a) c := by
  have hwaits (hin : a ∈ remotes s.server.sockets.elements) :
      ¬(a ∈ waiting s.server.host ∨ a ∉ s.arrived) := by
    rintro (hwaiting | hnever)
    · exact List.disjoint_of_nodup_append paired.apart hwaiting hin
    · exact hnever (paired.arrived a (List.mem_append_right _ hin))
  by_cases hin : a ∈ remotes s.server.sockets.elements
  · obtain ⟨e, he, rfl⟩ := List.mem_map.mp hin
    exact ⟨e, paired.kept.accounts.sockets e he, fun hnew => absurd hnew (hwaits hin),
      fun e' he' heq => List.inj_on_of_nodup_map paired.linked.apart he' he heq,
      paired.linked.each e he⟩
  · have hnone : ∀ (c e : Connection), e ∈ s.server.sockets.elements → e.remote = a → e = c :=
      fun c e he heq => absurd (heq ▸ List.mem_map_of_mem he) hin
    by_cases hnew : a ∈ waiting s.server.host ∨ a ∉ s.arrived
    · exact ⟨.accepted ⟨⟨⟨some 0, AfInet.ipv4.toInt⟩, some a, none, true⟩, a⟩, rfl,
        fun _ => ⟨_, rfl⟩, hnone _, paired.fresh a hnew _⟩
    · obtain ⟨c, hfd, hlinked⟩ := paired.linked.ever a
      exact ⟨c, hfd, fun hwas => absurd hwas hnew, hnone c, hlinked⟩

/-- Nothing waits at a server that was just started. -/
theorem started_queue (pton : InetPton) (localPort : UInt64) (ans : Except Errno Fd)
    (bound listened : Answer) (added : Bool) :
    (TcpServer.init pton localPort ans bound listened added).2.queue = [] := by
  unfold TcpServer.init Host.start
  split_ifs
  · split
    · split
      · cases added <;> rfl
      · rfl
    · rfl
  · rfl

end

/-! ### The steps of one client and its connection -/

section

variable {w : World tcp} {l l' : Line} {c c' : Connection}

/-- A turn is a step of the client with any connection. -/
theorem turn_pipeline {t : ClientTurn} (hturn : l.turn t = some l') (c : Connection) :
    (l.pipeline c).next (.client t) = some (l'.pipeline c) ∧
      l'.history = l.history ++ [.client t] ∧ l'.up.read = l.up.read := by
  unfold Line.turn at hturn
  split_ifs at hturn with hhanded
  obtain ⟨out, hproceed, rfl⟩ := Option.map_eq_some_iff.mp hturn
  refine ⟨?_, rfl, rfl⟩
  simp only [Line.pipeline, Pipeline.next, if_pos hhanded, hproceed, Option.map_some]

/-- A visit is a step of the connection with its client. -/
theorem visited_pipeline {v : Visit} (hline : l.visited c v = some l')
    (hvisit : c.visit v = some c') : (l.pipeline c).next (.server v) = some (l'.pipeline c') ∧
      l'.history = l.history ++ [.server v] ∧ l.up.read <+: l'.up.read := by
  obtain ⟨p, hstep, rfl⟩ := Option.map_eq_some_iff.mp hline
  have hstep' := hstep
  simp only [Pipeline.next] at hstep'
  split_ifs at hstep'
  obtain ⟨c1, hc1, rfl⟩ := Option.map_eq_some_iff.mp hstep'
  obtain rfl : c' = c1 := Option.some.inj (hvisit.symm.trans hc1)
  exact ⟨hstep, rfl, List.prefix_append _ _⟩

theorem replayed_turn (h : Replayed w l c) {t : ClientTurn} (hturn : l.turn t = some l') :
    Replayed w l' c := by
  obtain ⟨hstep, hhistory, -⟩ := turn_pipeline hturn c
  rw [Replayed, hhistory, exec_concat, h]
  exact hstep

theorem replayed_visit (h : Replayed w l c) (hfd : c.sock.sock.impl.fd.isSome) {v : Visit}
    (hvisit : c.visit v = some c') (hline : l.visited c v = some l') : Replayed w l' c' := by
  obtain ⟨hstep, hhistory, -⟩ := visited_pipeline hline hvisit
  rw [Replayed, hhistory, exec_concat, Connection.visit_sock hfd hvisit, h]
  exact hstep

theorem Replayed.joined (h : Replayed w l c) (hfd : c.sock.sock.impl.fd.isSome) :
    Pipeline.Joined (l.pipeline c) :=
  (Always.of_inv (fun _ _ _ h hstep => Pipeline.joined_next h hstep)
    (Pipeline.joined_connected w hfd) l.history).last h

/-- The kernel took the whole of each response, and the requests are the beginning of what was
received. -/
structure AllGiven (l : Line) (c : Connection) : Prop where
  given : c.given = Connection.whole c.requests
  read : c.requests.flatten <+: l.up.read

theorem Replayed.answers (h : Replayed w l c) (hfd : c.sock.sock.impl.fd.isSome)
    (all : AllGiven l c) : c.requests.flatten <+: l.client.sent ∧
      ClientMain.text l.client.printed ++ l.down.flight = answers c.requests := by
  have joined := h.joined hfd
  constructor
  · have hsent : l.up.written = l.client.sent := joined.sent
    rw [← hsent, ← l.up.whole]
    exact all.read.trans (List.prefix_append _ _)
  · have hresponses := joined.carried.responses
    rw [← Pipeline.whole_bytes, ← all.given]
    exact hresponses.symm

theorem allGiven_turn (h : AllGiven l c) {t : ClientTurn} (hturn : l.turn t = some l') :
    AllGiven l' c := by
  obtain ⟨-, -, hread⟩ := turn_pipeline hturn c
  exact ⟨h.given, hread ▸ h.read⟩

theorem allGiven_visit (h : AllGiven l c) (hfd : c.sock.sock.impl.fd.isSome) {v : Visit}
    (takes : c.TakesAll v) (hvisit : c.visit v = some c') (hline : l.visited c v = some l')
    (joined : Pipeline.Joined (l'.pipeline c')) : AllGiven l' c' := by
  rcases Connection.visit_cases hfd hvisit with ⟨-, hrequests, hgiven, -⟩ |
    ⟨request, resp, sent, answers, hresp, -, hkept, hrequests, hgiven⟩
  · refine ⟨by rw [hgiven, hrequests, h.given], ?_⟩
    rw [hrequests]
    exact h.read.trans (visited_pipeline hline hvisit).2.2
  · constructor
    · rw [hgiven, hrequests, Connection.whole_append _ _ hresp, h.given, takes resp sent answers,
        List.take_length]
    · have htaken : l'.up.read = c'.requests.flatten ++ c'.request :=
        joined.taken (hkept.trans answers.kept)
      rw [htaken]
      exact List.prefix_append _ _

theorem replayed_keeps (worlds : InAddressPort → World tcp) :
    Keeps worlds (fun _ _ _ => True) fun a => Replayed (worlds a) where
  start _ _ := rfl
  turn h hturn := replayed_turn h hturn
  visit h hfd _ hvisit hline := replayed_visit h hfd hvisit hline

theorem allGiven_keeps (worlds : InAddressPort → World tcp) (a : InAddressPort) :
    Keeps worlds (fun b c v => b = a → c.TakesAll v)
      fun b l c => Replayed (worlds b) l c ∧ (b = a → AllGiven l c) where
  start _ _ := ⟨rfl, fun _ => ⟨rfl, List.nil_prefix⟩⟩
  turn h hturn := ⟨replayed_turn h.1 hturn, fun hb => allGiven_turn (h.2 hb) hturn⟩
  visit h hfd allowed hvisit hline := by
    have replayed := replayed_visit h.1 hfd hvisit hline
    have hfd' := Connection.visit_sock hfd hvisit ▸ hfd
    exact ⟨replayed, fun hb =>
      allGiven_visit (h.2 hb) hfd (allowed hb) hvisit hline (replayed.joined hfd')⟩

/-- What is typed in at a client with its connection. -/
theorem exec_dialogue (d : Dialogue) (ops : List PipelineOp) :
    exec Dialogue.next d ops = (exec Pipeline.next d.pipeline ops).map fun p =>
      ⟨p, d.typed ++ ops.flatMap PipelineOp.typed⟩ := by
  induction ops generalizing d with
  | nil => simp
  | cons op ops ih =>
    rw [exec_cons, exec_cons]
    cases hstep : d.pipeline.next op with
    | none => simp [Dialogue.next, hstep]
    | some p => simp [Dialogue.next, hstep, ih, List.append_assoc]

end

/-! ### Runs -/

section

variable {worlds : InAddressPort → World tcp} {pton : InetPton} {localPort : UInt64}
  {ans : Except Errno Fd} {bound listened : Answer} {added : Bool}

theorem allows_all {s : Network} (ops : List NetworkOp) :
    Along next (Allows fun _ _ _ => True) s ops := by
  have always (s : Network) (op : NetworkOp) (_ : True) : Allows (fun _ _ _ => True) s op := by
    cases op with
    | client a t => trivial
    | server op => exact fun _ _ => trivial
  exact Along.of_inv (fun _ _ _ _ _ => trivial) always trivial ops

theorem paired_run {Q : InAddressPort → Connection → Visit → Prop}
    {R : InAddressPort → Line → Connection → Prop} (keeps : Keeps worlds Q R)
    (started : (TcpServer.init pton localPort ans bound listened added).1 = true)
    {ops : List NetworkOp} (allowed : Along next (Allows Q)
      (start worlds (TcpServer.init pton localPort ans bound listened added).2) ops) :
    Always next (Paired R)
      (start worlds (TcpServer.init pton localPort ans bound listened added).2) ops :=
  Always.of_along (fun _ _ _ h hallowed hstep => paired_next keeps h hallowed hstep)
    (paired_start keeps (TcpServer.started_kept started)
      (started_queue pton localPort ans bound listened added)) allowed

/-- Whatever the clients do, however their turns and those of the server follow each other, and
whatever the kernel makes of their calls, each client and its connection go on as if they were
alone. -/
theorem separated_run (started : (TcpServer.init pton localPort ans bound listened added).1 = true)
    (ops : List NetworkOp) : Always next (Separated worlds)
      (start worlds (TcpServer.init pton localPort ans bound listened added).2) ops := by
  have allowed : Along next (Allows fun _ _ _ => True)
      (start worlds (TcpServer.init pton localPort ans bound listened added).2) ops :=
    allows_all ops
  refine (paired_run (replayed_keeps worlds) started allowed).mono fun s paired =>
    ⟨paired.linked.apart, fun a => ?_⟩
  obtain ⟨c, hfd, -, helement, hreplayed⟩ := paired.connection a
  exact ⟨c, hfd, helement, hreplayed⟩

/-- While the kernel takes whole responses to a client, it is given the responses to what it sent
and nothing else, whatever becomes of the others. -/
theorem responded_run (started : (TcpServer.init pton localPort ans bound listened added).1 = true)
    (a : InAddressPort) (ops : List NetworkOp) (takes : Along next (TakesAll a)
      (start worlds (TcpServer.init pton localPort ans bound listened added).2) ops) :
    Always next (Answered a)
      (start worlds (TcpServer.init pton localPort ans bound listened added).2) ops := by
  refine (paired_run (allGiven_keeps worlds a) started takes).mono fun s paired => ?_
  obtain ⟨c, hfd, -, helement, hreplayed, hall⟩ := paired.connection a
  obtain ⟨hrequests, hprinted⟩ := hreplayed.answers hfd (hall rfl)
  refine ⟨c.requests, hrequests, hprinted, fun e he heq => ?_⟩
  obtain rfl := helement e he heq
  exact ⟨rfl, (hreplayed.joined hfd).carried.requests (paired.linked.kept e he)⟩

/-- A conversation goes on in order, whatever the others do, and whatever becomes of its
connection. -/
theorem conversing_run (started : (TcpServer.init pton localPort ans bound listened added).1 = true)
    (ops : List NetworkOp) : Always next (Conversing worlds)
      (start worlds (TcpServer.init pton localPort ans bound listened added).2) ops := by
  have allowed : Along next (Allows fun _ _ _ => True)
      (start worlds (TcpServer.init pton localPort ans bound listened added).2) ops :=
    allows_all ops
  refine (paired_run (replayed_keeps worlds) started allowed).mono fun s paired a => ?_
  obtain ⟨c, hfd, hnew, helement, hreplayed⟩ := paired.connection a
  refine ⟨c, hfd, hnew, helement, hreplayed, fun orderly => ?_⟩
  refine (Dialogue.answering_run (worlds a) c.sock hfd _ orderly).last ?_
  rw [exec_dialogue]
  exact congrArg (Option.map _) hreplayed

end

/-! ### Two users -/

/-- The sockets of two clients, as `accept4` reports them. -/
def peerAt (second : Bool) : FilledAddr := Host.peerOn (if second then 2 else 1)

def addressOf (second : Bool) : InAddressPort :=
  (parseAddr (peerAt second)).getD ⟨⟨fun _ => 0, AfInet.ipv4.toInt⟩, 0⟩

def twoUsers : Network := start (fun _ => Pipeline.connectedTcp) TcpServer.listening

/-- Both type in a number, and the first one prints its response. -/
def twoNumbers : List NetworkOp :=
  [.client (addressOf false) (Pipeline.turnWith .writeReady none (some [50])),
    .server (.arrive (peerAt false)),
    .server (.turn [⟨3, .readReady⟩] 4 true 1 (TcpServer.readingsOf 4 [50] 4)),
    .client (addressOf true) (Pipeline.turnWith .writeReady none (some [51])),
    .server (.arrive (peerAt true)),
    .server (.turn [⟨3, .readReady⟩] 5 true 0
      (⟨4, [], .again, .ok 0⟩ :: TcpServer.readingsOf 5 [51] 4)),
    .client (addressOf false) (Pipeline.turnWith .readReady (some [50, 32, 10, 50]) none)]

theorem twoNumbers_printed :
    (exec next twoUsers twoNumbers).map (fun s => ((s.lines (addressOf false)).client.printed,
        (s.lines (addressOf true)).down.flight)) =
      some ([.response [50, 32, 10, 50]], [51, 32, 10, 51]) := by
  decide +kernel

theorem twoNumbers_runs : (exec next twoUsers twoNumbers).isSome := by
  rw [← Option.isSome_map, twoNumbers_printed]
  rfl

theorem separated_run_twoNumbers : (exec next twoUsers twoNumbers).isSome ∧
    Always next (Separated fun _ => Pipeline.connectedTcp) twoUsers twoNumbers :=
  ⟨twoNumbers_runs, separated_run (by decide +kernel) twoNumbers⟩

theorem responded_run_twoNumbers : (exec next twoUsers twoNumbers).isSome ∧
    Always next (Answered (addressOf true)) twoUsers twoNumbers :=
  ⟨twoNumbers_runs,
    responded_run (by decide +kernel) (addressOf true) twoNumbers (by decide +kernel)⟩

theorem conversing_run_twoNumbers : (exec next twoUsers twoNumbers).isSome ∧
    Always next (Conversing fun _ => Pipeline.connectedTcp) twoUsers twoNumbers :=
  ⟨twoNumbers_runs, conversing_run (by decide +kernel) twoNumbers⟩

end Network

end TypedSockets.App
