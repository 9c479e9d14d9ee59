import TypedSockets.App.TcpServer

/-! What the connections of the TCP server program are answered: nothing that was received waits at
the end of a turn, and what one connection is answered does not depend on the others. -/

namespace TypedSockets.App

open TypedSockets.Socket TypedSockets.Epoll TypedSockets.Endpoint TypedSockets.Lib

namespace Connection

open ClientMain (bytes)

variable {c c' : Connection}

/-- The socket that a loop of `recv` leaves: none when it never ends. -/
def rxAfter : Ending → Option Rx
  | .again => some ⟨eAgain, [], .again⟩
  | .eof => none
  | .error e => some ⟨e, [], .eof⟩

/-- The loop of `recv` takes all that there is, unless it finds the end of the stream. -/
theorem doWhile_rxAfter {sock : AcceptedSock} (hfd : sock.sock.impl.fd.isSome) (errno : Errno)
    (chunks : List (List UInt8 × FilledAddr)) (ending : Ending) (request : List UInt8) (got : Bool) :
    doWhile recvRound whileReceived (chunks.length + 1)
        ⟨.acceptedSock tcp tcp_connectionBased sock, ⟨errno, chunks, ending⟩, request, got⟩ =
      (rxAfter ending).map fun rx =>
        ⟨.acceptedSock tcp tcp_connectionBased sock, rx, request ++ bytes chunks, false⟩ := by
  obtain ⟨fd, hfd⟩ := Option.isSome_iff_exists.mp hfd
  induction chunks generalizing request got with
  | nil =>
    cases ending <;>
      simp [doWhile, recvRound, whileReceived, RecvI.recvImpl, Endpoint.SocketImpl.receive, hfd,
        Rx.recv, rxAfter, bytes]
  | cons chunk chunks ih =>
    have hround : recvRound ⟨.acceptedSock tcp tcp_connectionBased sock,
        ⟨errno, chunk :: chunks, ending⟩, request, got⟩ =
          ⟨.acceptedSock tcp tcp_connectionBased sock, ⟨errno, chunks, ending⟩,
            request ++ chunk.1, true⟩ := by
      simp [recvRound, RecvI.recvImpl, Endpoint.SocketImpl.receive, hfd, Rx.recv]
    rw [List.length_cons, doWhile, hround]
    simp only [whileReceived, ↓reduceIte]
    rw [ih, show bytes (chunk :: chunks) = chunk.1 ++ bytes chunks from rfl, List.append_assoc]

theorem drained_eq (hfd : c.sock.sock.impl.fd.isSome) (v : Visit) :
    c.drained v = (rxAfter v.ending).map fun rx =>
      ⟨.acceptedSock tcp tcp_connectionBased c.sock, rx, c.request ++ bytes v.chunks, false⟩ :=
  doWhile_rxAfter hfd _ _ _ _ _

/-- An element that was visited and stays has answered all that it received, when `recv` ends with
`EAGAIN`. -/
theorem visit_request (hfd : c.sock.sock.impl.fd.isSome) {v : Visit} (ending : v.ending = .again)
    (hvisit : c.visit v = some c') (hkept : c'.kept = true) : c'.request = [] := by
  rw [visit] at hvisit
  split_ifs at hvisit
  obtain ⟨d, hd, hrest⟩ := Option.bind_eq_some_iff.mp hvisit
  rw [drained_eq hfd, ending] at hd
  cases hd
  split_ifs at hrest with hfinished
  · obtain ⟨resp, -, hanswer⟩ := Option.bind_eq_some_iff.mp hrest
    unfold answer at hanswer
    simp only at hanswer
    split at hanswer
    · split_ifs at hanswer
      cases hanswer
      rfl
    · cases hanswer
      cases hkept
  · cases hrest
    simpa [finished, RecvI.finishedRecvImpl, SocketImpl.again] using hfinished

/-- `TakesAll` as a condition that a visit can be tested for. -/
theorem takesAll_iff {v : Visit} :
    c.TakesAll v ↔ c.kept = true → ∀ d ∈ c.drained v, finished d = true →
      ∀ resp ∈ Service.createResponse d.received, ∀ sent ∈ v.ans.toOption,
        0 < sent → sent ≤ resp.length → sent = resp.length := by
  constructor
  · intro takes kept d hd hfinished resp hresp sent hsent positive fits
    refine takes resp sent ⟨kept, ⟨d, hd, hfinished, hresp⟩, ?_, positive, fits⟩
    cases hans : v.ans with
    | ok n =>
      rw [hans] at hsent
      exact congrArg Except.ok (Option.some.inj hsent)
    | error e =>
      rw [hans] at hsent
      cases hsent
  · intro h resp sent answers
    obtain ⟨d, hd, hfinished, hresp⟩ := answers.finished
    exact h answers.kept d hd hfinished resp hresp sent (by rw [answers.ans]; rfl) answers.positive
      answers.fits

instance (v : Visit) : Decidable (c.TakesAll v) := decidable_of_iff _ takesAll_iff.symm

end Connection

namespace TcpServer

/-- The visits of the loop over the elements. -/
def visits : List Connection → List Reading → Host tcp → List (Connection × Visit)
  | c :: rest, r :: readings, h =>
    let v := r.visit h.kernel
    let h := { h with kernel := c.kernelAfter v }
    (c, v) :: match c.visit v with
      | some c' =>
        if c'.kept then
          if c.requests.length < c'.requests.length then visits (c' :: rest) readings h
          else visits rest readings h
        else []
      | none => []
  | _, _, _ => []

/-- The visits of a turn. -/
def visitsOf (s : TcpServer) : TcpOp → List (Connection × Visit)
  | .arrive _ => []
  | .turn events new added spare readings =>
    match s.proceed events new added spare with
    | some s => visits s.sockets.elements readings s.host
    | none => []

/-- `recv` ends with `EAGAIN` at each element, and the kernel takes the whole of each response. -/
def Flows (s : TcpServer) (op : TcpOp) : Prop :=
  ∀ visit ∈ s.visitsOf op, visit.2.ending = .again ∧ visit.1.TakesAll visit.2

instance (s : TcpServer) (op : TcpOp) : Decidable (s.Flows op) :=
  inferInstanceAs (Decidable (∀ visit ∈ s.visitsOf op,
    visit.2.ending = .again ∧ visit.1.TakesAll visit.2))

/-- Each client was given the responses to all that was received from it. -/
def Served (s : TcpServer) : Prop :=
  ∀ c ∈ s.sockets.elements, c.request = [] ∧ c.given = Connection.whole c.requests

/-- The element with the descriptor. -/
def connection (s : TcpServer) (fd : Fd) : Option Connection :=
  s.sockets.elements.find? fun c => c.fd = fd

end TcpServer

/-- What a turn has for a descriptor. -/
def TcpOp.at (fd : Fd) : TcpOp → List Event × List Reading
  | .arrive _ => ([], [])
  | .turn events _ _ _ readings =>
    (events.filter fun event => event.fd = fd, readings.filter fun r => r.fd = fd)

namespace TcpServer

/-! ### What was received is answered -/

section

variable {h : Host tcp} {done rest : List Connection} {readings : List Reading}
  {out : List Connection × Host tcp}

theorem visits_cons {c c' : Connection} {r : Reading}
    (hvisit : c.visit (r.visit h.kernel) = some c') (hkept : c'.kept = true) :
    visits (c :: rest) (r :: readings) h = (c, r.visit h.kernel) ::
      visits (if c.requests.length < c'.requests.length then c' :: rest else rest) readings
        { h with kernel := c.kernelAfter (r.visit h.kernel) } := by
  rw [visits]
  simp only [hvisit, hkept, ↓reduceIte]
  split_ifs <;> rfl

/-- An element that is there, has answered all that it received, and was given all of it. -/
structure Settled (c : Connection) : Prop where
  kept : c.kept = true
  request : c.request = []
  given : c.given = Connection.whole c.requests

theorem settled_visit {c c' : Connection} {v : Visit} (hfd : c.sock.sock.impl.fd.isSome)
    (settled : Settled c) (ending : v.ending = .again) (takes : c.TakesAll v)
    (hvisit : c.visit v = some c') (hkept : c'.kept = true) : Settled c' := by
  have complete : c'.Complete :=
    (Connection.complete_next_iff v hfd fun _ => settled.given).mpr takes c' hvisit
  exact ⟨hkept, Connection.visit_request hfd ending hvisit hkept, complete hkept⟩

theorem serve_settled (accounts : Accounts h (done ++ rest))
    (hserve : serve done rest readings h = some out)
    (flows : ∀ visit ∈ visits rest readings h, visit.2.ending = .again ∧ visit.1.TakesAll visit.2)
    (settled : ∀ c ∈ done ++ rest, Settled c) : ∀ c ∈ out.1, Settled c := by
  induction readings generalizing done rest h with
  | nil =>
    cases rest with
    | nil =>
      obtain ⟨-, rfl⟩ := serve_nil hserve
      simpa using settled
    | cons c rest => cases hserve
  | cons r readings ih =>
    cases rest with
    | nil => cases hserve
    | cons c rest =>
      obtain ⟨r', readings', c', hreadings, -, -, hvisit, visited, hcases⟩ :=
        serve_cons accounts hserve
      cases hreadings
      have next (hkept : c'.kept = true) : (∀ e ∈ done ++ c' :: rest, Settled e) ∧
          ∀ visit ∈ visits (if c.requests.length < c'.requests.length then c' :: rest else rest)
            readings { h with kernel := c.kernelAfter (r.visit h.kernel) },
          visit.2.ending = .again ∧ visit.1.TakesAll visit.2 := by
        rw [visits_cons hvisit hkept, List.forall_mem_cons] at flows
        obtain ⟨⟨ending, takes⟩, flows⟩ := flows
        have hnew : Settled c' := settled_visit (accounts.sockets c (by simp))
          (settled c (by simp)) ending takes hvisit hkept
        refine ⟨fun e he => ?_, flows⟩
        rcases List.mem_append.mp he with hold | hin
        · exact settled e (List.mem_append_left _ hold)
        · rcases List.mem_cons.mp hin with rfl | hold
          · exact hnew
          · exact settled e (by simp [hold])
      rcases hcases with ⟨hkept, hanswered, hagain⟩ | ⟨hkept, hanswered, hnext⟩ | ⟨-, -, -, rfl⟩
      · obtain ⟨hsettled, hflows⟩ := next hkept
        rw [if_pos hanswered] at hflows
        exact ih visited hagain hflows hsettled
      · obtain ⟨hsettled, hflows⟩ := next hkept
        rw [if_neg hanswered] at hflows
        rw [List.append_cons] at visited hsettled
        exact ih visited hnext hflows hsettled
      · exact fun e he => settled e (List.mem_append_left _ he)

theorem inserted_settled (server : Server tcp) (fd : Fd) (remote : InAddressPort) :
    Settled (inserted server fd remote) := by
  unfold inserted
  split <;> exact ⟨rfl, rfl, rfl⟩

theorem act_settled {server : Server tcp} {spare : Nat} {v v' : Connections} {action : Action}
    (settled : ∀ c ∈ v.elements, Settled c) (hact : act server spare v action = some v') :
    ∀ c ∈ v'.elements, Settled c := by
  cases action with
  | onConn func fd remote =>
    rw [emplaceBack_elements hact]
    intro c hc
    rcases List.mem_append.mp hc with hold | hnew
    · exact settled c hold
    · rw [List.mem_singleton.mp hnew]
      exact inserted_settled server fd remote
  | eraseActiveSocket func fd =>
    rw [eraseFd_elements hact]
    exact fun c hc => settled c (List.mem_filter.mp hc).1
  | _ =>
    cases hact
    exact settled

theorem acts_settled {server : Server tcp} {spare : Nat} {actions : List Action}
    {v v' : Connections} (settled : ∀ c ∈ v.elements, Settled c)
    (hacts : actions.foldlM (act server spare) v = some v') : ∀ c ∈ v'.elements, Settled c := by
  induction actions generalizing v with
  | nil =>
    cases hacts
    exact settled
  | cons action actions ih =>
    rw [List.foldlM_cons] at hacts
    obtain ⟨v1, hact, hrest⟩ := Option.bind_eq_some_iff.mp hacts
    exact ih (act_settled settled hact) hrest

variable {s s' : TcpServer}

theorem settled_next (kept : Kept s) (settled : ∀ c ∈ s.sockets.elements, Settled c) {op : TcpOp}
    (flows : s.Flows op) (hnext : s.next op = some s') :
    ∀ c ∈ s'.sockets.elements, Settled c := by
  cases op with
  | arrive peer =>
    cases hnext
    exact settled
  | turn events new added spare readings =>
    obtain ⟨s1, hproceed, hserve⟩ := Option.bind_eq_some_iff.mp hnext
    obtain ⟨out, hout, rfl⟩ := Option.map_eq_some_iff.mp hserve
    obtain ⟨actions, -, -, -, hacts, kept1⟩ := proceed_acts kept hproceed
    have settled1 : ∀ c ∈ [] ++ s1.sockets.elements, Settled c := acts_settled settled hacts
    have accounts1 : Accounts s1.host ([] ++ s1.sockets.elements) := kept1.accounts
    refine serve_settled accounts1 hout ?_ settled1
    simpa only [Flows, visitsOf, hproceed] using flows

end

/-! ### One connection among the others -/

theorem Kept.serving {s : TcpServer} (kept : Kept s) : Serving s.host where
  state := kept.running.state
  handlers := kept.running.handlers
  listener := by
    refine ⟨(kept.accounts.opened _).mpr (Or.inl rfl), fun hheld => ?_⟩
    exact (List.nodup_cons.mp kept.accounts.apart).1 (kept.accounts.held.mem_iff.mp hheld)

/-- What the readings of its descriptor make of an element. -/
def readAll : Option Connection → List Reading → Option Connection
  | some c, r :: readings =>
    (c.visit (r.visit .initial)).bind fun c' => if c'.kept then readAll (some c') readings else none
  | c?, _ => c?

/-- What a turn makes of an element, from what it has for its descriptor. -/
def turnOf (c? : Option Connection) (own : List Event × List Reading) : Option Connection :=
  if own.1.any Event.terminates then none else readAll c? own.2

section

variable {fd : Fd}

/-- The action erases the element with the descriptor. -/
def erases (fd : Fd) : Action → Bool
  | .eraseActiveSocket _ fd' => fd' = fd
  | _ => false

variable {h : Host tcp} {new : Fd} {added : Bool}

variable {done rest : List Connection} {readings : List Reading}
  {out : List Connection × Host tcp}

variable {s s' : TcpServer}

end

section

variable {pton : InetPton} {localPort : UInt64} {ans : Except Errno Fd} {bound listened : Answer}
  {added : Bool}

/-- While `recv` ends with `EAGAIN` and the kernel takes whole responses, each turn leaves every
client with the responses to all that was received from it. -/
theorem allServed_run (started : (init pton localPort ans bound listened added).1 = true)
    (ops : List TcpOp)
    (flows : Along next Flows (initial (init pton localPort ans bound listened added).2) ops) :
    Always next Served (initial (init pton localPort ans bound listened added).2) ops := by
  let Inv : TcpServer → Prop := fun s => Kept s ∧ ∀ c ∈ s.sockets.elements, Settled c
  have start : Inv (initial (init pton localPort ans bound listened added).2) :=
    ⟨started_kept started, fun _ hc => by cases hc⟩
  have settled : Always next Inv (initial (init pton localPort ans bound listened added).2) ops :=
    Always.of_along (fun _ _ _ h hflows hnext => ⟨kept_next h.1 hnext,
      settled_next h.1 h.2 hflows hnext⟩) start flows
  exact settled.mono fun _ h c hc => ⟨(h.2 c hc).request, (h.2 c hc).given⟩

end

/-- A connection is accepted, and the vector has room for another one. -/
def accepting : List TcpOp := [.arrive (Host.peerOn 1), .turn [⟨3, .readReady⟩] 4 true 1
  [⟨4, [], .again, .ok 0⟩]]

/-- It is answered, alone or while another one is accepted and answered. -/
def alone : List TcpOp := [.arrive (Host.peerOn 2), .turn [] 5 true 0 (readingsOf 4 [50] 4)]

def beside : List TcpOp := [.arrive (Host.peerOn 2),
  .turn [⟨3, .readReady⟩] 5 true 0 (readingsOf 4 [50] 4 ++ readingsOf 5 [51] 4)]

theorem allServed_run_pair :
    (exec next (initial listening) (accepting ++ beside)).isSome ∧
      Always next Served (initial listening) (accepting ++ beside) :=
  ⟨by decide +kernel, allServed_run (by decide +kernel) (accepting ++ beside) (by decide +kernel)⟩

end TcpServer

end TypedSockets.App
