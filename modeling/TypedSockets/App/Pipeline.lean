import TypedSockets.App.ClientMain
import TypedSockets.App.Delivery
import TypedSockets.Lib.Pipe

/-! The client program and the server program at the two ends of one TCP connection.  Each takes its
turns when it likes, the kernel takes as much of a `send` as it likes, and hands the bytes out in
pieces as it likes, in their order. -/

namespace TypedSockets.App

open TypedSockets.Socket TypedSockets.Epoll TypedSockets.Endpoint TypedSockets.Lib

/-- `up` holds the bytes from the client to the server, and `down` those from the server to the
client. -/
structure Pipeline where
  client : ClientMain tcp
  server : Connection
  up : Pipe UInt8
  down : Pipe UInt8

/-- The next turn of the client, or the next visit of the server to the connection. -/
inductive PipelineOp where
  | client (t : ClientTurn)
  | server (v : Visit)

/-- How many bytes the drain loop of a visit takes. -/
def Connection.consumed (c : Connection) (v : Visit) : Nat :=
  ((c.drained v).map fun d =>
    (ClientMain.bytes v.chunks).length - (ClientMain.bytes d.rx.chunks).length).getD 0

/-- The responses to requests. -/
def answers (requests : List (List UInt8)) : List UInt8 :=
  requests.flatMap fun request => (Service.createResponse request).getD []

namespace Pipeline

open ClientMain

/-- The client has connected, and the server has accepted the connection. -/
def connected (w : World tcp) (sock : AcceptedSock) : Pipeline :=
  ⟨.initial w, .accepted sock, .empty, .empty⟩

/-- A visit takes bytes out of one stream, and puts those of its response into the other. -/
def visited (s : Pipeline) (v : Visit) (c : Connection) : Pipeline :=
  { s with
    server := c
    up := s.up.take (s.server.consumed v)
    down := s.down.write ((c.given.drop s.server.given.length).map Prod.snd) }

/-- One step.  What `recv` hands out is the beginning of what is under way. -/
def next (s : Pipeline) : PipelineOp → Option Pipeline
  | .client t =>
    if bytes t.chunks <+: s.down.flight then
      (s.client.proceed t).map fun out =>
        let client := out.1.input t.line t.ans
        { s with
          client
          up := s.up.write (client.sent.drop s.client.sent.length)
          down := s.down.take ((bytes t.chunks).length - (bytes out.2.chunks).length) }
    else none
  | .server v =>
    if bytes v.chunks <+: s.up.flight then
      (s.server.visit v).map (s.visited v)
    else none

/-- Nothing is lost, repeated or reordered on the way: what the client sent is what the server has
made requests of, what it has of the next request, and what is under way, and what the server gave
to the kernel is what the client printed and what is under way. -/
structure Carried (s : Pipeline) : Prop where
  requests : s.server.kept = true →
    s.client.sent = s.server.requests.flatten ++ s.server.request ++ s.up.flight
  responses : s.server.given.map Prod.snd = text s.client.printed ++ s.down.flight

/-- The client was given, and has printed or will be handed out, all responses to the requests. -/
def Answered (s : Pipeline) : Prop :=
  s.server.kept = true → text s.client.printed ++ s.down.flight = answers s.server.requests

/-- The kernel takes the whole of each response. -/
def TakesAll (s : Pipeline) : PipelineOp → Prop
  | .client _ => True
  | .server v => bytes v.chunks <+: s.up.flight → s.server.TakesAll v

/-! ### One step -/

/-- The two ends agree with the streams between them. -/
structure Joined (s : Pipeline) : Prop where
  accepted : s.server.sock.sock.impl.fd.isSome
  sent : s.up.written = s.client.sent
  taken : s.server.kept = true → s.up.read = s.server.requests.flatten ++ s.server.request
  given : s.down.written = s.server.given.map Prod.snd
  printed : s.down.read = text s.client.printed

theorem Joined.carried {s : Pipeline} (h : Joined s) : Carried s := by
  constructor
  · intro hkept
    rw [← h.sent, ← h.taken hkept, s.up.whole]
  · rw [← h.given, ← h.printed, s.down.whole]

theorem joined_connected (w : World tcp) {sock : AcceptedSock}
    (hfd : sock.sock.impl.fd.isSome) : Joined (connected w sock) :=
  ⟨hfd, rfl, fun _ => rfl, rfl, rfl⟩

theorem joined_client {s s' : Pipeline} (h : Joined s) {t : ClientTurn}
    (hstep : s.next (.client t) = some s') : Joined s' := by
  simp only [next] at hstep
  split_ifs at hstep with hhanded
  obtain ⟨out, hproceed, rfl⟩ := Option.map_eq_some_iff.mp hstep
  obtain ⟨⟨got, htext, hbytes⟩, hsent⟩ := proceed_prints hproceed
  obtain ⟨hprinted, data, hdata⟩ := input_sent out.1 t.line t.ans
  rw [hsent] at hdata
  refine ⟨h.accepted, ?_, h.taken, h.given, ?_⟩
  · simp only [Pipe.write_written, hdata, List.drop_left, h.sent]
  · have hcount : (bytes t.chunks).length - (bytes out.2.chunks).length = got.length := by
      rw [← hbytes, List.length_append, Nat.add_sub_cancel]
    rw [← hbytes] at hhanded
    simp only [hcount, hprinted, htext]
    rw [Pipe.take_handed s.down hhanded, h.printed]

/-- What a visit takes out of the stream, and what it makes of it. -/
theorem visit_takes {c c' : Connection} {v : Visit}
    (hvisit : c.visit v = some c') :
    ∃ got left, got ++ left = bytes v.chunks ∧ c.consumed v = got.length ∧
      (c'.kept = true → c.kept = true ∧
        c'.requests.flatten ++ c'.request = c.requests.flatten ++ c.request ++ got) := by
  rw [Connection.visit] at hvisit
  split_ifs at hvisit with hkept
  obtain ⟨d, hd, hrest⟩ := Option.bind_eq_some_iff.mp hvisit
  obtain ⟨got, hreceived, hbytes⟩ := doWhile_got hd
  refine ⟨got, _, hbytes, ?_, fun hkept' => ⟨hkept, ?_⟩⟩
  · simp only [Connection.consumed, hd, Option.map_some, Option.getD_some, ← hbytes,
      List.length_append, Nat.add_sub_cancel]
  · have hreceived : d.received = c.request ++ got := hreceived
    split_ifs at hrest
    · obtain ⟨resp, -, hanswer⟩ := Option.bind_eq_some_iff.mp hrest
      unfold Connection.answer at hanswer
      simp only at hanswer
      split at hanswer
      · split_ifs at hanswer
        cases hanswer
        simp [hreceived]
      · cases hanswer
        cases hkept'
    · cases hrest
      simp [hreceived]

/-- A visit gives the kernel bytes after those given before. -/
theorem visit_gives {c c' : Connection} {v : Visit} (hfd : c.sock.sock.impl.fd.isSome)
    (hvisit : c.visit v = some c') : ∃ more, c'.given = c.given ++ more := by
  rcases Connection.visit_cases hfd hvisit with ⟨-, -, hgiven, -⟩ | ⟨_, _, _, -, -, -, -, -, hgiven⟩
  · exact ⟨[], by rw [hgiven, List.append_nil]⟩
  · exact ⟨_, hgiven⟩

theorem joined_server {s s' : Pipeline} (h : Joined s) {v : Visit}
    (hstep : s.next (.server v) = some s') : Joined s' := by
  simp only [next] at hstep
  split_ifs at hstep with hhanded
  obtain ⟨c, hvisit, rfl⟩ := Option.map_eq_some_iff.mp hstep
  obtain ⟨got, left, hbytes, hcount, hrequests⟩ := visit_takes hvisit
  obtain ⟨more, hgiven⟩ := visit_gives h.accepted hvisit
  refine ⟨Connection.visit_sock h.accepted hvisit ▸ h.accepted, h.sent, fun hkept => ?_, ?_,
    h.printed⟩
  · obtain ⟨hkept', hflatten⟩ := hrequests hkept
    rw [← hbytes] at hhanded
    simp only [visited, hcount]
    rw [Pipe.take_handed s.up hhanded, hflatten, h.taken hkept']
  · simp only [visited, Pipe.write_written, hgiven, List.drop_left, h.given, List.map_append]

theorem joined_next {s s' : Pipeline} (h : Joined s) {op : PipelineOp}
    (hstep : s.next op = some s') : Joined s' := by
  cases op with
  | client t => exact joined_client h hstep
  | server v => exact joined_server h hstep

/-! ### Responses -/

theorem whole_bytes (requests : List (List UInt8)) :
    (Connection.whole requests).map Prod.snd = answers requests := by
  have hmarked : ∀ r : List UInt8 × Nat,
      (Connection.marked r.2 ((Service.createResponse r.1).getD [])).map Prod.snd =
        (Service.createResponse r.1).getD [] := by
    intro r
    simp [Connection.marked, Function.comp_def]
  calc (Connection.whole requests).map Prod.snd
      = requests.zipIdx.flatMap fun r => (Service.createResponse r.1).getD [] := by
        rw [Connection.whole, List.map_flatMap]
        simp only [hmarked]
    _ = (requests.zipIdx.map Prod.fst).flatMap fun r => (Service.createResponse r).getD [] := by
        rw [List.flatMap_map]
    _ = answers requests := by rw [List.zipIdx_map_fst, answers]

/-- Where the responses before were given in full, the number of bytes tells whether this one
was. -/
theorem complete_iff_bytes {c c' : Connection} {v : Visit} (hfd : c.sock.sock.impl.fd.isSome)
    (h : c.Complete) (hvisit : c.visit v = some c') :
    c'.Complete ↔ (c'.kept = true → c'.given.map Prod.snd = answers c'.requests) := by
  refine forall_congr' fun hkept' => ?_
  rw [← whole_bytes]
  refine ⟨congrArg _, fun hbytes => ?_⟩
  rcases Connection.visit_cases hfd hvisit with ⟨-, hrequests, hgiven, hkept, -⟩ |
    ⟨request, resp, sent, answers, hresp, -, hkept, hrequests, hgiven⟩
  · rw [hrequests, hgiven]
    exact h (hkept hkept')
  · have hlength := congrArg List.length hbytes
    have hfits := answers.fits
    rw [hrequests, hgiven, Connection.whole_append _ _ hresp, h (hkept ▸ hkept')] at hlength ⊢
    simp only [Connection.marked, List.length_map, List.length_append, List.length_take] at hlength
    have hsent : sent = resp.length := by omega
    rw [hsent, List.take_length]

theorem answered_iff {s : Pipeline} (h : Joined s) :
    Answered s ↔
      (s.server.kept = true → s.server.given.map Prod.snd = answers s.server.requests) := by
  rw [Answered, h.carried.responses]

theorem answered_next_iff {s : Pipeline} (h : Joined s) (complete : s.server.Complete)
    (op : PipelineOp) : (∀ s', s.next op = some s' → Answered s') ↔ s.TakesAll op := by
  cases op with
  | client t =>
    refine iff_of_true (fun s' hstep => ?_) trivial
    rw [answered_iff (joined_client h hstep)]
    simp only [next] at hstep
    split_ifs at hstep
    obtain ⟨out, -, rfl⟩ := Option.map_eq_some_iff.mp hstep
    intro hkept
    rw [← whole_bytes, ← complete hkept]
  | server v =>
    rw [TakesAll]
    constructor
    · intro hnext hhanded
      refine (Connection.complete_next_iff v h.accepted complete).mp fun c hvisit => ?_
      have hstep : s.next (.server v) = some (s.visited v c) := by
        simp only [next, if_pos hhanded, hvisit, Option.map_some]
      have hanswered := (answered_iff (joined_server h hstep)).mp (hnext _ hstep)
      exact (complete_iff_bytes h.accepted complete hvisit).mpr hanswered
    · intro htakes s' hstep
      rw [answered_iff (joined_server h hstep)]
      simp only [next] at hstep
      split_ifs at hstep with hhanded
      obtain ⟨c, hvisit, rfl⟩ := Option.map_eq_some_iff.mp hstep
      refine (complete_iff_bytes h.accepted complete hvisit).mp ?_
      exact (Connection.complete_next_iff v h.accepted complete).mpr (htakes hhanded) c hvisit

theorem complete_kept {s s' : Pipeline} (h : Joined s) (complete : s.server.Complete)
    {op : PipelineOp} (htakes : s.TakesAll op) (hstep : s.next op = some s') :
    s'.server.Complete := by
  simp only [next] at hstep
  cases op with
  | client t =>
    simp only at hstep
    split_ifs at hstep
    obtain ⟨out, -, rfl⟩ := Option.map_eq_some_iff.mp hstep
    exact complete
  | server v =>
    simp only at hstep
    split_ifs at hstep with hhanded
    obtain ⟨c, hvisit, rfl⟩ := Option.map_eq_some_iff.mp hstep
    exact (Connection.complete_next_iff v h.accepted complete).mpr (htakes hhanded) c hvisit

/-- Whatever the two programs do, and whatever the kernel makes of their calls, nothing is lost,
repeated or reordered between them. -/
theorem carried_run (w : World tcp) (sock : AcceptedSock) (hfd : sock.sock.impl.fd.isSome)
    (ops : List PipelineOp) : Always next Carried (connected w sock) ops :=
  (Always.of_inv (fun _ _ _ h hstep => joined_next h hstep) (joined_connected w hfd) ops).mono
    fun _ h => h.carried

/-- The client is given all responses to the requests exactly when the kernel takes the whole of
each. -/
theorem answered_run (w : World tcp) (sock : AcceptedSock) (hfd : sock.sock.impl.fd.isSome)
    (ops : List PipelineOp) :
    Always next Answered (connected w sock) ops ↔ Along next TakesAll (connected w sock) ops := by
  refine always_iff (fun (s : Pipeline) (h : Joined s ∧ s.server.Complete) => ?_)
    (fun s op h => answered_next_iff h.1 h.2 op)
    (fun s op s' h htakes hstep => ⟨joined_next h.1 hstep, complete_kept h.1 h.2 htakes hstep⟩)
    ⟨joined_connected w hfd, fun _ => rfl⟩ ops
  rw [answered_iff h.1]
  intro hkept
  rw [← whole_bytes, ← h.2 hkept]

/-! ### One exchange -/

/-- A client connected as descriptor 3. -/
def connectedTcp : World tcp :=
  (ClientMain.init loopbackPton tcp 80 none (.ok 3) (.ok ()) true (.ok ())).2

/-- The kernel hands out at most one chunk, and takes the whole of what is typed in. -/
def turnWith (event : EventType) (chunk line : Option (List UInt8)) : ClientTurn :=
  ⟨[⟨3, event⟩], (chunk.map fun data => (data, blankAddr AfInet.ipv4.toInt)).toList, .again, 0,
    line, .ok (line.getD []).length⟩

/-- "2" is typed in, and its response printed. -/
def exchange : List PipelineOp :=
  [.client (turnWith .writeReady none (some [50])), .server (Connection.visitWith [50] 4),
    .client (turnWith .readReady (some [50, 32, 10, 50]) none)]

theorem exchange_printed :
    (exec next (connected connectedTcp Connection.peerSock) exchange).map
        (fun s => (s.client.sent, s.client.printed)) =
      some ([50], [.response [50, 32, 10, 50]]) := by
  decide +kernel

theorem carried_run_exchange :
    (exec next (connected connectedTcp Connection.peerSock) exchange).isSome ∧
      Always next Carried (connected connectedTcp Connection.peerSock) exchange := by
  refine ⟨?_, carried_run connectedTcp Connection.peerSock rfl exchange⟩
  rw [← Option.isSome_map, exchange_printed]
  rfl

theorem answered_run_exchange :
    (exec next (connected connectedTcp Connection.peerSock) exchange).isSome ∧
      (Always next Answered (connected connectedTcp Connection.peerSock) exchange ↔
        Along next TakesAll (connected connectedTcp Connection.peerSock) exchange) := by
  refine ⟨?_, answered_run connectedTcp Connection.peerSock rfl exchange⟩
  rw [← Option.isSome_map, exchange_printed]
  rfl

end Pipeline

end TypedSockets.App
