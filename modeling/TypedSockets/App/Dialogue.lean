import TypedSockets.App.Pipeline

/-! A user who waits for the response to a line before typing the next one.  The bytes alone do not
tell the server where a line ends: this is what keeps each of them one request. -/

namespace TypedSockets.App

open TypedSockets.Socket TypedSockets.Epoll TypedSockets.Endpoint TypedSockets.Lib

/-- The two programs, and the lines that were typed in and are not empty, oldest first. -/
structure Dialogue where
  pipeline : Pipeline
  typed : List (List UInt8)

/-- What is not empty. -/
def filled (data : List UInt8) : List (List UInt8) := if data = [] then [] else [data]

/-- The line that is typed in, when it is not empty. -/
def PipelineOp.typed : PipelineOp → List (List UInt8)
  | client t => filled (t.line.getD [])
  | server _ => []

/-- The text of the response to a line. -/
def responseTo (line : List UInt8) : List UInt8 := (Service.createResponse line).getD []

/-- The texts of the responses printed that are not empty, oldest first. -/
def ClientMain.responses (printed : List Printed) : List (List UInt8) :=
  printed.reverse.flatMap fun
    | .response text => filled text
    | _ => []

namespace Dialogue

open ClientMain

def start (w : World tcp) (sock : AcceptedSock) : Dialogue := ⟨.connected w sock, []⟩

def next (d : Dialogue) (op : PipelineOp) : Option Dialogue :=
  (d.pipeline.next op).map fun pipeline => ⟨pipeline, d.typed ++ op.typed⟩

/-- The kernel hands out what is under way in one piece, and takes lines and responses as a whole.
A line is typed in only after the responses to the lines before it were printed. -/
def Orderly (d : Dialogue) : PipelineOp → Prop
  | .client t =>
    (t.chunks = [] ∨ ∃ peer, t.chunks = [(d.pipeline.down.flight, peer)]) ∧
      ∀ out, d.pipeline.client.proceed t = some out → ∀ line, t.line = some line → line ≠ [] →
        responses out.1.printed = d.typed.map responseTo ∧
          (out.1.world.send 0 line t.ans).1 = some line.length
  | .server v =>
    (bytes v.chunks = [] ∨ bytes v.chunks = d.pipeline.up.flight) ∧ d.pipeline.server.TakesAll v

/-- Each line is answered by one response, in order.  One response is missing at most, and none when
nothing is under way and the server keeps the connection. -/
def Answering (d : Dialogue) : Prop :=
  responses d.pipeline.client.printed <+: d.typed.map responseTo ∧
    d.typed.length ≤ (responses d.pipeline.client.printed).length + 1 ∧
    (d.pipeline.server.kept = true →
      d.pipeline.up.flight = [] → d.pipeline.server.request = [] → d.pipeline.down.flight = [] →
        responses d.pipeline.client.printed = d.typed.map responseTo)

/-! ### What is printed -/

@[simp] theorem filled_nil : filled [] = [] := rfl

theorem filled_ne {data : List UInt8} (h : data ≠ []) : filled data = [data] := if_neg h

theorem filled_length (data : List UInt8) : (filled data).length ≤ 1 := by
  unfold filled
  split <;> simp

theorem filled_eq_nil {data : List UInt8} : filled data = [] ↔ data = [] := by
  unfold filled
  split <;> simp [*]

theorem responses_response (text : List UInt8) (printed : List Printed) :
    responses (.response text :: printed) = responses printed ++ filled text := by
  simp [responses]

/-- A chunk is received as a whole or not at all. -/
theorem drained_single {w : World tcp} {rx : Rx} {d : DrainState} (hd : drained w rx = some d)
    (single : rx.chunks.length ≤ 1) :
    filled d.received ++ filled (bytes d.rx.chunks) = filled (bytes rx.chunks) ∧
      d.rx.chunks.length ≤ 1 := by
  obtain ⟨taken, hreceived, hchunks⟩ := doWhile_takes hd
  change taken ++ d.rx.chunks = rx.chunks at hchunks
  have hlength : taken.length + d.rx.chunks.length ≤ 1 := by
    rw [← List.length_append, hchunks]
    exact single
  have hreceived : d.received = bytes taken := hreceived
  refine ⟨?_, by omega⟩
  rw [hreceived, ← hchunks, bytes_append]
  rcases Nat.eq_zero_or_pos d.rx.chunks.length with hnone | hsome
  · rw [List.length_eq_zero_iff.mp hnone, show bytes [] = [] from rfl, filled_nil, List.append_nil,
      List.append_nil]
  · rw [List.length_eq_zero_iff.mp (show taken.length = 0 by omega), show bytes [] = [] from rfl,
      filled_nil, List.nil_append, List.nil_append]

/-- From `s` to `s'` what there was to receive was printed as one response, or not at all. -/
def PrintsOne (s s' : ClientMain tcp × Rx) : Prop :=
  s.2.chunks.length ≤ 1 →
    responses s'.1.printed ++ filled (bytes s'.2.chunks) =
        responses s.1.printed ++ filled (bytes s.2.chunks) ∧ s'.2.chunks.length ≤ 1

theorem called_printsOne {s s' : ClientMain tcp × Rx} {inv : Invocation}
    (h : called s inv = some s') : PrintsOne s s' := by
  intro single
  unfold called at h
  split at h
  · obtain ⟨d, hd, rfl⟩ := Option.map_eq_some_iff.mp h
    obtain ⟨hfilled, hlength⟩ := drained_single hd single
    refine ⟨?_, hlength⟩
    rw [responses_response, List.append_assoc, hfilled]
  · cases h
    exact ⟨by simp [responses], single⟩
  · cases h
    exact ⟨rfl, single⟩

theorem fold_printsOne {calls : List Invocation} {s s' : ClientMain tcp × Rx}
    (h : calls.foldlM called s = some s') : PrintsOne s s' := by
  induction calls generalizing s with
  | nil =>
    cases h
    exact fun single => ⟨rfl, single⟩
  | cons inv calls ih =>
    rw [List.foldlM_cons] at h
    obtain ⟨s1, hcalled, hrest⟩ := Option.bind_eq_some_iff.mp h
    intro single
    obtain ⟨hfirst, hlength⟩ := called_printsOne hcalled single
    obtain ⟨hthen, hlength⟩ := ih hrest hlength
    exact ⟨hthen.trans hfirst, hlength⟩

theorem proceed_printsOne {s : ClientMain tcp} {t : ClientTurn} {out : ClientMain tcp × Rx}
    (h : s.proceed t = some out) (single : t.chunks.length ≤ 1) :
    responses out.1.printed ++ filled (bytes out.2.chunks) =
      responses s.printed ++ filled (bytes t.chunks) := by
  unfold ClientMain.proceed at h
  split at h
  · obtain ⟨out', hfold, rfl⟩ := Option.map_eq_some_iff.mp h
    exact (fold_printsOne hfold single).1
  · cases h

/-- The line that is typed in is sent when the kernel takes the whole of it. -/
theorem input_line (s : ClientMain tcp) (line : Option (List UInt8)) (ans : Except Errno Nat)
    (whole : ∀ l, line = some l → l ≠ [] → (s.world.send 0 l ans).1 = some l.length) :
    responses (s.input line ans).printed = responses s.printed ∧
      (s.input line ans).sent = s.sent ++ line.getD [] := by
  unfold input
  cases line with
  | none => exact ⟨rfl, (List.append_nil _).symm⟩
  | some line =>
    have hwhole := whole line rfl
    rcases hsend : s.world.send 0 line ans with ⟨_ | sent, call, w⟩ <;>
      rw [hsend] at hwhole <;> simp only [hsend]
    · have hempty : line = [] := by
        by_contra hne
        cases hwhole hne
      split_ifs <;> simp [responses, hempty]
    · by_cases hempty : line = []
      · simp [hempty]
      · rw [Option.some.inj (hwhole hempty), List.take_length]
        exact ⟨trivial, rfl⟩

/-! ### What the server makes of it -/

/-- A visit takes all that `recv` hands out. -/
theorem drained_all {c : Connection} {v : Visit} {d : DrainState}
    (hfd : c.sock.sock.impl.fd.isSome) (hd : c.drained v = some d) :
    d.received = c.request ++ bytes v.chunks ∧ d.rx.chunks = [] := by
  obtain ⟨u, hreads, rfl, hagain⟩ := doWhile_last (fun u => u.endpoint.reads = true)
    (fun u h => (congrArg Drain.reads (Drain.of_round u)).trans (by
      simp [Drain.round, Drain.of, h])) hd hfd
  have hnone : (recvRound u).rx.chunks = [] := by
    obtain ⟨hdata, hrx, -, -⟩ := u.endpoint.recvImpl_spec u.rx
    rw [if_pos hreads] at hdata hrx
    have hgot : (u.endpoint.recvImpl u.rx).1 = none := by
      simpa [whileReceived, recvRound] using hagain
    rw [hgot] at hdata
    rw [show (recvRound u).rx = u.rx.recv.2 from hrx]
    unfold Rx.recv at hdata ⊢
    cases hchunks : u.rx.chunks with
    | nil => cases u.rx.ending <;> simp [hchunks]
    | cons chunk chunks => simp [hchunks] at hdata
  obtain ⟨got, hreceived, hbytes⟩ := doWhile_got hd
  rw [hnone, show bytes [] = [] from rfl, List.append_nil] at hbytes
  exact ⟨hreceived.trans (by rw [hbytes]), hnone⟩

/-- A visit to an element that it keeps adds to the request, or answers the whole of it. -/
theorem visit_outcome {c c' : Connection} {v : Visit} (hfd : c.sock.sock.impl.fd.isSome)
    (htakes : c.TakesAll v) (hvisit : c.visit v = some c') (hkept' : c'.kept = true) :
    c.kept = true ∧ c.consumed v = (bytes v.chunks).length ∧
      (c'.requests = c.requests ∧ c'.request = c.request ++ bytes v.chunks ∧ c'.given = c.given ∨
        ∃ resp, resp ≠ [] ∧ responseTo (c.request ++ bytes v.chunks) = resp ∧
          c.request ++ bytes v.chunks ≠ [] ∧ c'.request = [] ∧
          c'.requests = c.requests ++ [c.request ++ bytes v.chunks] ∧
          c'.given = c.given ++ Connection.marked c.requests.length resp) := by
  have hvisited := hvisit
  rw [Connection.visit] at hvisited
  split_ifs at hvisited with hkept
  obtain ⟨d, hd, hrest⟩ := Option.bind_eq_some_iff.mp hvisited
  obtain ⟨hreceived, hchunks⟩ := drained_all hfd hd
  refine ⟨hkept, ?_, ?_⟩
  · simp [Connection.consumed, hd, hchunks, bytes]
  rw [← hreceived]
  split_ifs at hrest with hfinished
  · obtain ⟨resp, hresp, hanswer⟩ := Option.bind_eq_some_iff.mp hrest
    unfold Connection.answer at hanswer
    simp only at hanswer
    split at hanswer
    · rename_i sent hsent
      split_ifs at hanswer with hfits
      cases hanswer
      have hans : v.ans = .ok sent := by
        obtain ⟨fd, hfd⟩ := Option.isSome_iff_exists.mp hfd
        cases hok : v.ans with
        | ok n =>
          simp only [ActiveSocket.send, SocketImpl.send, hfd, hok, Kernel.transferred, tcp,
            Bool.false_eq_true, if_false] at hsent
          rw [Option.some.inj hsent]
        | error e =>
          simp only [ActiveSocket.send, SocketImpl.send, hfd, hok, Kernel.transferred, tcp,
            Bool.false_eq_true, if_false] at hsent
          cases hsent
      obtain rfl := htakes resp sent
        ⟨hkept, ⟨d, hd, hfinished, hresp⟩, hans, hfits.1, hfits.2⟩
      refine Or.inr ⟨resp, List.ne_nil_of_length_pos hfits.1, ?_, ?_, rfl, rfl, ?_⟩
      · rw [responseTo, hresp, Option.getD_some]
      · intro hempty
        rw [Connection.finished, hempty] at hfinished
        simp at hfinished
      · rw [List.take_length]
    · cases hanswer
      cases hkept'
  · cases hrest
    exact Or.inl ⟨rfl, rfl, rfl⟩

/-! ### An exchange -/

/-- The lines typed in are the requests and what is under way to become one, and the requests have
their responses printed, or under way.  There is only one thing under way. -/
structure Exchange (typed requests : List (List UInt8)) (request up down : List UInt8)
    (printed : List (List UInt8)) : Prop where
  lines : typed = requests ++ filled request ++ filled up
  answered : printed ++ filled down = requests.map responseTo
  alone : (filled request).length + (filled up).length + (filled down).length ≤ 1

/-- What stays of it when the connection is closed: the requests have their responses printed, or
under way, and one response is missing at most. -/
structure Left (typed requests : List (List UInt8)) (down : List UInt8)
    (printed : List (List UInt8)) : Prop where
  lines : requests <+: typed
  answered : printed ++ filled down = requests.map responseTo
  waits : typed.length ≤ printed.length + 1

namespace Left

variable {typed requests : List (List UInt8)} {down : List UInt8} {printed : List (List UInt8)}

theorem in_order (h : Left typed requests down printed) : printed <+: typed.map responseTo := by
  have hprinted : printed <+: requests.map responseTo := h.answered ▸ List.prefix_append _ _
  exact hprinted.trans (h.lines.map responseTo)

theorem prints {down' : List UInt8} {printed' : List (List UInt8)}
    (h : Left typed requests down printed)
    (same : printed' ++ filled down' = printed ++ filled down)
    (less : (filled down').length ≤ (filled down).length) :
    Left typed requests down' printed' := by
  refine ⟨h.lines, same.trans h.answered, ?_⟩
  have hlength := congrArg List.length same
  rw [List.length_append, List.length_append] at hlength
  have hwaits := h.waits
  omega

theorem types (h : Left typed requests down printed) {line : List UInt8}
    (answered : line ≠ [] → printed = typed.map responseTo) :
    Left (typed ++ filled line) requests down printed := by
  refine ⟨h.lines.trans (List.prefix_append _ _), h.answered, ?_⟩
  by_cases hline : line = []
  · rw [hline, filled_nil, List.append_nil]
    exact h.waits
  · rw [filled_ne hline, List.length_append, List.length_singleton, answered hline,
      List.length_map]

end Left

namespace Exchange

variable {typed requests : List (List UInt8)} {request up down : List UInt8}
  {printed : List (List UInt8)}

theorem left (h : Exchange typed requests request up down printed) :
    Left typed requests down printed := by
  refine ⟨⟨filled request ++ filled up, by rw [h.lines, List.append_assoc]⟩, h.answered, ?_⟩
  have hlines := congrArg List.length h.lines
  have hanswered := congrArg List.length h.answered
  simp only [List.length_map, List.length_append] at hlines hanswered
  have halone := h.alone
  omega

/-- Nothing is missing when nothing is under way. -/
theorem settled (h : Exchange typed requests [] [] [] printed) :
    printed = typed.map responseTo := by
  have hlines := h.lines
  have hanswered := h.answered
  simp only [filled_nil, List.append_nil] at hlines hanswered
  rw [hanswered, hlines]

/-- What is under way to the client is printed, or waits. -/
theorem prints {down' : List UInt8} {printed' : List (List UInt8)}
    (h : Exchange typed requests request up down printed)
    (same : printed' ++ filled down' = printed ++ filled down)
    (less : (filled down').length ≤ (filled down).length) :
    Exchange typed requests request up down' printed' :=
  ⟨h.lines, same.trans h.answered, (Nat.add_le_add_left less _).trans h.alone⟩

/-- A line typed in after the last response was printed finds nothing under way. -/
theorem types (h : Exchange typed requests request up down printed) {line : List UInt8}
    (answered : line ≠ [] → printed = typed.map responseTo) :
    Exchange (typed ++ filled line) requests request (up ++ line) down printed := by
  by_cases hline : line = []
  · rw [hline, filled_nil, List.append_nil, List.append_nil]
    exact h
  · have hrequests := congrArg List.length h.lines
    have hresponses := congrArg List.length h.answered
    rw [answered hline] at hresponses
    simp only [List.length_append, List.length_map] at hrequests hresponses
    have hrequest : request = [] := filled_eq_nil.mp (List.length_eq_zero_iff.mp (by omega))
    have hup : up = [] := filled_eq_nil.mp (List.length_eq_zero_iff.mp (by omega))
    have hdown : down = [] := filled_eq_nil.mp (List.length_eq_zero_iff.mp (by omega))
    subst hrequest hup hdown
    refine ⟨by simpa using h.lines, h.answered, ?_⟩
    simpa using filled_length line

/-- What is under way to the server becomes part of a request. -/
theorem takes (h : Exchange typed requests request up down printed) :
    Exchange typed requests (request ++ up) [] down printed := by
  have halone := h.alone
  rcases eq_or_ne up [] with rfl | hup
  · simpa using h
  · rw [filled_ne hup, List.length_singleton] at halone
    have hrequest : request = [] := filled_eq_nil.mp (List.length_eq_zero_iff.mp (by omega))
    subst hrequest
    exact ⟨by simpa using h.lines, h.answered, by simpa [filled_ne hup] using halone⟩

/-- A request is answered. -/
theorem answers (h : Exchange typed requests request up down printed) (finished : request ≠ [])
    (nonempty : responseTo request ≠ []) :
    Exchange typed (requests ++ [request]) [] up (down ++ responseTo request) printed := by
  have halone := h.alone
  rw [filled_ne finished, List.length_singleton] at halone
  have hup : up = [] := filled_eq_nil.mp (List.length_eq_zero_iff.mp (by omega))
  have hdown : down = [] := filled_eq_nil.mp (List.length_eq_zero_iff.mp (by omega))
  subst hup hdown
  refine ⟨by simpa [filled_ne finished] using h.lines, ?_, ?_⟩
  · have hresponses := h.answered
    rw [filled_nil, List.append_nil] at hresponses
    rw [List.nil_append, filled_ne nonempty, hresponses, List.map_append, List.map_singleton]
  · simpa using filled_length (responseTo request)

end Exchange

/-! ### One step -/

/-- The two programs agree with the streams between them, and are at an exchange. -/
structure InStep (d : Dialogue) : Prop where
  joined : Pipeline.Joined d.pipeline
  complete : d.pipeline.server.Complete
  exchange : d.pipeline.server.kept = true →
    Exchange d.typed d.pipeline.server.requests d.pipeline.server.request d.pipeline.up.flight
      d.pipeline.down.flight (responses d.pipeline.client.printed)
  left : Left d.typed d.pipeline.server.requests d.pipeline.down.flight
    (responses d.pipeline.client.printed)

theorem InStep.answering {d : Dialogue} (h : InStep d) : Answering d := by
  refine ⟨h.left.in_order, h.left.waits, fun hkept hup hrequest hdown => ?_⟩
  have hexchange := h.exchange hkept
  rw [hup, hrequest, hdown] at hexchange
  exact hexchange.settled

theorem filled_drop (data : List UInt8) (n : Nat) :
    (filled (data.drop n)).length ≤ (filled data).length := by
  rcases eq_or_ne data [] with rfl | hdata
  · simp
  · rw [filled_ne hdata]
    exact filled_length _

/-- What `recv` hands out in one piece is printed as one response, or stays under way. -/
theorem proceed_flight {s : ClientMain tcp} {t : ClientTurn} {out : ClientMain tcp × Rx}
    {flight : List UInt8} (h : s.proceed t = some out)
    (piece : t.chunks = [] ∨ ∃ peer, t.chunks = [(flight, peer)]) :
    responses out.1.printed ++
        filled (flight.drop ((bytes t.chunks).length - (bytes out.2.chunks).length)) =
      responses s.printed ++ filled flight := by
  obtain ⟨⟨got, -, hbytes⟩, -⟩ := proceed_prints h
  rcases piece with hnone | ⟨peer, hone⟩
  · have hprints := proceed_printsOne h (by rw [hnone]; simp)
    rw [hnone] at hbytes hprints ⊢
    rw [show bytes [] = [] from rfl] at hbytes hprints ⊢
    rw [(List.append_eq_nil_iff.mp hbytes).2] at hprints ⊢
    rw [List.append_cancel_right hprints]
    simp
  · have hprints := proceed_printsOne h (by rw [hone]; simp)
    rw [hone] at hbytes hprints ⊢
    rw [show bytes [(flight, peer)] = flight from List.append_nil flight] at hbytes hprints ⊢
    rw [← hprints, ← hbytes, List.length_append, Nat.add_sub_cancel, List.drop_left]

theorem inStep_client {d d' : Dialogue} (h : InStep d) {t : ClientTurn}
    (orderly : d.Orderly (.client t)) (hstep : d.next (.client t) = some d') : InStep d' := by
  obtain ⟨pipeline, hnext, rfl⟩ := Option.map_eq_some_iff.mp hstep
  have hjoined := Pipeline.joined_client h.joined hnext
  simp only [Pipeline.next] at hnext
  split_ifs at hnext
  obtain ⟨out, hproceed, rfl⟩ := Option.map_eq_some_iff.mp hnext
  obtain ⟨piece, htyped⟩ := orderly
  obtain ⟨hprinted, hsent⟩ := input_line out.1 t.line t.ans fun l hl hne =>
    (htyped out hproceed l hl hne).2
  have hflight := proceed_flight hproceed piece
  have hanswered : t.line.getD [] ≠ [] →
      responses out.1.printed = d.typed.map responseTo := fun hne => by
    cases hline : t.line with
    | none => exact absurd (by rw [hline]; rfl) hne
    | some line =>
      rw [hline, Option.getD_some] at hne
      exact (htyped out hproceed line hline hne).1
  rw [(proceed_prints hproceed).2] at hsent
  refine ⟨hjoined, h.complete, fun hkept => ?_, ?_⟩
  · simp only [hprinted, hsent, List.drop_left, Pipe.write_flight, Pipe.take_flight]
    exact ((h.exchange hkept).prints hflight (filled_drop _ _)).types hanswered
  · simp only [hprinted, Pipe.take_flight]
    exact (h.left.prints hflight (filled_drop _ _)).types hanswered

/-- A visit to an element that it keeps. -/
theorem exchange_visited {d : Dialogue} (h : InStep d) {v : Visit} {c : Connection}
    (orderly : d.Orderly (.server v)) (hvisit : d.pipeline.server.visit v = some c)
    (hkept : c.kept = true) :
    Exchange d.typed c.requests c.request (d.pipeline.visited v c).up.flight
      (d.pipeline.visited v c).down.flight (responses d.pipeline.client.printed) := by
  obtain ⟨hwas, hconsumed, houtcome⟩ :=
    visit_outcome h.joined.accepted orderly.2 hvisit hkept
  have hexchange := h.exchange hwas
  have htaken : Exchange d.typed d.pipeline.server.requests
      (d.pipeline.server.request ++ bytes v.chunks)
      (d.pipeline.up.flight.drop (bytes v.chunks).length) d.pipeline.down.flight
      (responses d.pipeline.client.printed) := by
    rcases orderly.1 with hnone | hall
    · simpa [hnone] using hexchange
    · rw [hall, List.drop_length]
      exact hexchange.takes
  simp only [Pipeline.visited, hconsumed, Pipe.take_flight, Pipe.write_flight]
  rcases houtcome with ⟨hrequests, hrequest, hgiven⟩ |
    ⟨resp, hresp, rfl, hne, hrequest, hrequests, hgiven⟩
  · rw [hrequests, hrequest, hgiven, List.drop_length, List.map_nil, List.append_nil]
    exact htaken
  · rw [hrequests, hrequest, hgiven, List.drop_left, Connection.marked, List.map_map]
    simpa [Function.comp_def] using htaken.answers hne hresp

/-- A visit that erases its element has answered nothing. -/
theorem visit_erases {c c' : Connection} {v : Visit} (hfd : c.sock.sock.impl.fd.isSome)
    (hvisit : c.visit v = some c') (erased : c'.kept = false) :
    c'.requests = c.requests ∧ c'.given = c.given := by
  rcases Connection.visit_cases hfd hvisit with ⟨-, hrequests, hgiven, -⟩ |
    ⟨request, resp, sent, answers, -, -, hkept, -⟩
  · exact ⟨hrequests, hgiven⟩
  · rw [hkept, answers.kept] at erased
    cases erased

theorem inStep_server {d d' : Dialogue} (h : InStep d) {v : Visit}
    (orderly : d.Orderly (.server v)) (hstep : d.next (.server v) = some d') : InStep d' := by
  obtain ⟨pipeline, hnext, rfl⟩ := Option.map_eq_some_iff.mp hstep
  have hjoined := Pipeline.joined_server h.joined hnext
  have htakes : d.pipeline.TakesAll (.server v) := fun _ => orderly.2
  have hcomplete := Pipeline.complete_kept h.joined h.complete htakes hnext
  simp only [Pipeline.next] at hnext
  split_ifs at hnext
  obtain ⟨c, hvisit, rfl⟩ := Option.map_eq_some_iff.mp hnext
  have hexchange := exchange_visited h orderly hvisit
  simp only [PipelineOp.typed, List.append_nil]
  refine ⟨hjoined, hcomplete, hexchange, ?_⟩
  cases hkept : c.kept with
  | true => exact (hexchange hkept).left
  | false =>
    obtain ⟨hrequests, hgiven⟩ := visit_erases h.joined.accepted hvisit hkept
    simp only [Pipeline.visited, hrequests, hgiven, List.drop_length, List.map_nil,
      Pipe.write_flight, List.append_nil]
    exact h.left

theorem inStep_next {d d' : Dialogue} (h : InStep d) {op : PipelineOp} (orderly : d.Orderly op)
    (hstep : d.next op = some d') : InStep d' := by
  cases op with
  | client t => exact inStep_client h orderly hstep
  | server v => exact inStep_server h orderly hstep

theorem inStep_start (w : World tcp) {sock : AcceptedSock} (hfd : sock.sock.impl.fd.isSome) :
    InStep (start w sock) :=
  ⟨Pipeline.joined_connected w hfd, fun _ => rfl, fun _ => ⟨rfl, rfl, Nat.zero_le 1⟩,
    List.nil_prefix, rfl, Nat.zero_le 1⟩

/-- Each line that is typed in after the responses before it is one request, and its response is
printed as a whole, in order, before the next line. -/
theorem answering_run (w : World tcp) (sock : AcceptedSock) (hfd : sock.sock.impl.fd.isSome)
    (ops : List PipelineOp) (orderly : Along next Orderly (start w sock) ops) :
    Always next Answering (start w sock) ops :=
  (Always.of_along (fun _ _ _ h horderly hstep => inStep_next h horderly hstep)
    (inStep_start w hfd) orderly).mono fun _ h => h.answering

/-! ### One exchange -/

theorem exchange_orderly :
    Along next Orderly (start Pipeline.connectedTcp Connection.peerSock) Pipeline.exchange := by
  refine ⟨⟨Or.inl rfl, fun out hout line hline _ => ?_⟩, fun d1 h1 => ⟨⟨Or.inr ?_, ?_⟩, fun d2 h2 =>
    ⟨⟨Or.inr ⟨blankAddr AfInet.ipv4.toInt, ?_⟩, fun _ _ _ hline => by cases hline⟩,
      fun _ _ => trivial⟩⟩⟩
  · cases hline
    have hall : ((initial Pipeline.connectedTcp).proceed
        (Pipeline.turnWith .writeReady none (some [50]))).all (fun out =>
          responses out.1.printed = [] ∧ (out.1.world.send 0 [50] (.ok 1)).1 = some 1) = true := by
      decide +kernel
    change (initial Pipeline.connectedTcp).proceed _ = some out at hout
    rw [hout] at hall
    exact of_decide_eq_true hall
  · have hflight : ((start Pipeline.connectedTcp Connection.peerSock).next
        (.client (Pipeline.turnWith .writeReady none (some [50])))).all (fun d =>
          [50] = d.pipeline.up.flight) = true := by
      decide +kernel
    rw [h1] at hflight
    exact of_decide_eq_true hflight
  · have hlength : ((start Pipeline.connectedTcp Connection.peerSock).next
        (.client (Pipeline.turnWith .writeReady none (some [50])))).all (fun d =>
          (d.pipeline.server.drained (Connection.visitWith [50] 4)).all fun r =>
            (Service.createResponse r.received).all fun resp => resp.length = 4) = true := by
      decide +kernel
    rw [h1] at hlength
    rintro resp sent ⟨-, ⟨r, hr, -, hresp⟩, hans, -, -⟩
    rw [Option.all_some, hr, Option.all_some, hresp] at hlength
    exact (Except.ok.inj hans).symm.trans (of_decide_eq_true hlength).symm
  · have hflight : ((start Pipeline.connectedTcp Connection.peerSock).next
        (.client (Pipeline.turnWith .writeReady none (some [50])))).all (fun d =>
          (d.next (.server (Connection.visitWith [50] 4))).all fun d =>
            [50, 32, 10, 50] = d.pipeline.down.flight) = true := by
      decide +kernel
    rw [h1, Option.all_some, h2] at hflight
    rw [← of_decide_eq_true hflight]
    rfl

theorem answering_run_exchange :
    (exec Pipeline.next (.connected Pipeline.connectedTcp Connection.peerSock)
        Pipeline.exchange).isSome ∧
      Always next Answering (start Pipeline.connectedTcp Connection.peerSock) Pipeline.exchange := by
  refine ⟨?_, answering_run Pipeline.connectedTcp Connection.peerSock rfl Pipeline.exchange
    exchange_orderly⟩
  decide +kernel

end Dialogue

end TypedSockets.App
