import TypedSockets.App.Service
import TypedSockets.Endpoint.Drain
import TypedSockets.Lib.Run

/-! The server program over TCP, as one of its connections sees it: the main loop drains the socket,
answers a finished request with one `send`, and forgets the response. -/

namespace TypedSockets.App

open TypedSockets.Socket TypedSockets.Endpoint TypedSockets.Lib

/-- A byte with the number of the response that it belongs to. -/
abbrev Mark := Nat × UInt8

/-- An element of `active_sockets` and what has become of it.  `requests` holds the requests that
were answered, oldest first, and `given` the bytes of the responses that the kernel took. -/
structure Connection where
  sock : AcceptedSock
  request : List UInt8
  requests : List (List UInt8)
  given : List Mark
  kept : Bool

/-- What the main loop meets at an element: the kernel as the other calls left it, the chunks that
`recv` hands out and what follows them, and the answer to `send`. -/
structure Visit where
  kernel : Kernel
  chunks : List (List UInt8 × FilledAddr)
  ending : Ending
  ans : Except Errno Nat

namespace Connection

/-- The element as `on_conn` makes it. -/
def accepted (sock : AcceptedSock) : Connection := ⟨sock, [], [], [], true⟩

theorem tcp_connectionBased : tcp.isConnectionless = false := rfl

/-- The loop `do { rec = recv } while (rec)`.  It has no outcome when it never ends. -/
def drained (c : Connection) (v : Visit) : Option DrainState :=
  doWhile recvRound whileReceived (v.chunks.length + 1)
    ⟨.acceptedSock tcp tcp_connectionBased c.sock, ⟨v.kernel.errno, v.chunks, v.ending⟩,
      c.request, false⟩

/-- `finished_recv() && !it->second.empty()`. -/
def finished (d : DrainState) : Bool :=
  d.endpoint.finishedRecvImpl d.rx.errno && !d.received.isEmpty

/-- The bytes of the response with the number. -/
def marked (number : Nat) (resp : List UInt8) : List Mark := resp.map fun byte => (number, byte)

/-- `send` of the response.  The element is erased when it fails, and forgets the request when it
does not.  The kernel takes one byte at least, and no more than there are. -/
def answer (c : Connection) (v : Visit) (d : DrainState) (resp : List UInt8) :
    Option Connection :=
  let k := { v.kernel with errno := d.rx.errno }
  match (c.sock.sock.send tcp c.sock.remote resp v.ans k).1 with
  | some sent =>
    if 0 < sent ∧ sent ≤ resp.length then
      some { c with
        request := []
        requests := c.requests ++ [d.received]
        given := c.given ++ marked c.requests.length (resp.take sent) }
    else none
  | none => some { c with kept := false }

/-- The body of the loop over `active_sockets`, for as long as the element is there.  It has no
outcome when `create_response` throws. -/
def visit (c : Connection) (v : Visit) : Option Connection :=
  if c.kept then
    (c.drained v).bind fun d =>
      if finished d then (Service.createResponse d.received).bind fun resp => c.answer v d resp
      else some { c with request := d.received }
  else none

/-- All bytes of all responses, in order. -/
def whole (requests : List (List UInt8)) : List Mark :=
  requests.zipIdx.flatMap fun r => marked r.2 ((Service.createResponse r.1).getD [])

/-- A connection that is kept was given the responses in order and without a gap. -/
def InOrder (c : Connection) : Prop := c.kept = true → c.given <+: whole c.requests

/-- A connection that is kept was given all of every response. -/
def Complete (c : Connection) : Prop := c.kept = true → c.given = whole c.requests

/-- The visit answers with the response, and the kernel takes that many bytes of it. -/
structure Answers (c : Connection) (v : Visit) (resp : List UInt8) (sent : Nat) : Prop where
  kept : c.kept = true
  finished : ∃ d, c.drained v = some d ∧ finished d = true ∧
    Service.createResponse d.received = some resp
  ans : v.ans = .ok sent
  positive : 0 < sent
  fits : sent ≤ resp.length

/-- An answer finds the responses before it taken as a whole. -/
def AfterWhole (c : Connection) (v : Visit) : Prop :=
  ∀ resp sent, c.Answers v resp sent → c.given = whole c.requests

/-- The kernel takes the whole of a response. -/
def TakesAll (c : Connection) (v : Visit) : Prop :=
  ∀ resp sent, c.Answers v resp sent → sent = resp.length

/-! ### One visit -/

theorem whole_append (requests : List (List UInt8)) (request : List UInt8) {resp : List UInt8}
    (h : Service.createResponse request = some resp) :
    whole (requests ++ [request]) = whole requests ++ marked requests.length resp := by
  simp [whole, List.zipIdx_append, List.flatMap_append, h]

theorem mark_lt {requests : List (List UInt8)} {m : Mark} (h : m ∈ whole requests) :
    m.1 < requests.length := by
  obtain ⟨r, hr, hm⟩ := List.mem_flatMap.mp h
  obtain ⟨byte, -, rfl⟩ := List.mem_map.mp hm
  have := List.mem_zipIdx hr
  simp only at this ⊢
  omega

/-- A visit leaves the answers alone, or adds one to an element that is kept. -/
theorem visit_cases {c c' : Connection} {v : Visit} (hfd : c.sock.sock.impl.fd.isSome)
    (h : c.visit v = some c') :
    (c'.sock = c.sock ∧ c'.requests = c.requests ∧ c'.given = c.given ∧
        (c'.kept = true → c.kept = true) ∧ ∀ resp sent, ¬c.Answers v resp sent) ∨
      ∃ request resp sent, c.Answers v resp sent ∧
        Service.createResponse request = some resp ∧ c'.sock = c.sock ∧ c'.kept = c.kept ∧
        c'.requests = c.requests ++ [request] ∧
        c'.given = c.given ++ marked c.requests.length (resp.take sent) := by
  rw [visit] at h
  split_ifs at h with hkept
  obtain ⟨d, hd, hrest⟩ := Option.bind_eq_some_iff.mp h
  obtain ⟨fd, hfd⟩ := Option.isSome_iff_exists.mp hfd
  by_cases hfinished : finished d = true
  · rw [if_pos hfinished] at hrest
    obtain ⟨resp, hresp, hanswer⟩ := Option.bind_eq_some_iff.mp hrest
    cases hans : v.ans with
    | ok sent =>
      simp only [answer, ActiveSocket.send, SocketImpl.send, hfd, hans, Kernel.transferred, tcp,
        Bool.false_eq_true, if_false] at hanswer
      split_ifs at hanswer with hsent
      cases hanswer
      exact Or.inr ⟨d.received, resp, sent,
        ⟨hkept, ⟨d, hd, hfinished, hresp⟩, hans, hsent.1, hsent.2⟩, hresp, rfl, rfl, rfl, rfl⟩
    | error e =>
      simp only [answer, ActiveSocket.send, SocketImpl.send, hfd, hans, Kernel.transferred, tcp,
        Bool.false_eq_true, if_false] at hanswer
      cases hanswer
      refine Or.inl ⟨rfl, rfl, rfl, fun _ => hkept, fun resp sent answers => ?_⟩
      have hok := answers.ans
      rw [hans] at hok
      cases hok
  · rw [if_neg hfinished] at hrest
    cases hrest
    refine Or.inl ⟨rfl, rfl, rfl, fun _ => hkept, fun resp sent answers => ?_⟩
    obtain ⟨d', hd', hfinished', -⟩ := answers.finished
    cases hd.symm.trans hd'
    exact hfinished hfinished'

/-- A visit that answers has an outcome. -/
theorem visit_answers {c : Connection} {v : Visit} {resp : List UInt8} {sent : Nat}
    (hfd : c.sock.sock.impl.fd.isSome) (answers : c.Answers v resp sent) :
    ∃ c', c.visit v = some c' := by
  obtain ⟨hkept, ⟨d, hd, hfinished, hresp⟩, hans, hpos, hle⟩ := answers
  obtain ⟨fd, hfd⟩ := Option.isSome_iff_exists.mp hfd
  simp [visit, hkept, hd, hfinished, hresp, answer, ActiveSocket.send, SocketImpl.send, hfd, hans,
    Kernel.transferred, tcp, hpos, hle]

theorem Answers.unique {c : Connection} {v : Visit} {resp resp' : List UInt8} {sent sent' : Nat}
    (h : c.Answers v resp sent) (h' : c.Answers v resp' sent') : resp' = resp ∧ sent' = sent := by
  obtain ⟨d, hd, -, hresp⟩ := h.finished
  obtain ⟨d', hd', -, hresp'⟩ := h'.finished
  cases hd.symm.trans hd'
  exact ⟨Option.some.inj (hresp'.symm.trans hresp), Except.ok.inj (h'.ans.symm.trans h.ans)⟩

theorem visit_sock {c c' : Connection} {v : Visit} (hfd : c.sock.sock.impl.fd.isSome)
    (h : c.visit v = some c') : c'.sock = c.sock := by
  rcases visit_cases hfd h with ⟨hsock, -⟩ | ⟨_, _, _, -, -, hsock, -⟩ <;> exact hsock

/-- Bytes of a new response come in order exactly when the responses before it are complete. -/
theorem marked_prefix_iff {requests : List (List UInt8)} {given : List Mark} {resp : List UInt8}
    {sent : Nat} (h : given <+: whole requests) (hpos : 0 < sent) (hle : sent ≤ resp.length) :
    given ++ marked requests.length (resp.take sent) <+:
        whole requests ++ marked requests.length resp ↔ given = whole requests := by
  constructor
  · intro hprefix
    obtain ⟨rest, hrest⟩ := h
    cases rest with
    | nil => rwa [List.append_nil] at hrest
    | cons m rest =>
      have hlt : m.1 < requests.length := mark_lt (by rw [← hrest]; simp)
      obtain ⟨byte, bytes, hbytes⟩ := List.exists_cons_of_ne_nil
        (List.ne_nil_of_length_pos (show 0 < (resp.take sent).length by
          rw [List.length_take]; omega))
      rw [← hrest, hbytes, List.append_assoc, List.prefix_append_right_inj] at hprefix
      have hhead := (List.cons_prefix_cons.mp hprefix).1
      rw [← hhead] at hlt
      exact absurd hlt (Nat.lt_irrefl _)
  · rintro rfl
    exact (List.prefix_append_right_inj _).mpr ((List.take_prefix sent resp).map _)

theorem inOrder_next_iff {c : Connection} (v : Visit) (hfd : c.sock.sock.impl.fd.isSome)
    (h : c.InOrder) : (∀ c', c.visit v = some c' → c'.InOrder) ↔ c.AfterWhole v := by
  constructor
  · intro hnext resp sent answers
    obtain ⟨c', hvisit⟩ := visit_answers hfd answers
    rcases visit_cases hfd hvisit with ⟨-, -, -, -, hno⟩ |
      ⟨request, resp', sent', answers', hresp, -, hkept, hrequests, hgiven⟩
    · exact absurd answers (hno resp sent)
    · have horder := hnext c' hvisit (hkept.trans answers.kept)
      rw [hrequests, hgiven, whole_append _ _ hresp] at horder
      exact (marked_prefix_iff (h answers.kept) answers'.positive answers'.fits).mp horder
  · intro hwhole c' hvisit hkept'
    rcases visit_cases hfd hvisit with ⟨-, hrequests, hgiven, hkept, -⟩ |
      ⟨request, resp, sent, answers, hresp, -, -, hrequests, hgiven⟩
    · rw [hrequests, hgiven]
      exact h (hkept hkept')
    · rw [hrequests, hgiven, whole_append _ _ hresp]
      exact (marked_prefix_iff (h answers.kept) answers.positive answers.fits).mpr
        (hwhole resp sent answers)

theorem complete_next_iff {c : Connection} (v : Visit) (hfd : c.sock.sock.impl.fd.isSome)
    (h : c.Complete) : (∀ c', c.visit v = some c' → c'.Complete) ↔ c.TakesAll v := by
  constructor
  · intro hnext resp sent answers
    obtain ⟨c', hvisit⟩ := visit_answers hfd answers
    rcases visit_cases hfd hvisit with ⟨-, -, -, -, hno⟩ |
      ⟨request, resp', sent', answers', hresp, -, hkept, hrequests, hgiven⟩
    · exact absurd answers (hno resp sent)
    · obtain ⟨rfl, rfl⟩ := answers.unique answers'
      have hcomplete := hnext c' hvisit (hkept.trans answers.kept)
      rw [hrequests, hgiven, whole_append _ _ hresp, h answers.kept] at hcomplete
      have hlength := congrArg List.length (List.append_cancel_left hcomplete)
      have hfits := answers.fits
      simp only [marked, List.length_map, List.length_take] at hlength
      omega
  · intro htakes c' hvisit hkept'
    rcases visit_cases hfd hvisit with ⟨-, hrequests, hgiven, hkept, -⟩ |
      ⟨request, resp, sent, answers, hresp, -, -, hrequests, hgiven⟩
    · rw [hrequests, hgiven]
      exact h (hkept hkept')
    · rw [hrequests, hgiven, whole_append _ _ hresp, h answers.kept, htakes resp sent answers,
        List.take_length]

/-- No more is given than there is. -/
def Bounded (c : Connection) : Prop := c.given.length ≤ (whole c.requests).length

theorem bounded_next {c c' : Connection} {v : Visit} (hfd : c.sock.sock.impl.fd.isSome)
    (h : c.Bounded) (hvisit : c.visit v = some c') : c'.Bounded := by
  rw [Bounded] at h ⊢
  rcases visit_cases hfd hvisit with ⟨-, hrequests, hgiven, -, -⟩ |
    ⟨request, resp, sent, answers, hresp, -, -, hrequests, hgiven⟩
  · rwa [hrequests, hgiven]
  · have hfits := answers.fits
    rw [hrequests, hgiven, whole_append _ _ hresp]
    simp only [marked, List.length_append, List.length_map, List.length_take]
    omega

/-- What is missing stays missing. -/
theorem complete_of_next {c c' : Connection} {v : Visit} (hfd : c.sock.sock.impl.fd.isSome)
    (h : c.Bounded) (hvisit : c.visit v = some c') (hcomplete : c'.given = whole c'.requests) :
    c.given = whole c.requests := by
  rcases visit_cases hfd hvisit with ⟨-, hrequests, hgiven, -, -⟩ |
    ⟨request, resp, sent, answers, hresp, -, -, hrequests, hgiven⟩
  · rwa [hrequests, hgiven] at hcomplete
  · have hfits := answers.fits
    rw [hrequests, hgiven, whole_append _ _ hresp] at hcomplete
    have hlength := congrArg List.length hcomplete
    simp only [marked, List.length_append, List.length_map, List.length_take] at hlength
    rw [Bounded] at h
    exact (List.append_inj hcomplete (by omega)).1

/-! ### Runs -/

/-- What is complete at the end of a run was so from the start, and every response was taken as a
whole. -/
theorem takesAll_of_complete {c c' : Connection} {visits : List Visit}
    (hfd : c.sock.sock.impl.fd.isSome) (h : c.Bounded) (hrun : exec visit c visits = some c')
    (hcomplete : c'.given = whole c'.requests) :
    c.given = whole c.requests ∧ Along visit TakesAll c visits := by
  induction visits generalizing c with
  | nil =>
    cases hrun
    exact ⟨hcomplete, trivial⟩
  | cons v visits ih =>
    obtain ⟨next, hvisit, hrest⟩ := Option.bind_eq_some_iff.mp hrun
    obtain ⟨hnext, htakes⟩ := ih (visit_sock hfd hvisit ▸ hfd) (bounded_next hfd h hvisit) hrest
    have hwhole := complete_of_next hfd h hvisit hnext
    have honly : ∀ c', c.visit v = some c' → c' = next := fun c' h' =>
      Option.some.inj (h'.symm.trans hvisit)
    refine ⟨hwhole, (complete_next_iff v hfd fun _ => hwhole).mp fun c' h' _ => ?_, fun c' h' => ?_⟩
    · rwa [honly c' h']
    · rwa [honly c' h']

/-- Whenever a visit answers, the kernel took the whole of every response before. -/
def WholeBefore (c : Connection) (visits : List Visit) : Prop :=
  ∀ pre v c', pre ++ [v] <+: visits → exec visit c pre = some c' →
    (∃ resp sent, c'.Answers v resp sent) → Along visit TakesAll c pre

theorem complete_run_iff {sock : AcceptedSock} (hfd : sock.sock.impl.fd.isSome)
    (visits : List Visit) :
    Always visit Complete (accepted sock) visits ↔
      Along visit TakesAll (accepted sock) visits := by
  refine always_iff (fun (c : Connection) (h : c.sock.sock.impl.fd.isSome ∧ c.Complete) => h.2)
    (fun c v h => complete_next_iff v h.1 h.2) (fun c v c' h htakes hvisit => ?_)
    ⟨hfd, fun _ => rfl⟩ visits
  exact ⟨visit_sock h.1 hvisit ▸ h.1, (complete_next_iff v h.1 h.2).mpr htakes c' hvisit⟩

theorem inOrder_run_iff {sock : AcceptedSock} (hfd : sock.sock.impl.fd.isSome)
    (visits : List Visit) :
    Always visit InOrder (accepted sock) visits ↔
      Along visit AfterWhole (accepted sock) visits := by
  refine always_iff (fun (c : Connection) (h : c.sock.sock.impl.fd.isSome ∧ c.InOrder) => h.2)
    (fun c v h => inOrder_next_iff v h.1 h.2) (fun c v c' h hwhole hvisit => ?_)
    ⟨hfd, fun _ => List.prefix_refl []⟩ visits
  exact ⟨visit_sock h.1 hvisit ▸ h.1, (inOrder_next_iff v h.1 h.2).mpr hwhole c' hvisit⟩

/-- The responses come in order and without a gap exactly when the kernel takes the whole of each
that another one follows, and all of them are given in full exactly when it takes the whole of
each. -/
theorem delivered_run {sock : AcceptedSock} (hfd : sock.sock.impl.fd.isSome)
    (visits : List Visit) :
    (Always visit InOrder (accepted sock) visits ↔ WholeBefore (accepted sock) visits) ∧
      (Always visit Complete (accepted sock) visits ↔
        Along visit TakesAll (accepted sock) visits) := by
  refine ⟨?_, complete_run_iff hfd visits⟩
  rw [inOrder_run_iff hfd, along_iff_prefix]
  have hbounded : (accepted sock).Bounded := Nat.le_refl 0
  refine forall₅_congr fun pre v c _ hrun => ?_
  constructor
  · rintro hwhole ⟨resp, sent, answers⟩
    exact (takesAll_of_complete hfd hbounded hrun (hwhole resp sent answers)).2
  · intro htakes resp sent answers
    exact ((complete_run_iff hfd pre).mpr (htakes ⟨resp, sent, answers⟩)).last hrun answers.kept

/-- A connection accepted as descriptor 5. -/
def peerSock : AcceptedSock :=
  ⟨⟨⟨some 5, AfInet.ipv4.toInt⟩, none, none, true⟩, ⟨⟨fun _ => 0, AfInet.ipv4.toInt⟩, 7⟩⟩

/-- The chunk comes in, and the kernel takes that many bytes of the answer. -/
def visitWith (chunk : List UInt8) (sent : Nat) : Visit :=
  ⟨.initial, [(chunk, blankAddr AfInet.ipv4.toInt)], .again, .ok sent⟩

theorem delivered_run_peer :
    (Always visit InOrder (accepted peerSock) [visitWith [49] 4, visitWith [50] 4] ↔
        WholeBefore (accepted peerSock) [visitWith [49] 4, visitWith [50] 4]) ∧
      (Always visit Complete (accepted peerSock) [visitWith [49] 4, visitWith [50] 4] ↔
        Along visit TakesAll (accepted peerSock) [visitWith [49] 4, visitWith [50] 4]) :=
  delivered_run rfl _

/-- The kernel takes one byte of the first answer, and the second one follows it. -/
theorem short_send_loses_rest :
    (exec visit (accepted peerSock) [visitWith [49] 1, visitWith [50] 4]).map Connection.given =
        some [(0, 49), (1, 50), (1, 32), (1, 10), (1, 50)] ∧
      ¬∀ (sock : AcceptedSock), sock.sock.impl.fd.isSome → ∀ visits,
        Always visit InOrder (accepted sock) visits := by
  have hrun : (exec visit (accepted peerSock) [visitWith [49] 1, visitWith [50] 4]).map
      (fun c => (c.kept, c.requests, c.given)) =
        some (true, [[49], [50]], [(0, 49), (1, 50), (1, 32), (1, 10), (1, 50)]) := by decide
  refine ⟨by decide, fun h => ?_⟩
  obtain ⟨c, hc, hshape⟩ := Option.map_eq_some_iff.mp hrun
  obtain ⟨hkept, hrest⟩ := Prod.mk.inj hshape
  obtain ⟨hrequests, hgiven⟩ := Prod.mk.inj hrest
  have horder := (h peerSock rfl _).last hc hkept
  rw [hrequests, hgiven] at horder
  exact absurd horder (by decide)

end Connection

end TypedSockets.App
