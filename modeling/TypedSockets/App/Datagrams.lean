import TypedSockets.App.Answers
import TypedSockets.App.ClientLoop

/-! Any number of clients and the server program over UDP.  The network keeps every datagram that
was sent, and delivers it to the socket that it is addressed to as often as it likes and when it
likes, or never. -/

namespace TypedSockets.App

open TypedSockets.Socket TypedSockets.Epoll TypedSockets.Endpoint TypedSockets.Lib

/-- The family, the port and the bytes of an address, as data that can be compared. -/
def addrKey : SockAddr → Bool × UInt16 × List UInt8
  | .in4 port addr => (false, port, List.ofFn addr)
  | .in6 port addr => (true, port, List.ofFn addr)

theorem addrKey_inj (a b : SockAddr) : addrKey a = addrKey b ↔ a = b := by
  cases a <;> cases b <;>
    simp only [addrKey, Prod.mk.injEq, List.ofFn_inj, SockAddr.in4.injEq, SockAddr.in6.injEq,
      true_and, Bool.false_eq_true, Bool.true_eq_false, false_and, reduceCtorEq]

/-- Equality that computes on addresses that were made in different ways. -/
def sockAddrEq (a b : SockAddr) : Decidable (a = b) :=
  decidable_of_iff (addrKey a = addrKey b) (addrKey_inj a b)

/-- A datagram on the network, with the addresses of the two sockets. -/
structure Letter where
  src : SockAddr
  dst : SockAddr
  data : List UInt8

instance : DecidableEq Letter := fun l l' =>
  have := sockAddrEq l.src l'.src
  have := sockAddrEq l.dst l'.dst
  decidable_of_iff (l.src = l'.src ∧ l.dst = l'.dst ∧ l.data = l'.data) (by
    cases l
    cases l'
    simp)

/-- `posted` holds what the clients sent, oldest first. -/
structure Datagrams (ι : Type) where
  clients : ι → ClientMain udp
  server : ServerMain
  posted : List Letter

/-- The next turn of a client, or the next operation of the server. -/
inductive DatagramsOp (ι : Type) where
  | client (i : ι) (t : ClientTurn)
  | server (op : MainOp)

/-- What comes in during an operation. -/
def MainOp.datagrams : MainOp → List Datagram
  | .arrive d => [d]
  | .turn _ late _ _ => late

/-- The letter that a datagram received at a socket was. -/
def Datagram.letter (dst : SockAddr) (d : Datagram) : Letter := ⟨d.1.addr, dst, d.2⟩

/-- `recv` hands the letter out at a socket, as much of it as the buffer of the client holds. -/
def Letter.HandedAs (l : Letter) (dst : SockAddr) (chunk : List UInt8 × FilledAddr) : Prop :=
  l.dst = dst ∧ l.src = chunk.2.addr ∧ l.data.take buffSize = chunk.1

instance (l : Letter) (dst : SockAddr) (chunk : List UInt8 × FilledAddr) :
    Decidable (l.HandedAs dst chunk) :=
  have := sockAddrEq l.dst dst
  have := sockAddrEq l.src chunk.2.addr
  inferInstanceAs (Decidable (_ ∧ _ ∧ _))

/-- What the client at a socket sends when the line is typed in. -/
def ClientMain.letter (src : SockAddr) (s : ClientMain udp) (line : Option (List UInt8))
    (ans : Except Errno Nat) : Option Letter :=
  line.bind fun input =>
    let (sent, call, _) := s.world.send 0 input ans
    sent.bind fun sent => call.bind fun call =>
      call.dest.map fun dst => ⟨src, dst, call.data.take sent⟩

/-- What the server at a socket sends as the reply.  One that `send` fails on gets lost. -/
def Reply.letter (src : SockAddr) (r : Reply) : Option Letter :=
  r.dest.sockAddr.map fun dst => ⟨src, dst, r.data⟩

namespace Datagrams

variable {ι : Type} (home : SockAddr) (addr : ι → SockAddr)

/-- What `init` of a client is called with, and the answers to the calls that it makes. -/
structure Opening where
  localPort : Option UInt64
  socket : Except Errno Fd
  bound : Answer
  added : Bool
  connected : Answer

/-- A client that is to connect to the port. -/
def Opening.init (pton : InetPton) (port : UInt64) (o : Opening) : Bool × World udp :=
  ClientMain.init pton udp port o.localPort o.socket o.bound o.added o.connected

def start (pton : InetPton) (port : UInt64) (openings : ι → Opening) (host : Host udp) :
    Datagrams ι :=
  ⟨fun i => .initial ((openings i).init pton port).2, .initial host, []⟩

/-- Everything that was sent so far. -/
def sent (s : Datagrams ι) : List Letter :=
  s.posted ++ s.server.replies.filterMap (Reply.letter home)

/-- One step, with the socket of the server at `home`, and that of client `i` at `addr i`.  Only
what was sent to a socket comes in at it. -/
def next [DecidableEq ι] (s : Datagrams ι) : DatagramsOp ι → Option (Datagrams ι)
  | .client i t =>
    if ∀ chunk ∈ t.chunks, ∃ l ∈ s.sent home, l.HandedAs (addr i) chunk then
      ((s.clients i).proceed t).map fun out =>
        { s with
          clients := Function.update s.clients i (out.1.input t.line t.ans)
          posted := s.posted ++ (out.1.letter (addr i) t.line t.ans).toList }
    else none
  | .server op =>
    if ∀ d ∈ op.datagrams, d.letter home ∈ s.sent home then
      (s.server.next op).map fun server => { s with server }
    else none

/-- Each response that a client prints is made of replies to it, each cut to the size of its
buffer. -/
def PrintsReplies (s : Datagrams ι) (Q : ι → Reply → Prop) : Prop :=
  ∀ i text, .response text ∈ (s.clients i).printed → ∃ rs : List Reply,
    (∀ r ∈ rs, r ∈ s.server.replies ∧ Q i r) ∧ text = rs.flatMap fun r => r.data.take buffSize

/-- The reply is the response to datagrams that clients sent to `home`, the last one from `a`. -/
structure Solicited (s : Datagrams ι) (a : SockAddr) (r : Reply) : Prop where
  response : Service.createResponse r.request = some r.data
  request : r.request = ServerMain.requestOf r.taken
  posted : ∀ d ∈ r.taken, d.letter home ∈ s.posted
  last : ∃ d ∈ r.taken.getLast?, d.1.addr = a

/-- What is printed is made of replies to what was sent. -/
def Genuine (s : Datagrams ι) : Prop :=
  s.PrintsReplies fun i r => s.Solicited home (addr i) r

/-- And each of the replies is made of what its receiver sent alone. -/
def Unmixed (s : Datagrams ι) : Prop :=
  s.PrintsReplies fun i r => s.Solicited home (addr i) r ∧
    r.request = ServerMain.requestOf (r.taken.filter fun d => d.1.addr = addr i)

/-- An element of the server that finishes took its request from one sender. -/
def OneSender (s : Datagrams ι) : DatagramsOp ι → Prop
  | .client _ _ => True
  | .server op => s.server.OneSender op

end Datagrams

/-! ### The server -/

instance (taken : List Datagram) : Decidable (ServerMain.FromLast taken) :=
  inferInstanceAs (Decidable (∀ d ∈ taken, _ → _))

instance (s : ServerMain) : (op : MainOp) → Decidable (s.OneSender op)
  | .arrive _ => isTrue trivial
  | .turn events late errno _ => decidable_of_iff
      (∀ element ∈ s.elementAfter events, ∀ e ∈ element, errno = eAgain →
        InRange (ServerMain.requestOf (s.taking e late)) → ServerMain.FromLast (s.taking e late))
      ⟨fun h e he => h (some e) he e rfl, fun h _ hafter e he => h e (he ▸ hafter)⟩

instance {ι : Type} (s : Datagrams ι) : (op : DatagramsOp ι) → Decidable (s.OneSender op)
  | .client _ _ => isTrue trivial
  | .server op => inferInstanceAs (Decidable (s.server.OneSender op))

namespace ServerMain

/-- The reply is the response to datagrams with the property, and goes to the last of their
senders. -/
structure AnswerTo (P : Datagram → Prop) (r : Reply) : Prop where
  response : Service.createResponse r.request = some r.data
  request : r.request = requestOf r.taken
  dest : lastSender r.taken = some r.dest
  taken : ∀ d ∈ r.taken, P d

/-- Whatever the server received has the property. -/
structure Received (P : Datagram → Prop) (s : ServerMain) : Prop where
  waiting : ∀ d ∈ s.queue, P d
  taken : ∀ e ∈ s.element, ∀ d ∈ e.taken, P d
  replies : ∀ r ∈ s.replies, AnswerTo P r

theorem Received.mono {P Q : Datagram → Prop} {s : ServerMain} (h : Received P s)
    (hle : ∀ d, P d → Q d) : Received Q s :=
  ⟨fun d hd => hle d (h.waiting d hd), fun e he d hd => hle d (h.taken e he d hd), fun r hr =>
    have answer := h.replies r hr
    ⟨answer.response, answer.request, answer.dest, fun d hd => hle d (answer.taken d hd)⟩⟩

/-- The callbacks of a batch put a new element there, or leave the one that was there. -/
theorem elementAfter_cases {s : ServerMain} {events : List Event} {element : Option Element}
    (h : s.elementAfter events = some element) :
    ∀ e ∈ element, e.taken = [] ∨ e ∈ s.element := by
  unfold elementAfter at h
  generalize events.flatMap (actionsOf s.host) = actions at h
  generalize s.element = before at h
  induction actions generalizing before with
  | nil =>
    cases h
    exact fun e he => Or.inr he
  | cons action actions ih =>
    rw [List.foldlM_cons] at h
    obtain ⟨between, hins, hrest⟩ := Option.bind_eq_some_iff.mp h
    intro e he
    rcases ih between hrest e he with hnew | hmem
    · exact Or.inl hnew
    · cases action with
      | onMessage func =>
        cases before with
        | none =>
          cases hins
          cases hmem
          exact Or.inl rfl
        | some old => cases hins
      | onClose func =>
        cases hins
        cases hmem
      | _ =>
        cases hins
        exact Or.inr hmem

theorem received_next {P : Datagram → Prop} {s s' : ServerMain} (running : Running s)
    (h : Received P s) {op : MainOp} (hop : ∀ d ∈ op.datagrams, P d)
    (hstep : s.next op = some s') : Received P s' := by
  cases op with
  | arrive d =>
    cases hstep
    refine ⟨fun d' hd' => ?_, h.taken, h.replies⟩
    exact (List.mem_append.mp hd').elim (h.waiting d') (hop d')
  | turn events late errno ans =>
    have hqueue : ∀ d ∈ s.queue ++ late, P d := fun d hd =>
      (List.mem_append.mp hd).elim (h.waiting d) (hop d)
    rw [next_turn running] at hstep
    obtain ⟨element, hafter, hserve⟩ := Option.bind_eq_some_iff.mp hstep
    cases element with
    | none =>
      cases hserve
      exact ⟨hqueue, fun e he => (by cases he), h.replies⟩
    | some e =>
      have htaking : ∀ d ∈ s.taking e late, P d := by
        intro d hd
        rcases List.mem_append.mp hd with hold | hnew
        · rcases elementAfter_cases hafter e rfl with hnone | hmem
          · rw [hnone] at hold
            cases hold
          · exact h.taken e hmem d hold
        · exact hqueue d hnew
      simp only [serveTaken] at hserve
      split_ifs at hserve with hdone
      · obtain ⟨resp, hresp, rfl⟩ := Option.map_eq_some_iff.mp hserve
        obtain ⟨dest, hdest⟩ := lastSender_isSome hdone.2
        refine ⟨fun d hd => (by cases hd), fun e he => (by cases he), fun r hr => ?_⟩
        simp only [answered, hdest, Option.map_some, Option.toList_some, List.singleton_append,
          List.mem_cons] at hr
        rcases hr with rfl | hold
        · exact ⟨hresp, rfl, hdest, htaking⟩
        · exact h.replies r hold
      · cases hserve
        refine ⟨fun d hd => (by cases hd), fun e' he' => ?_, h.replies⟩
        cases he'
        exact htaking

/-- The operations add to the replies. -/
theorem replies_next {s s' : ServerMain} (running : Running s) {op : MainOp}
    (hstep : s.next op = some s') : s.replies ⊆ s'.replies := by
  cases op with
  | arrive d =>
    cases hstep
    exact List.Subset.refl _
  | turn events late errno ans =>
    rw [next_turn running] at hstep
    obtain ⟨element, -, hserve⟩ := Option.bind_eq_some_iff.mp hstep
    cases element with
    | none =>
      cases hserve
      exact List.Subset.refl _
    | some e =>
      simp only [serveTaken] at hserve
      split_ifs at hserve
      · obtain ⟨resp, -, rfl⟩ := Option.map_eq_some_iff.mp hserve
        exact List.subset_append_right _ _
      · cases hserve
        exact List.Subset.refl _

end ServerMain

/-! ### A client -/

namespace ClientMain

variable {proto : Proto}

/-- The responses printed are those of `before`, and what some of the chunks hold. -/
structure Shows (before : List Printed) (chunks : List (List UInt8 × FilledAddr))
    (s : ClientMain proto × Rx) : Prop where
  rest : s.2.chunks ⊆ chunks
  printed : ∀ text, .response text ∈ s.1.printed →
    .response text ∈ before ∨ ∃ taken ⊆ chunks, text = bytes taken

theorem called_shows {before : List Printed} {chunks : List (List UInt8 × FilledAddr)}
    {s s' : ClientMain proto × Rx} (h : Shows before chunks s) {inv : Invocation}
    (hcalled : called s inv = some s') : Shows before chunks s' := by
  unfold called at hcalled
  split at hcalled
  · obtain ⟨d, hd, rfl⟩ := Option.map_eq_some_iff.mp hcalled
    obtain ⟨taken, hreceived, hchunks⟩ := doWhile_takes hd
    have htaken : taken ++ d.rx.chunks ⊆ chunks := by
      rw [hchunks]
      exact h.rest
    refine ⟨fun chunk hchunk => htaken (List.mem_append_right taken hchunk), fun text htext => ?_⟩
    rcases List.mem_cons.mp htext with heq | hold
    · cases heq
      exact Or.inr ⟨taken, fun chunk hchunk => htaken (List.mem_append_left _ hchunk), hreceived⟩
    · exact h.printed text hold
  · cases hcalled
    refine ⟨h.rest, fun text htext => ?_⟩
    rcases List.mem_cons.mp htext with heq | hold
    · cases heq
    · exact h.printed text hold
  · cases hcalled
    exact h

/-- A turn prints what the chunks hold. -/
theorem proceed_shows {s : ClientMain proto} {t : ClientTurn} {out : ClientMain proto × Rx}
    (h : s.proceed t = some out) : Shows s.printed t.chunks out := by
  unfold proceed at h
  split at h
  · obtain ⟨out', hfold, rfl⟩ := Option.map_eq_some_iff.mp h
    have hrun : ∀ (calls : List Invocation) (u : ClientMain proto × Rx),
        Shows s.printed t.chunks u → calls.foldlM called u = some out' →
        Shows s.printed t.chunks out' := by
      intro calls
      induction calls with
      | nil =>
        intro u hu hnone
        cases hnone
        exact hu
      | cons inv calls ih =>
        intro u hu hcons
        rw [List.foldlM_cons] at hcons
        obtain ⟨u', hcalled, hrest⟩ := Option.bind_eq_some_iff.mp hcons
        exact ih u' (called_shows hu hcalled) hrest
    have hshows := hrun _ _ ⟨List.Subset.refl _, fun text htext => Or.inl htext⟩ hfold
    exact ⟨hshows.rest, hshows.printed⟩
  · cases h

theorem proceed_remote {s : ClientMain proto} {t : ClientTurn} {out : ClientMain proto × Rx}
    (h : s.proceed t = some out) :
    (out.1.world.clients 0).remote = (s.world.clients 0).remote := by
  have calm := World.Calm.proceed user 0 s.world t.events
  unfold proceed at h
  split at h <;> rename_i hproceed
  · obtain ⟨out', hfold, rfl⟩ := Option.map_eq_some_iff.mp h
    rw [hproceed] at calm
    rw [fold_world hfold]
    exact calm.remote 0
  · cases h

theorem input_remote (s : ClientMain proto) (line : Option (List UInt8)) (ans : Except Errno Nat) :
    ((s.input line ans).world.clients 0).remote = (s.world.clients 0).remote := by
  obtain ⟨k, hk⟩ := input_world s line ans
  rw [hk]

/-- What is typed in adds no response. -/
theorem input_responses (s : ClientMain proto) (line : Option (List UInt8))
    (ans : Except Errno Nat) {text : List UInt8}
    (h : .response text ∈ (s.input line ans).printed) : .response text ∈ s.printed := by
  unfold input at h
  cases line with
  | none => exact h
  | some input =>
    simp only at h
    split at h
    · exact h
    · split_ifs at h
      · exact (List.mem_cons.mp h).resolve_left (by simp)
      · exact h

/-- A letter goes to the address that the client holds. -/
theorem letter_spec {src : SockAddr} {s : ClientMain udp} {line : Option (List UInt8)}
    {ans : Except Errno Nat} {l : Letter} (h : s.letter src line ans = some l) :
    l.src = src ∧ (s.world.clients 0).remote.bind InAddressPort.sockAddr = some l.dst := by
  obtain ⟨input, -, h⟩ := Option.bind_eq_some_iff.mp h
  obtain ⟨sent, -, h⟩ := Option.bind_eq_some_iff.mp h
  obtain ⟨call, hcall, h⟩ := Option.bind_eq_some_iff.mp h
  obtain ⟨dst, hdst, rfl⟩ := Option.map_eq_some_iff.mp h
  refine ⟨rfl, ?_⟩
  change (s.world.send 0 input ans).2.1 = some call at hcall
  unfold World.send at hcall
  split at hcall
  · rename_i sock remote hstate hremote
    rw [hremote, Option.bind_some]
    simp only [ActiveSocket.send, udp, if_true, SocketImpl.sendTo] at hcall
    split at hcall
    · split_ifs at hcall
      split at hcall
      · rename_i sa hsa
        cases hcall
        cases hdst
        exact hsa
      · cases hcall
    · cases hcall
  · cases hcall

end ClientMain

/-! ### One step -/

namespace Datagrams

variable {ι : Type} {home : SockAddr} {addr : ι → SockAddr}

/-- Chunks that are replies, cut to the size of the buffer. -/
theorem bytes_replies {Q : Reply → Prop} {chunks : List (List UInt8 × FilledAddr)}
    (h : ∀ chunk ∈ chunks, ∃ r, Q r ∧ r.data.take buffSize = chunk.1) :
    ∃ rs : List Reply, (∀ r ∈ rs, Q r) ∧
      ClientMain.bytes chunks = rs.flatMap fun r => r.data.take buffSize := by
  induction chunks with
  | nil => exact ⟨[], by simp, rfl⟩
  | cons chunk chunks ih =>
    obtain ⟨r, hr, hdata⟩ := h chunk List.mem_cons_self
    obtain ⟨rs, hrs, hbytes⟩ := ih fun c hc => h c (List.mem_cons_of_mem chunk hc)
    refine ⟨r :: rs, fun r' hr' => ?_, ?_⟩
    · rcases List.mem_cons.mp hr' with rfl | hmem
      · exact hr
      · exact hrs r' hmem
    · rw [List.flatMap_cons, hdata, ← hbytes]
      rfl

/-- The clients send to the server, whose sockets are apart from its own, and the server answers
nobody else. -/
structure Sound (home : SockAddr) (addr : ι → SockAddr) (s : Datagrams ι) : Prop where
  remote : ∀ i, ((s.clients i).world.clients 0).remote.bind InAddressPort.sockAddr = some home
  posted : ∀ l ∈ s.posted, (∃ i, l.src = addr i) ∧ l.dst = home
  running : ServerMain.Running s.server
  received : ServerMain.Received (fun d => d.letter home ∈ s.posted) s.server
  printed : s.PrintsReplies fun i r => r.dest.sockAddr = some (addr i)

/-- A reply goes to the socket that the last of its datagrams came from. -/
theorem Sound.last {s : Datagrams ι} (h : Sound home addr s) {r : Reply}
    (hr : r ∈ s.server.replies) :
    ∃ d ∈ r.taken.getLast?, r.dest.sockAddr = some d.1.addr ∧ d.letter home ∈ s.posted := by
  have answer := h.received.replies r hr
  obtain ⟨d, hd, hsender⟩ := Option.bind_eq_some_iff.mp answer.dest
  exact ⟨d, hd, parseAddr_back hsender, answer.taken d (List.mem_of_getLast? hd)⟩

theorem Sound.solicited {s : Datagrams ι} (h : Sound home addr s) {r : Reply}
    (hr : r ∈ s.server.replies) {a : SockAddr} (hdest : r.dest.sockAddr = some a) :
    s.Solicited home a r := by
  have answer := h.received.replies r hr
  obtain ⟨d, hd, hback, -⟩ := h.last hr
  exact ⟨answer.response, answer.request, answer.taken, d, hd,
    Option.some.inj (hback.symm.trans hdest)⟩

theorem Sound.genuine {s : Datagrams ι} (h : Sound home addr s) : s.Genuine home addr := by
  intro i text htext
  obtain ⟨rs, hrs, heq⟩ := h.printed i text htext
  exact ⟨rs, fun r hr => ⟨(hrs r hr).1, h.solicited (hrs r hr).1 (hrs r hr).2⟩, heq⟩

/-- What was sent to a client is a reply. -/
theorem Sound.toClient {s : Datagrams ι} (h : Sound home addr s) (apart : ∀ i, addr i ≠ home)
    {l : Letter} (hl : l ∈ s.sent home) {i : ι} (hdst : l.dst = addr i) :
    ∃ r ∈ s.server.replies, r.dest.sockAddr = some (addr i) ∧ l.data = r.data := by
  rcases List.mem_append.mp hl with hposted | hreply
  · exact absurd (hdst.symm.trans (h.posted l hposted).2) (apart i)
  · obtain ⟨r, hr, hletter⟩ := List.mem_filterMap.mp hreply
    obtain ⟨dst, hdest, rfl⟩ := Option.map_eq_some_iff.mp hletter
    exact ⟨r, hr, by rw [hdest, ← hdst], rfl⟩

/-- What was sent to the server is from a client. -/
theorem Sound.toServer {s : Datagrams ι} (h : Sound home addr s) (apart : ∀ i, addr i ≠ home)
    {l : Letter} (hl : l ∈ s.sent home) (hdst : l.dst = home) : l ∈ s.posted := by
  rcases List.mem_append.mp hl with hposted | hreply
  · exact hposted
  · obtain ⟨r, hr, hletter⟩ := List.mem_filterMap.mp hreply
    obtain ⟨dst, hdest, rfl⟩ := Option.map_eq_some_iff.mp hletter
    obtain ⟨d, -, hback, hposted⟩ := h.last hr
    obtain ⟨i, hi⟩ := (h.posted _ hposted).1
    have haddr : d.1.addr = dst := Option.some.inj (hback.symm.trans hdest)
    exact absurd (hi.symm.trans (haddr.trans hdst)) (apart i)

/-- Replies that are made of the data of one sender each. -/
theorem Sound.unmixed {s : Datagrams ι} (h : Sound home addr s) (hown : s.server.Own) :
    s.Unmixed home addr := by
  intro i text htext
  obtain ⟨rs, hrs, heq⟩ := h.printed i text htext
  refine ⟨rs, fun r hr => ⟨(hrs r hr).1, h.solicited (hrs r hr).1 (hrs r hr).2, ?_⟩, heq⟩
  have answer := h.received.replies r (hrs r hr).1
  have hsenders := (hown r (hrs r hr).1).2
  rw [answer.request, ServerMain.requestOf_filter_iff] at hsenders ⊢
  intro d hd hbytes
  have hsender : d.sender = some r.dest := by simpa using hsenders d hd hbytes
  have hback := parseAddr_back hsender
  simpa using Option.some.inj (hback.symm.trans (hrs r hr).2)

theorem sound_start {pton : InetPton} {port localPort : UInt64} {openings : ι → Opening}
    {socket : Except Errno Fd} {bound : Answer} {added : Bool}
    (hhome : (fromStringAndPort pton ClientMain.loopbackText port).bind InAddressPort.sockAddr =
      some home)
    (opened : ∀ i, ((openings i).init pton port).1 = true)
    (started : (ServerMain.init pton localPort socket bound added).1 = true) :
    Sound home addr
      (start pton port openings (ServerMain.init pton localPort socket bound added).2) := by
  refine ⟨fun i => ?_, by simp [start], ServerMain.running_initial started,
    ⟨by simp [start, ServerMain.initial], by simp [start, ServerMain.initial],
      by simp [start, ServerMain.initial]⟩, fun i text htext => by cases htext⟩
  rw [← hhome, ← ClientMain.init_remote (opened i)]
  rfl

variable [DecidableEq ι]

theorem sound_client {s s' : Datagrams ι} (h : Sound home addr s) (apart : ∀ i, addr i ≠ home)
    {i : ι} {t : ClientTurn} (hstep : s.next home addr (.client i t) = some s') :
    Sound home addr s' := by
  simp only [next] at hstep
  split_ifs at hstep with hhanded
  obtain ⟨out, hproceed, rfl⟩ := Option.map_eq_some_iff.mp hstep
  have hremote : (out.1.world.clients 0).remote.bind InAddressPort.sockAddr = some home := by
    rw [ClientMain.proceed_remote hproceed]
    exact h.remote i
  refine ⟨fun j => ?_, fun l hl => ?_, h.running,
    h.received.mono fun d hd => List.mem_append_left _ hd, fun j text htext => ?_⟩
  · by_cases hj : j = i
    · simp only [hj, Function.update_self, ClientMain.input_remote]
      exact hremote
    · simp only [Function.update_of_ne hj]
      exact h.remote j
  · rcases List.mem_append.mp hl with hold | hnew
    · exact h.posted l hold
    · obtain ⟨hsrc, hdst⟩ := ClientMain.letter_spec (Option.mem_toList.mp hnew)
      exact ⟨⟨i, hsrc⟩, Option.some.inj (hdst.symm.trans hremote)⟩
  · by_cases hj : j = i
    · subst hj
      simp only [Function.update_self] at htext
      rcases (ClientMain.proceed_shows hproceed).printed text
        (ClientMain.input_responses _ _ _ htext) with hold | ⟨taken, htaken, rfl⟩
      · exact h.printed j text hold
      · refine bytes_replies fun chunk hchunk => ?_
        obtain ⟨l, hl, hdst, -, hdata⟩ := hhanded chunk (htaken hchunk)
        obtain ⟨r, hr, hdest, heq⟩ := h.toClient apart hl hdst
        exact ⟨r, ⟨hr, hdest⟩, by rw [← heq, hdata]⟩
    · simp only [Function.update_of_ne hj] at htext
      exact h.printed j text htext

theorem sound_server {s s' : Datagrams ι} (h : Sound home addr s) (apart : ∀ i, addr i ≠ home)
    {op : MainOp} (hstep : s.next home addr (.server op) = some s') : Sound home addr s' := by
  simp only [next] at hstep
  split_ifs at hstep with hcame
  obtain ⟨server, hserver, rfl⟩ := Option.map_eq_some_iff.mp hstep
  refine ⟨h.remote, h.posted, ServerMain.running_next h.running hserver,
    ServerMain.received_next h.running h.received (fun d hd => ?_) hserver, fun i text htext => ?_⟩
  · exact h.toServer apart (hcame d hd) rfl
  · obtain ⟨rs, hrs, heq⟩ := h.printed i text htext
    exact ⟨rs, fun r hr => ⟨ServerMain.replies_next h.running hserver (hrs r hr).1, (hrs r hr).2⟩,
      heq⟩

theorem sound_next {s s' : Datagrams ι} (h : Sound home addr s) (apart : ∀ i, addr i ≠ home)
    {op : DatagramsOp ι} (hstep : s.next home addr op = some s') : Sound home addr s' := by
  cases op with
  | client i t => exact sound_client h apart hstep
  | server op => exact sound_server h apart hstep

theorem own_next {s s' : Datagrams ι} (h : Sound home addr s) (hown : s.server.Own)
    {op : DatagramsOp ι} (hone : s.OneSender op) (hstep : s.next home addr op = some s') :
    s'.server.Own := by
  cases op with
  | client i t =>
    simp only [next] at hstep
    split_ifs at hstep
    obtain ⟨out, -, rfl⟩ := Option.map_eq_some_iff.mp hstep
    exact hown
  | server op =>
    simp only [next] at hstep
    split_ifs at hstep
    obtain ⟨server, hserver, rfl⟩ := Option.map_eq_some_iff.mp hstep
    exact (ServerMain.own_next_iff h.running hown op).mpr hone server hserver

/-! ### Runs -/

section

variable {pton : InetPton} {port localPort : UInt64} {openings : ι → Opening}
  {socket : Except Errno Fd} {bound : Answer} {added : Bool}

/-- Whatever the network does, a client prints nothing but responses of the server to what clients
sent it, the last of it the client itself. -/
theorem genuine_run
    (hhome : (fromStringAndPort pton ClientMain.loopbackText port).bind InAddressPort.sockAddr =
      some home)
    (apart : ∀ i, addr i ≠ home) (opened : ∀ i, ((openings i).init pton port).1 = true)
    (started : (ServerMain.init pton localPort socket bound added).1 = true)
    (ops : List (DatagramsOp ι)) :
    Always (next home addr) (Genuine home addr)
      (start pton port openings (ServerMain.init pton localPort socket bound added).2) ops :=
  (Always.of_inv (fun _ _ _ h hstep => sound_next h apart hstep)
    (sound_start hhome opened started) ops).mono fun _ h => h.genuine

/-- While the server takes each request from one sender, a client prints nothing but responses to
what it sent itself. -/
theorem unmixed_run
    (hhome : (fromStringAndPort pton ClientMain.loopbackText port).bind InAddressPort.sockAddr =
      some home)
    (apart : ∀ i, addr i ≠ home) (opened : ∀ i, ((openings i).init pton port).1 = true)
    (started : (ServerMain.init pton localPort socket bound added).1 = true)
    (ops : List (DatagramsOp ι))
    (senders : Along (next home addr) OneSender
      (start pton port openings (ServerMain.init pton localPort socket bound added).2) ops) :
    Always (next home addr) (Unmixed home addr)
      (start pton port openings (ServerMain.init pton localPort socket bound added).2) ops := by
  have hboth : Always (next home addr)
      (fun s : Datagrams ι => Sound home addr s ∧ s.server.Own)
      (start pton port openings (ServerMain.init pton localPort socket bound added).2) ops :=
    Always.of_along
      (fun _ _ _ h hone hstep => ⟨sound_next h.1 apart hstep, own_next h.1 h.2 hone hstep⟩)
      ⟨sound_start hhome opened started, by simp [ServerMain.Own, start, ServerMain.initial]⟩ senders
  exact hboth.mono fun _ h => h.1.unmixed h.2

end

/-! ### Two clients -/

/-- The socket of a port of "127.0.0.1". -/
def loopback (port : UInt64) : SockAddr :=
  ((fromStringAndPort loopbackPton ClientMain.loopbackText port).bind
    InAddressPort.sockAddr).getD (.in4 0 fun _ => 0)

/-- The ports of two clients. -/
def portOf (second : Bool) : UInt64 := if second then 72 else 71

def openingOf (second : Bool) : Opening := ⟨some (portOf second), .ok 3, .ok (), true, .ok ()⟩

def twoClients : Datagrams Bool :=
  start loopbackPton 70 openingOf (ServerMain.init loopbackPton 70 (.ok 3) (.ok ()) true).2

/-- A turn in which a line is typed in, or a reply of the server comes in. -/
def types (line : List UInt8) : ClientTurn := ⟨[], [], .again, 0, some line, .ok line.length⟩

def reads (data : List UInt8) : ClientTurn :=
  ⟨[⟨3, .readReady⟩], [(data, ⟨loopback 70, fun _ => 0⟩)], .again, 0, none, .ok 0⟩

/-- The datagram as it comes in from a client. -/
def datagramFrom (second : Bool) (data : List UInt8) : Datagram :=
  (⟨loopback (portOf second), fun _ => 0⟩, data)

/-- Both type in a number.  The letter of the second comes in twice, and after its answer. -/
def twoLines : List (DatagramsOp Bool) :=
  [.client false (types [50]), .client true (types [51]),
    .server (.arrive (datagramFrom true [51])),
    .server (.turn [⟨3, .readReady⟩] [datagramFrom true [51]] eAgain (.ok 6)),
    .server (.arrive (datagramFrom false [50])),
    .server (.turn [⟨3, .readReady⟩] [] eAgain (.ok 4)),
    .client false (reads [50, 32, 10, 50])]

theorem twoLines_printed :
    (exec (next (loopback 70) fun second => loopback (portOf second)) twoClients twoLines).map
        (fun s => (s.clients false).printed) = some [.response [50, 32, 10, 50]] := by
  decide +kernel

theorem portOf_apart (second : Bool) : loopback (portOf second) ≠ loopback 70 := by
  cases second <;> decide

theorem openingOf_opens (second : Bool) :
    ((openingOf second).init loopbackPton 70).1 = true := by
  cases second <;> decide +kernel

theorem genuine_run_twoLines :
    (exec (next (loopback 70) fun second => loopback (portOf second)) twoClients
        twoLines).isSome ∧
      Always (next (loopback 70) fun second => loopback (portOf second))
        (Genuine (loopback 70) fun second => loopback (portOf second)) twoClients twoLines := by
  refine ⟨?_, genuine_run rfl portOf_apart openingOf_opens (by decide +kernel)
    twoLines⟩
  rw [← Option.isSome_map, twoLines_printed]
  rfl

theorem twoLines_oneSender :
    Along (next (loopback 70) fun second => loopback (portOf second)) OneSender twoClients
      twoLines := by
  decide +kernel

theorem unmixed_run_twoLines :
    Always (next (loopback 70) fun second => loopback (portOf second))
      (Unmixed (loopback 70) fun second => loopback (portOf second)) twoClients twoLines :=
  unmixed_run rfl portOf_apart openingOf_opens (by decide +kernel) twoLines
    twoLines_oneSender

end Datagrams

end TypedSockets.App
