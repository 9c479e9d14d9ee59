import TypedSockets.Endpoint.Recv
import TypedSockets.Lib.Loop

/-! The two loops that drain a socket: when they end, and when they have read everything. -/

namespace TypedSockets.Endpoint

open TypedSockets.Socket TypedSockets.Lib

/-- A loop between two rounds: `got` says whether the last `recv` returned a value. -/
structure DrainState where
  endpoint : RecvI
  rx : Rx
  received : List UInt8
  got : Bool

/-- The body of the loops: `rec = recv(buf, n)`. -/
def recvRound (s : DrainState) : DrainState :=
  let (r, endpoint, rx) := s.endpoint.recvImpl s.rx
  ⟨endpoint, rx, s.received ++ (r.map Received.data).getD [], r.isSome⟩

/-- `do { recv } while (!finished_recv())`. -/
def untilFinished (s : DrainState) : Bool := !s.endpoint.finishedRecvImpl s.rx.errno

/-- `do { rec = recv } while (rec)`. -/
def whileReceived (s : DrainState) : Bool := s.got

/-! ### What the loops depend on -/

/-- What a drain loop depends on: whether `recv` gets to the kernel, what `finished_recv` says when
it does not look at `errno`, and the receiving side of the socket. -/
structure Drain where
  reads : Bool
  constant : Option Bool
  rx : Rx
  received : List UInt8
  got : Bool

namespace Drain

def of (s : DrainState) : Drain := ⟨s.endpoint.reads, s.endpoint.constant, s.rx, s.received, s.got⟩

def round (d : Drain) : Drain :=
  if d.reads then
    { d with
      rx := d.rx.recv.2
      received := d.received ++ (d.rx.recv.1.map Prod.fst).getD []
      got := d.rx.recv.1.isSome }
  else { d with got := false }

def again (d : Drain) : Bool := !d.constant.getD (d.rx.errno == eAgain)

theorem of_round (s : DrainState) : of (recvRound s) = round (of s) := by
  obtain ⟨hdata, hrx, hreads, hconst⟩ := s.endpoint.recvImpl_spec s.rx
  have hrec : (s.endpoint.recvImpl s.rx).1.isSome =
      if s.endpoint.reads then s.rx.recv.1.isSome else false := by
    have hsome := congrArg Option.isSome hdata
    rw [Option.isSome_map] at hsome
    rw [hsome]
    split <;> simp
  by_cases h : s.endpoint.reads = true <;>
    simp [of, recvRound, round, hdata, hrx, hreads, hconst, hrec, h]

theorem of_again (s : DrainState) : untilFinished s = again (of s) := by
  rw [untilFinished, s.endpoint.finishedRecvImpl_eq]
  rfl

theorem of_got (s : DrainState) : whileReceived s = got (of s) := rfl

/-! ### The loop over `finished_recv` -/

theorem round_cons {d : Drain} (reads : d.reads = true) {chunk : List UInt8 × FilledAddr}
    {chunks : List (List UInt8 × FilledAddr)} (h : d.rx.chunks = chunk :: chunks) :
    round d = { d with
      rx := { d.rx with chunks := chunks }
      received := d.received ++ chunk.1
      got := true } := by
  simp [round, reads, Rx.recv, h]

theorem round_again {d : Drain} (reads : d.reads = true) (h : d.rx.chunks = [])
    (ending : d.rx.ending = .again) :
    round d = { d with rx := { d.rx with errno := eAgain }, got := false } := by
  simp [round, reads, Rx.recv, h, ending]

theorem round_eof {d : Drain} (reads : d.reads = true) (h : d.rx.chunks = [])
    (ending : d.rx.ending = .eof) : round d = { d with got := true } := by
  simp [round, reads, Rx.recv, h, ending]

theorem round_error {d : Drain} {e : Errno} (reads : d.reads = true) (h : d.rx.chunks = [])
    (ending : d.rx.ending = .error e) :
    round d = { d with rx := { d.rx with errno := e, ending := .eof }, got := false } := by
  simp [round, reads, Rx.recv, h, ending]

theorem again_errno {d : Drain} (const : d.constant = none) :
    again d = true ↔ d.rx.errno ≠ eAgain := by
  simp [again, const]

/-- A socket at the end of its stream gives values for ever. -/
theorem not_terminates_eof {d : Drain} (reads : d.reads = true) (const : d.constant = none)
    (chunks : d.rx.chunks = []) (ending : d.rx.ending = .eof) (errno : d.rx.errno ≠ eAgain) :
    ¬Terminates round again d := by
  refine not_terminates (fun d => d.reads = true ∧ d.constant = none ∧ d.rx.chunks = [] ∧
    d.rx.ending = .eof ∧ d.rx.errno ≠ eAgain) ?_ ?_ ⟨reads, const, chunks, ending, errno⟩
  · rintro d ⟨hreads, hconst, hchunks, hending, herrno⟩
    rw [round_eof hreads hchunks hending]
    exact ⟨hreads, hconst, hchunks, hending, herrno⟩
  · rintro d ⟨hreads, hconst, hchunks, hending, herrno⟩
    rw [round_eof hreads hchunks hending]
    exact (again_errno hconst).mpr herrno

/-- When the loop over `finished_recv` ends on a socket that can receive. -/
def Settles (rx : Rx) : Prop :=
  match rx.ending with
  | .again => True
  | .eof => rx.errno = eAgain
  | .error e => e = eAgain ∨ (rx.errno = eAgain ∧ rx.chunks ≠ [])

theorem terminates_iff {d : Drain} (reads : d.reads = true) (const : d.constant = none) :
    Terminates round again d ↔ Settles d.rx := by
  obtain ⟨r, k, ⟨errno, chunks, ending⟩, received, got⟩ := d
  obtain rfl : r = true := reads
  obtain rfl : k = none := const
  induction chunks generalizing received got with
  | nil =>
    cases ending with
    | again =>
      refine iff_of_true (terminates_stop ?_) trivial
      rw [round_again rfl rfl rfl]
      simp [again]
    | eof =>
      by_cases herrno : errno = eAgain
      · refine iff_of_true (terminates_stop ?_) herrno
        rw [round_eof rfl rfl rfl]
        simp [again, herrno]
      · exact iff_of_false (not_terminates_eof rfl rfl rfl rfl herrno) herrno
    | error e =>
      have hround := round_error (d := ⟨true, none, ⟨errno, [], .error e⟩, received, got⟩) rfl rfl rfl
      by_cases he : e = eAgain
      · refine iff_of_true (terminates_stop ?_) (Or.inl he)
        rw [hround]
        simp [again, he]
      · refine iff_of_false ?_ (by simp [Settles, he])
        rw [terminates_again_iff (by rw [hround]; simp [again, he]), hround]
        exact not_terminates_eof rfl rfl rfl rfl he
  | cons chunk chunks ih =>
    have hround := round_cons (d := ⟨true, none, ⟨errno, chunk :: chunks, ending⟩, received, got⟩)
      rfl rfl
    by_cases herrno : errno = eAgain
    · refine iff_of_true (terminates_stop ?_) ?_
      · rw [hround]
        simp [again, herrno]
      · cases ending with
        | again => trivial
        | eof => exact herrno
        | error e => exact Or.inr ⟨herrno, by simp⟩
    · rw [terminates_again_iff (by rw [hround]; simp [again, herrno]), hround, ih]
      cases ending <;> simp [Settles, herrno]

/-- Without a descriptor to receive from, only a stale `errno` ends the loop. -/
theorem terminates_idle_iff {d : Drain} (reads : d.reads = false) (const : d.constant = none) :
    Terminates round again d ↔ d.rx.errno = eAgain := by
  by_cases herrno : d.rx.errno = eAgain
  · refine iff_of_true (terminates_stop ?_) herrno
    simp [round, reads, again, const, herrno]
  · refine iff_of_false ?_ herrno
    refine not_terminates
      (fun d => d.reads = false ∧ d.constant = none ∧ d.rx.errno ≠ eAgain) ?_ ?_
      ⟨reads, const, herrno⟩
    · rintro d ⟨hreads, hconst, herrno⟩
      simp only [round, hreads, Bool.false_eq_true, ↓reduceIte]
      exact ⟨trivial, hconst, herrno⟩
    · rintro d ⟨hreads, hconst, herrno⟩
      simpa [round, hreads, again, hconst] using herrno

theorem round_constant (d : Drain) : (round d).constant = d.constant := by
  unfold round
  split <;> rfl

theorem terminates_constant_iff {d : Drain} {b : Bool} (const : d.constant = some b) :
    Terminates round again d ↔ b = true := by
  cases b with
  | true => exact iff_of_true (terminates_stop (by simp [again, round_constant, const])) rfl
  | false =>
    refine iff_of_false ?_ (by simp)
    refine not_terminates (fun d => d.constant = some false) ?_ ?_ const
    · intro d hd
      rw [round_constant, hd]
    · intro d hd
      simp [again, round_constant, hd]

/-! ### The loop over the result of `recv` -/

theorem got_terminates_iff {d : Drain} (reads : d.reads = true) :
    Terminates round got d ↔ d.rx.ending ≠ .eof := by
  obtain ⟨r, k, ⟨errno, chunks, ending⟩, received, b⟩ := d
  obtain rfl : r = true := reads
  induction chunks generalizing received b with
  | nil =>
    cases ending with
    | again =>
      refine iff_of_true (terminates_stop ?_) (by simp)
      rw [round_again rfl rfl rfl]
    | error e =>
      refine iff_of_true (terminates_stop ?_) (by simp)
      rw [round_error rfl rfl rfl]
    | eof =>
      refine iff_of_false ?_ (by simp)
      refine not_terminates
        (fun d => d.reads = true ∧ d.rx.chunks = [] ∧ d.rx.ending = .eof) ?_ ?_ ⟨rfl, rfl, rfl⟩
      · rintro d ⟨hreads, hchunks, hending⟩
        rw [round_eof hreads hchunks hending]
        exact ⟨hreads, hchunks, hending⟩
      · rintro d ⟨hreads, hchunks, hending⟩
        rw [round_eof hreads hchunks hending]
  | cons chunk chunks ih =>
    have hround := round_cons (d := ⟨true, k, ⟨errno, chunk :: chunks, ending⟩, received, b⟩)
      rfl rfl
    rw [terminates_again_iff (by rw [hround]), hround, ih]

theorem got_terminates_idle {d : Drain} (reads : d.reads = false) : Terminates round got d :=
  terminates_stop (by simp [round, reads])

/-! ### What the loop over `finished_recv` reads -/

theorem ends_complete {d d' : Drain} (reads : d.reads = true) (const : d.constant = none)
    (ending : d.rx.ending = .again) (errno : d.rx.errno ≠ eAgain) (h : Ends round again d d') :
    d'.received = d.received ++ (d.rx.chunks.map Prod.fst).flatten := by
  induction hchunks : d.rx.chunks generalizing d with
  | nil =>
    have hround := round_again reads hchunks ending
    rw [ends_stop_iff (by rw [hround]; simp [again, const]), hround] at h
    simp [h]
  | cons chunk chunks ih =>
    have hround := round_cons reads hchunks
    rw [ends_again_iff (by rw [hround]; exact (again_errno const).mpr errno), hround] at h
    have htail := ih (d := { d with
      rx := { d.rx with chunks := chunks }
      received := d.received ++ chunk.1
      got := true }) reads const ending errno h rfl
    simpa using htail

/-- With a stale `EAGAIN` the loop reads one chunk. -/
theorem ends_stale {d d' : Drain} (reads : d.reads = true) (const : d.constant = none)
    (ending : d.rx.ending = .again) (errno : d.rx.errno = eAgain) (h : Ends round again d d') :
    d'.received = d.received ++ (d.rx.chunks.head?.map Prod.fst).getD [] := by
  cases hchunks : d.rx.chunks with
  | nil =>
    have hround := round_again reads hchunks ending
    rw [ends_stop_iff (by rw [hround]; simp [again, const]), hround] at h
    simp [h]
  | cons chunk chunks =>
    have hround := round_cons reads hchunks
    rw [ends_stop_iff (by rw [hround]; simp [again, const, errno]), hround] at h
    simp [h]

end Drain

/-! ### The endpoints -/

theorem RecvI.reads_of_constant {e : RecvI} {b : Bool} (h : e.constant = some b) :
    e.reads = false := by
  cases e with
  | client proto state => cases state <;> simp_all [RecvI.constant, RecvI.reads]
  | acceptedSock => simp [RecvI.constant] at h
  | acceptedSockRef proto _ state => cases state <;> simp_all [RecvI.constant, RecvI.reads]

/-- An endpoint that both loops leave. -/
def Drainable (e : RecvI) (rx : Rx) : Prop :=
  match e.constant with
  | some finished => finished = true
  | none => if e.reads then rx.ending ≠ .eof ∧ Drain.Settles rx else rx.errno = eAgain

/-- Both loops over `recv` end, in whatever way the incoming data ends, exactly on a drainable
endpoint. -/
theorem drains_iff (e : RecvI) (rx : Rx) :
    (Terminates recvRound untilFinished ⟨e, rx, [], false⟩ ∧
        Terminates recvRound whileReceived ⟨e, rx, [], false⟩) ↔
      Drainable e rx := by
  rw [terminates_map_iff Drain.of_round Drain.of_again,
    terminates_map_iff Drain.of_round Drain.of_got, Drainable]
  cases hconst : e.constant with
  | some finished =>
    have hidle := Drain.got_terminates_idle (d := Drain.of ⟨e, rx, [], false⟩)
      (RecvI.reads_of_constant hconst)
    exact (and_iff_left hidle).trans (Drain.terminates_constant_iff hconst)
  | none =>
    by_cases hreads : e.reads = true
    · simp only [hreads, ↓reduceIte]
      rw [Drain.terminates_iff hreads hconst, Drain.got_terminates_iff hreads]
      exact and_comm
    · have hidle : e.reads = false := by simpa using hreads
      simp only [hidle, Bool.false_eq_true, ↓reduceIte]
      rw [Drain.terminates_idle_iff hidle hconst]
      exact and_iff_left (Drain.got_terminates_idle hidle)

/-- A TCP client whose peer has closed the connection. -/
def closedByPeer : DrainState :=
  ⟨.client tcp (.active ⟨⟨some 3, AfInet.ipv4.toInt⟩, none, none, false⟩) none,
    ⟨0, [], .eof⟩, [], false⟩

theorem closedByPeer_not_drained :
    ¬Terminates recvRound untilFinished closedByPeer ∧
      ¬Terminates recvRound whileReceived closedByPeer := by
  rw [terminates_map_iff Drain.of_round Drain.of_again,
    terminates_map_iff Drain.of_round Drain.of_got,
    Drain.terminates_iff rfl rfl, Drain.got_terminates_iff rfl]
  exact ⟨show (0 : Errno) ≠ eAgain by decide, fun h => h rfl⟩

/-- The endpoint is a `client_t` or an `accepted_sock` over TCP with a socket to receive from. -/
def RecvI.OverTcp : RecvI → Prop
  | client proto (.active sock) _ => proto.isConnectionless = false ∧ sock.impl.fd.isSome
  | acceptedSock _ _ s => s.sock.impl.fd.isSome
  | _ => False

theorem RecvI.OverTcp.reads {e : RecvI} (h : e.OverTcp) : e.reads = true ∧ e.constant = none := by
  cases e with
  | client proto state =>
    cases state with
    | active sock =>
      obtain ⟨hproto, hfd⟩ := h
      exact ⟨by simp [RecvI.reads, hproto, hfd], rfl⟩
    | _ => exact h.elim
  | acceptedSock => exact ⟨h, rfl⟩
  | acceptedSockRef => exact h.elim

/-- A way to hand out `pending` in chunks of at most `n` bytes. -/
structure Split (n : Nat) (pending : List UInt8) where
  chunks : List (List UInt8 × FilledAddr)
  whole : (chunks.map Prod.fst).flatten = pending
  fits : ∀ chunk ∈ chunks, 0 < chunk.1.length ∧ chunk.1.length ≤ n

/-- The first chunk is everything when there is no other one. -/
theorem Split.first_iff {n : Nat} {pending : List UInt8} (split : Split n pending) :
    (split.chunks.head?.map Prod.fst).getD [] = pending ↔ split.chunks.length ≤ 1 := by
  obtain ⟨chunks, rfl, hfits⟩ := split
  match chunks with
  | [] => simp
  | [chunk] => simp
  | chunk :: next :: rest =>
    have hnext := (hfits next (by simp)).1
    refine iff_of_false (fun heq => ?_) (by simp)
    have hlen := congrArg List.length heq
    simp only [List.head?_cons, Option.map_some, Option.getD_some, List.map_cons,
      List.flatten_cons, List.length_append] at hlen
    omega

/-- The loop over `finished_recv` on pending bytes that `EAGAIN` follows. -/
def pendingState (e : RecvI) (errno : Errno) {n : Nat} {pending : List UInt8}
    (split : Split n pending) : DrainState :=
  ⟨e, ⟨errno, split.chunks, .again⟩, [], false⟩

/-- The loop over `finished_recv` ends, and it has then read everything exactly when it started
without a stale `EAGAIN` or one chunk is all there is. -/
theorem reads_all_iff {e : RecvI} (h : e.OverTcp) (errno : Errno) {n : Nat}
    {pending : List UInt8} (split : Split n pending) :
    Terminates recvRound untilFinished (pendingState e errno split) ∧
      ((∀ s', Ends recvRound untilFinished (pendingState e errno split) s' →
          s'.received = pending) ↔
        errno ≠ eAgain ∨ split.chunks.length ≤ 1) := by
  obtain ⟨hreads, hconst⟩ := h.reads
  have hends : Terminates recvRound untilFinished (pendingState e errno split) := by
    rw [terminates_map_iff Drain.of_round Drain.of_again]
    exact (Drain.terminates_iff hreads hconst).mpr trivial
  refine ⟨hends, ?_⟩
  by_cases herrno : errno = eAgain
  · have hstale : ∀ s', Ends recvRound untilFinished (pendingState e errno split) s' →
        s'.received = (split.chunks.head?.map Prod.fst).getD [] := fun s' h =>
      Drain.ends_stale hreads hconst rfl herrno (h.map Drain.of_round Drain.of_again)
    constructor
    · intro hall
      obtain ⟨s', hs'⟩ := hends
      exact Or.inr (split.first_iff.mp ((hstale s' hs').symm.trans (hall s' hs')))
    · rintro (hne | hlen) s' hs'
      · exact absurd herrno hne
      · rw [hstale s' hs', split.first_iff.mpr hlen]
  · refine iff_of_true (fun s' hs' => ?_) (Or.inl herrno)
    have hall := Drain.ends_complete hreads hconst rfl herrno
      (hs'.map Drain.of_round Drain.of_again)
    rw [← split.whole]
    exact hall

def connected : RecvI :=
  .client tcp (.active ⟨⟨some 3, AfInet.ipv4.toInt⟩, none, none, false⟩) none

theorem connected_overTcp : connected.OverTcp := ⟨rfl, rfl⟩

/-- Two pending bytes that the kernel hands out one by one. -/
def bytewise : Split 1 [1, 2] where
  chunks := [([1], blankAddr AfInet.ipv4.toInt), ([2], blankAddr AfInet.ipv4.toInt)]
  whole := rfl
  fits := by simp

theorem reads_all_bytewise :
    connected.OverTcp ∧
      Terminates recvRound untilFinished (pendingState connected 0 bytewise) ∧
        ((∀ s', Ends recvRound untilFinished (pendingState connected 0 bytewise) s' →
            s'.received = [1, 2]) ↔ (0 : Errno) ≠ eAgain ∨ bytewise.chunks.length ≤ 1) :=
  ⟨connected_overTcp, reads_all_iff connected_overTcp 0 bytewise⟩

theorem stale_errno_leaves_bytes :
    ¬∀ s', Ends recvRound untilFinished (pendingState connected eAgain bytewise) s' →
      s'.received = [1, 2] := by
  intro h
  exact absurd (h _ (ends_stop rfl)) (by decide)

end TypedSockets.Endpoint
