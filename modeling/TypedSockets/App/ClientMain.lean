import TypedSockets.App.Service
import TypedSockets.Endpoint.Drain
import TypedSockets.Endpoint.OwnEvents

/-! The client program.  Its main loop calls `proceed`, whose `on_read_ready` receives a response
until `finished_recv` says that there is no more, and then sends the line that was typed in. -/

namespace TypedSockets.App

open TypedSockets.Socket TypedSockets.Epoll TypedSockets.Endpoint TypedSockets.Lib

/-- What the program prints. -/
inductive Printed where
  | response (text : List UInt8)
  | disconnect
  | sendError (input : List UInt8)
  deriving DecidableEq

/-- The program between two turns of its main loop.  `printed` holds what it printed, latest first,
and `sent` the bytes that the kernel took. -/
structure ClientMain (proto : Proto) where
  world : World proto
  printed : List Printed
  sent : List UInt8

/-- What one turn of the main loop meets: the events of the poll, what `recv` hands out and what
follows it, `errno` as the other calls left it, the line that `read_line` returns, and the answer to
`send`. -/
structure ClientTurn where
  events : List Event
  chunks : List (List UInt8 × FilledAddr)
  ending : Ending
  errno : Errno
  line : Option (List UInt8)
  ans : Except Errno Nat

namespace ClientMain

variable {proto : Proto}

/-- The functions that the program gives to `connect`, as numbers. -/
def onConnect : Callback := 0

def onReadReady : Callback := 1

def onDisconnect : Callback := 2

/-- They throw nothing. -/
def user : UserCode := fun _ => .ok ()

/-- "127.0.0.1". -/
def loopbackText : List UInt8 := [49, 50, 55, 46, 48, 46, 48, 46, 49]

def connectArgs (remotePort : UInt64) : ConnectArgs :=
  ⟨loopbackText, remotePort, some onConnect, some onReadReady, some onDisconnect⟩

/-- A client just constructed: the constructor is given no function for unhandled events. -/
def constructed (proto : Proto) : World proto :=
  .initial (fun _ => AfInet.ipv4.toInt) fun _ => none

/-- `init`, in a process with one client. -/
def init (pton : InetPton) (proto : Proto) (remotePort : UInt64) (localPort : Option UInt64)
    (ans : Except Errno Fd) (bound : Answer) (added : Bool) (connected : Answer) :
    Bool × World proto :=
  let (started, w) := match localPort with
    | some localPort =>
      (constructed proto).startLocal pton 0 loopbackText localPort ans bound added
    | none => (constructed proto).start 0 ans added
  if started then w.connect pton 0 (connectArgs remotePort) connected (connectArgs remotePort)
  else (false, w)

/-- The main loop with its client connected. -/
def initial (w : World proto) : ClientMain proto := ⟨w, [], []⟩

/-- The client as `recv` and `finished_recv` see it. -/
def recvI (w : World proto) : RecvI := .client proto (w.clients 0).state (w.clients 0).remote

/-- The loop of `on_read_ready`.  It has no outcome when it never ends. -/
def drained (w : World proto) (rx : Rx) : Option DrainState :=
  doWhile recvRound untilFinished (rx.chunks.length + 2) ⟨recvI w, rx, [], false⟩

/-- A function that the handlers call, with what `recv` still hands out. -/
def called (s : ClientMain proto × Rx) : Invocation → Option (ClientMain proto × Rx)
  | .callback _ .onReadReady _ =>
    (drained s.1.world s.2).map fun d =>
      ({ s.1 with printed := .response d.received :: s.1.printed }, d.rx)
  | .callback _ .onDisconnect _ =>
    some ({ s.1 with printed := .disconnect :: s.1.printed }, s.2)
  | _ => some s

/-- The functions that a batch calls, oldest first. -/
def callsOf (before after : World proto) : List Invocation :=
  (after.trace.take (after.trace.length - before.trace.length)).reverse

/-- The call of `proceed`, and what `recv` still hands out after it.  An exception ends the
program. -/
def proceed (s : ClientMain proto) (t : ClientTurn) : Option (ClientMain proto × Rx) :=
  match s.world.proceed user 0 t.events with
  | (.ok _, w) =>
    ((callsOf s.world w).foldlM called
      ({ s with world := w }, ⟨t.errno, t.chunks, t.ending⟩)).map fun out =>
        ({ out.1 with
          world := { out.1.world with kernel := { out.1.world.kernel with errno := out.2.errno } } },
          out.2)
  | (.error _, _) => none

/-- `finished_send_impl`, which is `finished_recv_impl`. -/
def finishedSend (w : World proto) : Bool := (recvI w).finishedRecvImpl w.kernel.errno

def finishedRecv (w : World proto) : Bool := (recvI w).finishedRecvImpl w.kernel.errno

/-- The line that was typed in is sent.  The kernel takes no more than there is. -/
def input (s : ClientMain proto) (line : Option (List UInt8)) (ans : Except Errno Nat) :
    ClientMain proto :=
  match line with
  | none => s
  | some input =>
    match s.world.send 0 input ans with
    | (some sent, _, w) => { s with world := w, sent := s.sent ++ input.take sent }
    | (none, _, w) =>
      if !finishedSend w && !finishedRecv w then
        { s with world := w, printed := .sendError input :: s.printed }
      else { s with world := w }

/-- One turn of the main loop.  It has no outcome when the program ends or hangs. -/
def next (s : ClientMain proto) (t : ClientTurn) : Option (ClientMain proto) :=
  (s.proceed t).map fun out => out.1.input t.line t.ans

/-- The text of the responses, in the order in which they were printed. -/
def text (printed : List Printed) : List UInt8 :=
  printed.reverse.flatMap fun
    | .response text => text
    | _ => []

/-! ### What the loops read -/

/-- The bytes that `recv` hands out. -/
def bytes (chunks : List (List UInt8 × FilledAddr)) : List UInt8 := chunks.flatMap Prod.fst

@[simp] theorem bytes_append (chunks chunks' : List (List UInt8 × FilledAddr)) :
    bytes (chunks ++ chunks') = bytes chunks ++ bytes chunks' :=
  List.flatMap_append

/-- A round adds the chunk that it takes to what was received. -/
theorem recvRound_takes (s : DrainState) :
    ∃ taken, (recvRound s).received = s.received ++ bytes taken ∧
      taken ++ (recvRound s).rx.chunks = s.rx.chunks := by
  obtain ⟨hdata, hrx, -, -⟩ := s.endpoint.recvImpl_spec s.rx
  simp only [recvRound, hdata, hrx]
  by_cases hreads : s.endpoint.reads = true
  · simp only [hreads, if_true, Rx.recv]
    cases hchunks : s.rx.chunks with
    | cons chunk chunks => exact ⟨[chunk], by simp [bytes], rfl⟩
    | nil => cases s.rx.ending <;> exact ⟨[], by simp [bytes], by simp [hchunks]⟩
  · exact ⟨[], by simp [hreads, bytes], by simp [hreads]⟩

/-- A loop adds the chunks that it takes to what was received. -/
theorem doWhile_takes {again : DrainState → Bool} {fuel : Nat} {s s' : DrainState}
    (hrun : doWhile recvRound again fuel s = some s') :
    ∃ taken, s'.received = s.received ++ bytes taken ∧
      taken ++ s'.rx.chunks = s.rx.chunks := by
  refine doWhile_induction (fun u => ∃ taken, u.received = s.received ++ bytes taken ∧
    taken ++ u.rx.chunks = s.rx.chunks) ?_ hrun ⟨[], by simp [bytes], rfl⟩
  rintro u ⟨taken, hreceived, hchunks⟩
  obtain ⟨more, hround, hrest⟩ := recvRound_takes u
  exact ⟨taken ++ more, by rw [hround, hreceived, bytes_append, List.append_assoc],
    by rw [List.append_assoc, hrest, hchunks]⟩

/-- A loop adds to what was received what it takes from what there is to receive. -/
theorem doWhile_got {again : DrainState → Bool} {fuel : Nat} {s s' : DrainState}
    (hrun : doWhile recvRound again fuel s = some s') :
    ∃ got, s'.received = s.received ++ got ∧ got ++ bytes s'.rx.chunks = bytes s.rx.chunks := by
  obtain ⟨taken, hreceived, hchunks⟩ := doWhile_takes hrun
  exact ⟨bytes taken, hreceived, by rw [← hchunks, bytes_append]⟩

theorem text_response (text' : List UInt8) (printed : List Printed) :
    text (.response text' :: printed) = text printed ++ text' := by
  simp [text]

/-- From `s` to `s'` the responses printed are what was received. -/
def Prints (s s' : ClientMain proto × Rx) : Prop :=
  (∃ got, text s'.1.printed = text s.1.printed ++ got ∧
    got ++ bytes s'.2.chunks = bytes s.2.chunks) ∧ s'.1.sent = s.1.sent

theorem Prints.trans {s1 s2 s3 : ClientMain proto × Rx} (h12 : Prints s1 s2) (h23 : Prints s2 s3) :
    Prints s1 s3 := by
  obtain ⟨⟨got, htext, hbytes⟩, hsent⟩ := h12
  obtain ⟨⟨got', htext', hbytes'⟩, hsent'⟩ := h23
  exact ⟨⟨got ++ got', by rw [htext', htext, List.append_assoc],
    by rw [List.append_assoc, hbytes', hbytes]⟩, hsent'.trans hsent⟩

theorem called_prints {s s' : ClientMain proto × Rx} {inv : Invocation}
    (h : called s inv = some s') : Prints s s' := by
  unfold called at h
  split at h
  · obtain ⟨d, hd, rfl⟩ := Option.map_eq_some_iff.mp h
    obtain ⟨got, hreceived, hbytes⟩ := doWhile_got hd
    exact ⟨⟨got, by rw [text_response, hreceived]; rfl, hbytes⟩, rfl⟩
  · cases h
    exact ⟨⟨[], by simp [text], rfl⟩, rfl⟩
  · cases h
    exact ⟨⟨[], by simp, rfl⟩, rfl⟩

theorem fold_prints {calls : List Invocation} {s s' : ClientMain proto × Rx}
    (h : calls.foldlM called s = some s') : Prints s s' := by
  induction calls generalizing s with
  | nil =>
    cases h
    exact ⟨⟨[], by simp, rfl⟩, rfl⟩
  | cons inv calls ih =>
    rw [List.foldlM_cons] at h
    obtain ⟨s1, hcalled, hrest⟩ := Option.bind_eq_some_iff.mp h
    exact (called_prints hcalled).trans (ih hrest)

/-- A turn prints the responses in what it receives, and leaves the rest to be received. -/
theorem proceed_prints {s : ClientMain proto} {t : ClientTurn} {out : ClientMain proto × Rx}
    (h : s.proceed t = some out) :
    (∃ got, text out.1.printed = text s.printed ++ got ∧
      got ++ bytes out.2.chunks = bytes t.chunks) ∧ out.1.sent = s.sent := by
  unfold proceed at h
  split at h
  · obtain ⟨out', hfold, rfl⟩ := Option.map_eq_some_iff.mp h
    exact fold_prints hfold
  · cases h

/-- What is typed in adds to what was sent, and prints no response. -/
theorem input_sent (s : ClientMain proto) (line : Option (List UInt8)) (ans : Except Errno Nat) :
    text (s.input line ans).printed = text s.printed ∧
      ∃ data, (s.input line ans).sent = s.sent ++ data := by
  unfold input
  cases line with
  | none => exact ⟨rfl, [], by simp⟩
  | some input =>
    simp only
    rcases s.world.send 0 input ans with ⟨_ | sent, call, w⟩ <;> simp only
    · split_ifs
      · exact ⟨by simp [text], [], by simp⟩
      · exact ⟨rfl, [], by simp⟩
    · exact ⟨trivial, _, rfl⟩

end ClientMain

end TypedSockets.App
