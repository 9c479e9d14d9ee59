import Mathlib.Data.List.TakeWhile
import TypedSockets.Lib.Pipe
import TypedSockets.Lib.Run

/-! `async_stdin`.  `poll` looks at the descriptor, and `std::getline` at a stream that may have
read more of it than the lines that it handed out. -/

namespace TypedSockets.App

open TypedSockets.Lib

def newline : UInt8 := 10

/-- Standard input, a pipe or a file.  `pipe` holds what was typed in and what `std::cin` has read
of it, `buffer` what it has read and not handed out, `good` its state, and `lines` what `read_line`
returned, oldest first. -/
structure AsyncStdin where
  pipe : Pipe UInt8
  closed : Bool
  buffer : List UInt8
  good : Bool
  lines : List (List UInt8)

/-- A read by the stream: what is typed in until it returns, and the number of bytes, less one, that
it asks for. -/
structure StdinRead where
  typed : List UInt8
  count : Nat

/-- A call of `read_line` comes with the reads that the stream makes, and with whether the input is
closed while it waits. -/
inductive StdinOp where
  | type (data : List UInt8)
  | close
  | readLine (reads : List StdinRead) (closes : Bool)

/-- A call of `read_line` during which nothing is typed in and the input is not closed. -/
def StdinOp.Alone : StdinOp → Prop
  | readLine reads closes => (∀ r ∈ reads, r.typed = []) ∧ closes = false
  | _ => False

namespace AsyncStdin

def start : AsyncStdin := ⟨.empty, false, [], true, []⟩

/-- Nothing is typed in after the input is closed. -/
def type (s : AsyncStdin) (data : List UInt8) : Option AsyncStdin :=
  if s.closed ∧ data ≠ [] then none else some { s with pipe := s.pipe.write data }

/-- The stream reads when it has no whole line. -/
def fill (s : AsyncStdin) (r : StdinRead) : Option AsyncStdin :=
  if newline ∈ s.buffer then none
  else (s.type r.typed).bind fun s =>
    if s.pipe.flight = [] then none
    else some { s with
      pipe := s.pipe.take (r.count + 1)
      buffer := s.buffer ++ s.pipe.flight.take (r.count + 1) }

/-- The line that the stream hands out when it need not wait for more. -/
def extract (s : AsyncStdin) : Option (List UInt8 × AsyncStdin) :=
  if newline ∈ s.buffer then
    some (s.buffer.takeWhile (· ≠ newline),
      { s with buffer := (s.buffer.dropWhile (· ≠ newline)).tail })
  else if s.closed ∧ s.pipe.flight = [] then
    some (s.buffer, { s with buffer := [], good := false })
  else none

/-- `std::getline`, which leaves the string empty when the stream has come to its end before. -/
def getline (s : AsyncStdin) (reads : List StdinRead) (closes : Bool) :
    Option (List UInt8 × AsyncStdin) :=
  if s.good then
    (reads.foldlM fill s).bind fun s => extract { s with closed := s.closed || closes }
  else some ([], s)

/-- `poll` reports the descriptor. -/
def Readable (s : AsyncStdin) : Prop := s.pipe.flight ≠ [] ∨ s.closed = true

instance (s : AsyncStdin) : Decidable s.Readable := inferInstanceAs (Decidable (_ ∨ _))

/-- `read_line`.  It has no outcome while `getline` waits. -/
def readLine (s : AsyncStdin) (reads : List StdinRead) (closes : Bool) :
    Option (Option (List UInt8) × AsyncStdin) :=
  if s.Readable then (s.getline reads closes).map fun out => (some out.1, out.2)
  else some (none, s)

def next (s : AsyncStdin) : StdinOp → Option AsyncStdin
  | .type data => s.type data
  | .close => some { s with closed := true }
  | .readLine reads closes =>
    (s.readLine reads closes).map fun out =>
      { out.2 with lines := out.2.lines ++ out.1.toList }

/-- The text of lines. -/
def text (lines : List (List UInt8)) : List UInt8 := lines.flatMap fun line => line ++ [newline]

/-- What the stream has read is the lines that it handed out, and what it has not handed out.  Past
the end the last line is one that may lack its newline, and empty ones follow. -/
structure Kept (s : AsyncStdin) : Prop where
  before : s.good = true → s.pipe.written = text s.lines ++ s.buffer ++ s.pipe.flight ∧
    ∀ line ∈ s.lines, newline ∉ line
  past : s.good = false → ∃ lines last k, s.lines = lines ++ last :: List.replicate k [] ∧
    s.pipe.written = text lines ++ last ∧ ∀ line ∈ last :: lines, newline ∉ line

/-- There is a whole line, and no calls of `read_line` alone hand out anything. -/
def Withheld (s : AsyncStdin) : Prop :=
  newline ∈ s.buffer ++ s.pipe.flight ∧
    ∀ calls, (∀ op ∈ calls, op.Alone) → ∀ s', exec next s calls = some s' → s'.lines = s.lines

/-- A line that was typed in can be had. -/
def Prompt (s : AsyncStdin) : Prop := ¬ s.Withheld

/-- After `op` the next call hands out the first line of the stream. -/
def Resumes (s : AsyncStdin) (op : StdinOp) : Prop :=
  ∃ s', exec next s [op, .readLine [] false] = some s' ∧
    s'.lines = s.lines ++ [s.buffer.takeWhile (· ≠ newline)]

/-- A read that takes all there is gets the end of one line at most. -/
def OneEnd (s : AsyncStdin) (r : StdinRead) : Prop :=
  (s.pipe.flight ++ r.typed).length ≤ r.count + 1 →
    (s.pipe.flight ++ r.typed).count newline ≤ 1

/-- The reads that a call makes while the input stays open. -/
def Piecewise (s : AsyncStdin) : StdinOp → Prop
  | .readLine reads closes => s.Readable → s.closed = false → closes = false →
    (reads.foldlM fill s).isSome → Along fill OneEnd s reads
  | _ => True

/-! ### One call -/

/-- From `s` to `s'` the stream has read. -/
structure Filled (s s' : AsyncStdin) : Prop where
  closed : s'.closed = s.closed
  good : s'.good = s.good
  lines : s'.lines = s.lines
  read : ∃ data, s'.buffer = s.buffer ++ data ∧ s'.pipe.read = s.pipe.read ++ data

theorem Filled.refl (s : AsyncStdin) : Filled s s :=
  ⟨rfl, rfl, rfl, [], (List.append_nil _).symm, (List.append_nil _).symm⟩

theorem Filled.trans {s1 s2 s3 : AsyncStdin} (h12 : Filled s1 s2) (h23 : Filled s2 s3) :
    Filled s1 s3 := by
  obtain ⟨data, hbuffer, hread⟩ := h12.read
  obtain ⟨more, hbuffer', hread'⟩ := h23.read
  exact ⟨h23.closed.trans h12.closed, h23.good.trans h12.good, h23.lines.trans h12.lines,
    data ++ more, by rw [hbuffer', hbuffer, List.append_assoc],
    by rw [hread', hread, List.append_assoc]⟩

theorem type_filled {s s' : AsyncStdin} {data : List UInt8} (h : s.type data = some s') :
    Filled s s' ∧ s'.buffer = s.buffer := by
  unfold type at h
  split_ifs at h
  cases h
  exact ⟨⟨rfl, rfl, rfl, [], (List.append_nil _).symm, (List.append_nil _).symm⟩, rfl⟩

theorem fill_filled {s s' : AsyncStdin} {r : StdinRead} (h : s.fill r = some s') :
    Filled s s' := by
  unfold fill at h
  split_ifs at h
  obtain ⟨u, htype, hread⟩ := Option.bind_eq_some_iff.mp h
  split_ifs at hread
  cases hread
  exact (type_filled htype).1.trans
    ⟨rfl, rfl, rfl, u.pipe.flight.take (r.count + 1), rfl, rfl⟩

theorem fold_filled {reads : List StdinRead} {s s' : AsyncStdin}
    (h : reads.foldlM fill s = some s') : Filled s s' := by
  induction reads generalizing s with
  | nil =>
    cases h
    exact .refl _
  | cons r reads ih =>
    rw [List.foldlM_cons] at h
    obtain ⟨u, hfill, hrest⟩ := Option.bind_eq_some_iff.mp h
    exact (fill_filled hfill).trans (ih hrest)

/-- A buffer with a whole line is that line and what comes after it. -/
theorem first_line {buffer : List UInt8} (h : newline ∈ buffer) :
    buffer.takeWhile (· ≠ newline) ++ newline :: (buffer.dropWhile (· ≠ newline)).tail =
      buffer := by
  induction buffer with
  | nil => cases h
  | cons byte buffer ih =>
    by_cases hbyte : byte = newline
    · simp [hbyte]
    · have hmem : newline ∈ buffer := (List.mem_cons.mp h).resolve_left (Ne.symm hbyte)
      simpa [hbyte] using ih hmem

theorem not_mem_line (buffer : List UInt8) : newline ∉ buffer.takeWhile (· ≠ newline) := by
  intro h
  simpa using List.mem_takeWhile_imp h

theorem text_append (lines : List (List UInt8)) (line : List UInt8) :
    text (lines ++ [line]) = text lines ++ line ++ [newline] := by
  simp [text]

/-! ### Runs -/

/-- `Kept`, in terms of what the stream has read. -/
structure Whole (s : AsyncStdin) : Prop where
  before : s.good = true → s.pipe.read = text s.lines ++ s.buffer ∧
    ∀ line ∈ s.lines, newline ∉ line
  past : s.good = false → s.closed = true ∧ s.buffer = [] ∧
    ∃ lines last k, s.lines = lines ++ last :: List.replicate k [] ∧
      s.pipe.written = text lines ++ last ∧ ∀ line ∈ last :: lines, newline ∉ line

theorem Whole.kept {s : AsyncStdin} (h : Whole s) : Kept s := by
  refine ⟨fun hgood => ?_, fun hbad => (h.past hbad).2.2⟩
  obtain ⟨hread, hlines⟩ := h.before hgood
  exact ⟨by rw [← hread, s.pipe.whole], hlines⟩

theorem whole_start : Whole start := ⟨fun _ => ⟨rfl, by simp [start]⟩, nofun⟩

theorem whole_type {s s' : AsyncStdin} (h : Whole s) {data : List UInt8}
    (hstep : s.type data = some s') : Whole s' := by
  unfold type at hstep
  split_ifs at hstep with hopen
  cases hstep
  refine ⟨h.before, fun hbad => ?_⟩
  obtain ⟨hclosed, hbuffer, lines, last, k, hlines, hwritten, hclean⟩ := h.past hbad
  obtain rfl : data = [] := by
    by_contra hdata
    exact hopen ⟨hclosed, hdata⟩
  exact ⟨hclosed, hbuffer, lines, last, k, hlines,
    by rw [Pipe.write_written, List.append_nil, hwritten], hclean⟩

/-- The line handed out is the first one that was not handed out yet. -/
theorem whole_extract {s : AsyncStdin} (h : Whole s) (good : s.good = true)
    {out : List UInt8 × AsyncStdin} (hextract : s.extract = some out) :
    Whole { out.2 with lines := out.2.lines ++ [out.1] } := by
  obtain ⟨hread, hclean⟩ := h.before good
  unfold extract at hextract
  split_ifs at hextract with hline hend
  · cases hextract
    refine ⟨fun _ => ⟨?_, fun line hmem => ?_⟩, fun hbad => ?_⟩
    · calc s.pipe.read
          = text s.lines ++ s.buffer := hread
        _ = text s.lines ++ (s.buffer.takeWhile (· ≠ newline) ++
              newline :: (s.buffer.dropWhile (· ≠ newline)).tail) := by rw [first_line hline]
        _ = _ := by rw [text_append]; simp
    · rcases List.mem_append.mp hmem with hold | hnew
      · exact hclean line hold
      · rw [List.mem_singleton.mp hnew]
        exact not_mem_line s.buffer
    · rw [show s.good = false from hbad] at good
      cases good
  · cases hextract
    refine ⟨nofun, fun _ => ⟨hend.1, rfl, s.lines, s.buffer, 0, rfl, ?_, fun line hmem => ?_⟩⟩
    · rw [← hread, ← s.pipe.whole, hend.2, List.append_nil]
    · rcases List.mem_cons.mp hmem with rfl | hold
      · exact hline
      · exact hclean line hold

theorem Whole.filled {s s' : AsyncStdin} (h : Whole s) (good : s.good = true)
    (filled : Filled s s') (closes : Bool) : Whole { s' with closed := s'.closed || closes } := by
  obtain ⟨data, hbuffer, hread⟩ := filled.read
  obtain ⟨hwas, hclean⟩ := h.before good
  refine ⟨fun _ => ⟨?_, ?_⟩, fun hbad => ?_⟩
  · simp only [hbuffer, hread, hwas, filled.lines, List.append_assoc]
  · simpa only [filled.lines] using hclean
  · exact absurd ((filled.good.trans good).symm.trans hbad) (by simp)

theorem whole_next {s s' : AsyncStdin} (h : Whole s) {op : StdinOp}
    (hstep : s.next op = some s') : Whole s' := by
  cases op with
  | type data => exact whole_type h hstep
  | close =>
    cases hstep
    exact ⟨h.before, fun hbad => ⟨rfl, (h.past hbad).2⟩⟩
  | readLine reads closes =>
    obtain ⟨out, hread, rfl⟩ := Option.map_eq_some_iff.mp hstep
    unfold readLine at hread
    split_ifs at hread
    · obtain ⟨got, hgetline, rfl⟩ := Option.map_eq_some_iff.mp hread
      unfold getline at hgetline
      split_ifs at hgetline with hgood
      · obtain ⟨u, hfold, hextract⟩ := Option.bind_eq_some_iff.mp hgetline
        have filled := fold_filled hfold
        exact whole_extract (h.filled hgood filled closes) (filled.good.trans hgood) hextract
      · cases hgetline
        refine ⟨fun hbad => absurd hbad hgood, fun hbad => ?_⟩
        obtain ⟨hclosed, hbuffer, lines, last, k, hlines, hwritten, hclean⟩ := h.past hbad
        refine ⟨hclosed, hbuffer, lines, last, k + 1, ?_, hwritten, hclean⟩
        simp [hlines, List.replicate_succ']
    · cases hread
      simpa using h

/-- `read_line` returns the lines in the order in which they were typed in, each of them once, and
after the end of the input nothing but empty ones. -/
theorem lines_run (ops : List StdinOp) : Always next Kept start ops :=
  (Always.of_inv (fun _ _ _ h hstep => whole_next h hstep) whole_start ops).mono fun _ h => h.kept

/-! ### Lines that wait -/

/-- A call that finds nothing in the descriptor changes nothing. -/
theorem next_unreadable {s s' : AsyncStdin} (hidden : ¬ s.Readable) {op : StdinOp}
    (alone : op.Alone) (hstep : s.next op = some s') : s' = s := by
  cases op with
  | type data => exact alone.elim
  | close => exact alone.elim
  | readLine reads closes =>
    simp only [next, readLine, if_neg hidden, Option.map_some, Option.toList_none,
      List.append_nil] at hstep
    exact (Option.some.inj hstep).symm

theorem exec_unreadable {s s' : AsyncStdin} (hidden : ¬ s.Readable) {calls : List StdinOp}
    (hcalls : ∀ op ∈ calls, op.Alone) (hrun : exec next s calls = some s') : s' = s := by
  induction calls with
  | nil => exact (Option.some.inj hrun).symm
  | cons op calls ih =>
    obtain ⟨u, hstep, hrest⟩ := Option.bind_eq_some_iff.mp hrun
    obtain rfl := next_unreadable hidden (hcalls op List.mem_cons_self) hstep
    exact ih (fun op hop => hcalls op (List.mem_cons_of_mem _ hop)) hrest

/-- A call that need not read gets the first line of the stream. -/
theorem readLine_buffered {s : AsyncStdin} (good : s.good = true) (readable : s.Readable)
    (hline : newline ∈ s.buffer) :
    ∃ s', s.next (.readLine [] false) = some s' ∧
      s'.lines = s.lines ++ [s.buffer.takeWhile (· ≠ newline)] := by
  simp [next, readLine, getline, extract, good, readable, hline]

/-- A call that reads all there is gets a line when one is there. -/
theorem readLine_flight {s : AsyncStdin} (good : s.good = true) (hbuffer : newline ∉ s.buffer)
    (hflight : newline ∈ s.pipe.flight) :
    ∃ s', s.next (.readLine [⟨[], s.pipe.flight.length⟩] false) = some s' ∧
      s'.lines = s.lines ++ [(s.buffer ++ s.pipe.flight).takeWhile (· ≠ newline)] := by
  have hsome : s.pipe.flight ≠ [] := List.ne_nil_of_mem hflight
  have readable : s.Readable := Or.inl hsome
  have hmem : newline ∈ s.buffer ++ s.pipe.flight := List.mem_append_right _ hflight
  have hall : s.pipe.flight.take (s.pipe.flight.length + 1) = s.pipe.flight :=
    List.take_of_length_le (Nat.le_succ _)
  simp [next, readLine, getline, fill, type, extract, good, readable, hbuffer, hsome, hall, hflight]

/-- A line that is there comes out when `poll` reports the descriptor. -/
theorem returns_readable {s : AsyncStdin} (readable : s.Readable)
    (hline : newline ∈ s.buffer ++ s.pipe.flight) :
    ∃ (op : StdinOp) (s' : AsyncStdin), op.Alone ∧ s.next op = some s' ∧ s'.lines ≠ s.lines := by
  by_cases good : s.good = true
  · by_cases hbuffer : newline ∈ s.buffer
    · obtain ⟨s', hstep, hlines⟩ := readLine_buffered good readable hbuffer
      exact ⟨.readLine [] false, s', ⟨by simp, rfl⟩, hstep, by simp [hlines]⟩
    · have hflight := (List.mem_append.mp hline).resolve_left hbuffer
      obtain ⟨s', hstep, hlines⟩ := readLine_flight good hbuffer hflight
      exact ⟨.readLine [⟨[], s.pipe.flight.length⟩] false, s', ⟨by simp, rfl⟩, hstep,
        by simp [hlines]⟩
  · -- past the end of the input every call returns an empty line
    exact ⟨.readLine [] false, { s with lines := s.lines ++ [[]] }, ⟨by simp, rfl⟩,
      by simp [next, readLine, getline, good, readable], by simp⟩

/-- A line waits exactly when the stream has it and `poll` does not report the descriptor. -/
theorem withheld_iff {s : AsyncStdin} : s.Withheld ↔ newline ∈ s.buffer ∧ ¬ s.Readable := by
  constructor
  · rintro ⟨hline, hcalls⟩
    have hidden : ¬ s.Readable := by
      intro readable
      obtain ⟨op, s', hop, hstep, hlines⟩ := returns_readable readable hline
      refine hlines (hcalls [op] (by simpa using hop) s' ?_)
      rw [exec_cons, hstep]
      rfl
    have hempty : s.pipe.flight = [] := by
      by_contra hflight
      exact hidden (Or.inl hflight)
    rw [hempty, List.append_nil] at hline
    exact ⟨hline, hidden⟩
  · rintro ⟨hline, hidden⟩
    refine ⟨List.mem_append_left _ hline, fun calls hcalls s' hrun => ?_⟩
    rw [exec_unreadable hidden hcalls hrun]

theorem resumes_readable {s u : AsyncStdin} {op : StdinOp} (hstep : s.next op = some u)
    (hbuffer : u.buffer = s.buffer) (hlines : u.lines = s.lines) (good : u.good = true)
    (readable : u.Readable) (hline : newline ∈ s.buffer) : s.Resumes op := by
  obtain ⟨s', hcall, hreturned⟩ := readLine_buffered good readable (hbuffer ▸ hline)
  refine ⟨s', ?_, by rw [hreturned, hbuffer, hlines]⟩
  rw [exec_cons, hstep, Option.bind_some, exec_cons, hcall]
  rfl

/-- A line that waits comes out once something else is typed in, or the input is closed. -/
theorem resumes_withheld {s : AsyncStdin} (whole : Whole s) (h : s.Withheld) :
    s.Resumes .close ∧ ∀ data, data ≠ [] → s.Resumes (.type data) := by
  obtain ⟨hline, hidden⟩ := withheld_iff.mp h
  have good : s.good = true := by
    by_contra hbad
    have hbuffer := (whole.past (by simpa using hbad)).2.1
    rw [hbuffer] at hline
    cases hline
  have hopen : s.closed = false := by
    by_contra hclosed
    exact hidden (Or.inr (by simpa using hclosed))
  refine ⟨resumes_readable rfl rfl rfl good (Or.inr rfl) hline, fun data hdata => ?_⟩
  have htype : s.next (.type data) = some { s with pipe := s.pipe.write data } := by
    simp [next, type, hopen]
  exact resumes_readable htype rfl rfl good
    (Or.inl fun hnil => hdata (List.append_eq_nil_iff.mp hnil).2) hline

/-! ### What the stream reads at once -/

theorem count_first_line {buffer : List UInt8} (h : newline ∈ buffer) :
    buffer.count newline = 1 + (buffer.dropWhile (· ≠ newline)).tail.count newline := by
  conv_lhs => rw [← first_line h]
  rw [List.count_append, List.count_cons_self, List.count_eq_zero.mpr (not_mem_line buffer)]
  omega

/-- A read of the stream, which has no whole line before it. -/
theorem fill_cases {s s' : AsyncStdin} {r : StdinRead} (h : s.fill r = some s') :
    newline ∉ s.buffer ∧ s'.closed = s.closed ∧
      s'.buffer = s.buffer ++ (s.pipe.flight ++ r.typed).take (r.count + 1) ∧
      s'.pipe.flight = (s.pipe.flight ++ r.typed).drop (r.count + 1) := by
  unfold fill at h
  split_ifs at h with hline
  obtain ⟨u, htype, hread⟩ := Option.bind_eq_some_iff.mp h
  unfold type at htype
  split_ifs at htype
  cases htype
  split_ifs at hread
  cases hread
  exact ⟨hline, rfl, rfl, rfl⟩

/-- The stream has two lines after reads that left nothing exactly when one of the reads got the ends
of both. -/
theorem count_filled {s s' : AsyncStdin} {reads : List StdinRead}
    (h : reads.foldlM fill s = some s') (start : newline ∉ s.buffer) :
    (s'.pipe.flight = [] → s'.buffer.count newline ≤ 1) ↔ Along fill OneEnd s reads := by
  induction reads generalizing s with
  | nil =>
    cases h
    exact iff_of_true (fun _ => by rw [List.count_eq_zero.mpr start]; exact Nat.zero_le 1) trivial
  | cons r reads ih =>
    rw [List.foldlM_cons] at h
    obtain ⟨u, hfill, hrest⟩ := Option.bind_eq_some_iff.mp h
    obtain ⟨-, -, hbuffer, hflight⟩ := fill_cases hfill
    rw [along_cons]
    simp only [hfill, Option.some.injEq, forall_eq']
    by_cases hline : newline ∈ u.buffer
    · -- this read is the last one
      cases reads with
      | cons r' reads =>
        rw [List.foldlM_cons] at hrest
        obtain ⟨v, hfill', -⟩ := Option.bind_eq_some_iff.mp hrest
        exact absurd hline (fill_cases hfill').1
      | nil =>
        cases hrest
        rw [along_nil, and_true, OneEnd, hflight, List.drop_eq_nil_iff]
        refine imp_congr_right fun hall => ?_
        rw [hbuffer, List.take_of_length_le hall, List.count_append, List.count_eq_zero.mpr start,
          Nat.zero_add]
    · rw [ih hrest hline, iff_and_self]
      intro _ hall
      rw [hbuffer, List.take_of_length_le hall] at hline
      rw [List.count_eq_zero.mpr fun hmem => hline (List.mem_append_right _ hmem)]
      exact Nat.zero_le 1

theorem prompt_iff {s : AsyncStdin} : s.Prompt ↔ (newline ∈ s.buffer → s.Readable) := by
  rw [Prompt, withheld_iff, not_and_not_right]

theorem prompt_closed {s : AsyncStdin} (closed : s.closed = true) : s.Prompt :=
  prompt_iff.mpr fun _ => Or.inr closed

/-- The line that is handed out leaves no other one waiting. -/
theorem prompt_extract_iff {s : AsyncStdin} (isOpen : s.closed = false) :
    (∀ out, s.extract = some out →
        Prompt { out.2 with lines := out.2.lines ++ [out.1] }) ↔
      (s.pipe.flight = [] → s.buffer.count newline ≤ 1) := by
  unfold extract
  by_cases hline : newline ∈ s.buffer
  · simp only [if_pos hline, Option.some.injEq, forall_eq', prompt_iff]
    rw [count_first_line hline, ← not_imp_not]
    simp only [Readable, isOpen, Bool.false_eq_true, or_false, not_not, ← List.count_pos_iff]
    refine imp_congr_right fun _ => ?_
    omega
  · rw [if_neg hline, List.count_eq_zero.mpr hline]
    refine iff_of_true (fun out hout => ?_) fun _ => Nat.zero_le 1
    rw [if_neg (by simp [isOpen])] at hout
    cases hout

/-- A call while the input stays open. -/
theorem prompt_readLine_iff {s : AsyncStdin} (good : s.good = true) (isOpen : s.closed = false)
    (readable : s.Readable) (reads : List StdinRead) :
    (∀ s', s.next (.readLine reads false) = some s' → s'.Prompt) ↔
      ((reads.foldlM fill s).isSome → Along fill OneEnd s reads) := by
  simp only [next, readLine, getline, if_pos readable, if_pos good, Bool.or_false]
  cases hfold : reads.foldlM fill s with
  | none => simp
  | some u =>
    have filled := fold_filled hfold
    have hpiece : (u.pipe.flight = [] → u.buffer.count newline ≤ 1) ↔
        Along fill OneEnd s reads := by
      by_cases hline : newline ∈ s.buffer
      · -- the stream reads nothing, and the descriptor is still reported
        cases reads with
        | cons r reads =>
          rw [List.foldlM_cons] at hfold
          obtain ⟨v, hfill, -⟩ := Option.bind_eq_some_iff.mp hfold
          exact absurd hline (fill_cases hfill).1
        | nil =>
          cases hfold
          exact iff_of_true (fun hflight => absurd readable (by simp [Readable, hflight, isOpen]))
            trivial
      · exact count_filled hfold hline
    rw [Option.isSome_some, imp_iff_right rfl, ← hpiece,
      ← prompt_extract_iff (filled.closed.trans isOpen)]
    simp only [Option.bind_some, Option.map_map, Option.map_eq_some_iff, Function.comp_apply,
      Option.toList_some, forall_exists_index, and_imp, forall_apply_eq_imp_iff₂]

theorem closed_next {s s' : AsyncStdin} (whole : Whole s) {reads : List StdinRead} {closes : Bool}
    (readable : s.Readable) (closed : s.closed = true ∨ closes = true)
    (hstep : s.next (.readLine reads closes) = some s') : s'.closed = true := by
  obtain ⟨out, hread, rfl⟩ := Option.map_eq_some_iff.mp hstep
  rw [readLine, if_pos readable] at hread
  obtain ⟨got, hgetline, rfl⟩ := Option.map_eq_some_iff.mp hread
  unfold getline at hgetline
  split_ifs at hgetline with hgood
  · obtain ⟨u, hfold, hextract⟩ := Option.bind_eq_some_iff.mp hgetline
    have hclosed : (u.closed || closes) = true := by
      rw [(fold_filled hfold).closed]
      simpa using closed
    unfold extract at hextract
    split_ifs at hextract <;> cases hextract <;> exact hclosed
  · cases hgetline
    exact (whole.past (by simpa using hgood)).1

theorem prompt_next_iff {s : AsyncStdin} (whole : Whole s) (prompt : s.Prompt) (op : StdinOp) :
    (∀ s', s.next op = some s' → s'.Prompt) ↔ s.Piecewise op := by
  cases op with
  | type data =>
    refine iff_of_true (fun s' hstep => ?_) trivial
    simp only [next, type, Option.ite_none_left_eq_some, Option.some.injEq] at hstep
    obtain ⟨-, rfl⟩ := hstep
    refine prompt_iff.mpr fun hline => (prompt_iff.mp prompt hline).imp_left fun hflight hnil => ?_
    exact hflight (List.append_eq_nil_iff.mp hnil).1
  | close =>
    refine iff_of_true (fun s' hstep => ?_) trivial
    cases hstep
    exact prompt_closed rfl
  | readLine reads closes =>
    by_cases readable : s.Readable
    · by_cases hclosed : s.closed = true ∨ closes = true
      · refine iff_of_true (fun s' hstep => ?_) fun _ isOpen stays => ?_
        · exact prompt_closed (closed_next whole readable hclosed hstep)
        · simp [isOpen, stays] at hclosed
      · obtain ⟨isOpen, rfl⟩ : s.closed = false ∧ closes = false := by simpa using hclosed
        have good : s.good = true := by
          by_contra hbad
          exact absurd (whole.past (by simpa using hbad)).1 (by simp [isOpen])
        rw [prompt_readLine_iff good isOpen readable]
        simp [Piecewise, readable, isOpen]
    · refine iff_of_true (fun s' hstep => ?_) fun readable' => absurd readable' readable
      simp only [next, readLine, if_neg readable, Option.map_some, Option.some.injEq] at hstep
      subst hstep
      rw [prompt_iff] at prompt ⊢
      exact prompt

/-- A line that was typed in can be had at once in every state exactly when no read of the stream
takes all there is with the ends of two lines in it; a line that waits comes out once something else
is typed in, or the input is closed. -/
theorem prompt_run (ops : List StdinOp) :
    (Always next Prompt start ops ↔ Along next Piecewise start ops) ∧
      Always next (fun s => s.Withheld →
        s.Resumes .close ∧ ∀ data, data ≠ [] → s.Resumes (.type data)) start ops := by
  constructor
  · let Inv : AsyncStdin → Prop := fun s => Whole s ∧ s.Prompt
    have begin : Inv start := ⟨whole_start, prompt_iff.mpr fun h => (List.not_mem_nil h).elim⟩
    exact always_iff (fun s (h : Inv s) => h.2) (fun s op h => prompt_next_iff h.1 h.2 op)
      (fun s op s' h piecewise hstep =>
        ⟨whole_next h.1 hstep, (prompt_next_iff h.1 h.2 op).mpr piecewise s' hstep⟩) begin ops
  · exact (Always.of_inv (fun _ _ _ h hstep => whole_next h hstep) whole_start ops).mono
      fun s h => resumes_withheld h

/-- Two lines that come in at once: the second is not handed out until a third comes in. -/
example : ((exec next start [.type [49, newline, 50, newline], .readLine [⟨[], 9⟩] false,
    .readLine [] false]).map lines = some [[49]]) ∧
    (exec next start [.type [49, newline, 50, newline], .readLine [⟨[], 9⟩] false,
      .type [51, newline], .readLine [] false]).map lines = some [[49], [50]] := by
  decide

end AsyncStdin

end TypedSockets.App
