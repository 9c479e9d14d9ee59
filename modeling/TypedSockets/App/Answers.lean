import TypedSockets.App.ServerMain
import TypedSockets.Lib.Run

/-! Whose data a reply of the UDP server program is made of.  An element keeps one string for
everything that it receives, and the address of the last datagram only. -/

namespace TypedSockets.App

open TypedSockets.Socket TypedSockets.Epoll TypedSockets.Endpoint TypedSockets.Lib

/-! ### Replies from the data of their sender -/

/-- The reply is the response to what was received from its destination, and from nobody else. -/
def Reply.Own (r : Reply) : Prop :=
  Service.createResponse r.request = some r.data ∧
    r.request = ServerMain.requestOf (r.taken.filter fun d => d.sender = some r.dest)

namespace ServerMain

def Own (s : ServerMain) : Prop := ∀ r ∈ s.replies, r.Own

/-- The datagrams that have bytes come from the sender of the last one. -/
def FromLast (taken : List Datagram) : Prop :=
  ∀ d ∈ taken, d.bytes ≠ [] → d.sender = lastSender taken

/-- An element that finishes with a request to answer took it from one sender. -/
def OneSender (s : ServerMain) : MainOp → Prop
  | .arrive _ => True
  | .turn events late errno _ => ∀ e, s.elementAfter events = some (some e) → errno = eAgain →
      InRange (requestOf (s.taking e late)) → FromLast (s.taking e late)

/-- Datagrams of one sender, not all of them empty and without a number that is no `int`. -/
structure Answerable (taken : List Datagram) : Prop where
  sender : ∀ d ∈ taken, d.sender = lastSender taken
  nonempty : requestOf taken ≠ []
  inRange : InRange (requestOf taken)

/-- No element is inserted beside another one, and one that finishes has a request to answer. -/
def Separate (s : ServerMain) : MainOp → Prop
  | .arrive _ => True
  | .turn events late errno _ => ∃ element, s.elementAfter events = some element ∧
      ∀ e ∈ element, errno = eAgain → Answerable (s.taking e late)

/-! ### Runs that differ in the data of others -/

/-- The same datagram, up to the bytes of one that `a` did not send. -/
def SameDatagram (a : InAddressPort) (d d' : Datagram) : Prop :=
  d'.1 = d.1 ∧ (d.sender = some a → d' = d)

inductive SameOp (a : InAddressPort) : MainOp → MainOp → Prop where
  | arrive {d d' : Datagram} (same : SameDatagram a d d') : SameOp a (.arrive d) (.arrive d')
  | turn (events : List Event) {late late' : List Datagram}
      (same : List.Forall₂ (SameDatagram a) late late') (errno : Errno) (ans : Except Errno Nat) :
      SameOp a (.turn events late errno ans) (.turn events late' errno ans)

/-- The replies that `a` gets, latest first. -/
def repliesTo (s : ServerMain) (a : InAddressPort) : List (List UInt8) :=
  (s.replies.filter fun r => r.dest = a).map Reply.data

/-- What an element took from the same datagrams. -/
def SameElement (a : InAddressPort) : Option Element → Option Element → Prop
  | none, none => True
  | some e, some e' => List.Forall₂ (SameDatagram a) e.taken e'.taken
  | _, _ => False

/-- States that `a` cannot tell apart. -/
structure Alike (a : InAddressPort) (s s' : ServerMain) : Prop where
  host : s'.host = s.host
  queue : List.Forall₂ (SameDatagram a) s.queue s'.queue
  element : SameElement a s.element s'.element
  replies : s'.repliesTo a = s.repliesTo a

/-! ### One turn -/

/-- The bytes of some of the datagrams are all of them when the others have none. -/
theorem requestOf_filter_iff (p : Datagram → Bool) (ds : List Datagram) :
    requestOf ds = requestOf (ds.filter p) ↔ ∀ d ∈ ds, d.bytes ≠ [] → p d = true := by
  have hle : ∀ ds : List Datagram, (requestOf (ds.filter p)).length ≤ (requestOf ds).length :=
    fun ds => (List.filter_sublist.flatMap Datagram.bytes).length_le
  induction ds with
  | nil => simp [requestOf]
  | cons d ds ih =>
    have hcons : requestOf (d :: ds) = d.bytes ++ requestOf ds := rfl
    rw [List.forall_mem_cons, hcons, List.filter_cons]
    by_cases hp : p d = true
    · have hkept : requestOf (d :: ds.filter p) = d.bytes ++ requestOf (ds.filter p) := rfl
      rw [if_pos hp, hkept, List.append_cancel_left_eq]
      exact ih.trans (and_iff_right fun _ => hp).symm
    · rw [if_neg hp]
      by_cases hempty : d.bytes = []
      · rw [hempty, List.nil_append]
        exact ih.trans (and_iff_right fun h => absurd rfl h).symm
      · refine iff_of_false (fun heq => ?_) fun h => hp (h.1 hempty)
        have hlength := congrArg List.length heq
        have hshort := hle ds
        have hpos := List.length_pos_iff.mpr hempty
        rw [List.length_append] at hlength
        omega

theorem fromLast_iff {taken : List Datagram} {dest : InAddressPort}
    (hlast : lastSender taken = some dest) :
    requestOf taken = requestOf (taken.filter fun d => d.sender = some dest) ↔ FromLast taken := by
  rw [requestOf_filter_iff]
  simp [FromLast, hlast]

theorem lastSender_isSome {taken : List Datagram} (h : requestOf taken ≠ []) :
    ∃ dest, lastSender taken = some dest := by
  cases hlast : taken.getLast? with
  | none =>
    rw [List.getLast?_eq_none_iff.mp hlast] at h
    exact absurd rfl h
  | some d =>
    obtain ⟨dest, hdest⟩ := Option.isSome_iff_exists.mp (sender_isSome d)
    exact ⟨dest, by rw [lastSender, hlast, Option.bind_some, hdest]⟩

/-- The replies stay those of one sender each exactly when a finished element took from one. -/
theorem own_next_iff {s : ServerMain} (running : Running s) (hown : s.Own) (op : MainOp) :
    (∀ s', s.next op = some s' → s'.Own) ↔ s.OneSender op := by
  cases op with
  | arrive d =>
    refine iff_of_true (fun s' hstep => ?_) trivial
    cases hstep
    exact hown
  | turn events late errno ans =>
    rw [next_turn running]
    cases hafter : s.elementAfter events with
    | none => exact iff_of_true (by simp) (by simp [OneSender, hafter])
    | some element =>
      cases element with
      | none =>
        refine iff_of_true (fun s' hstep => ?_) (by simp [OneSender, hafter])
        cases hstep
        exact hown
      | some e =>
        simp only [Option.bind_some, serveTaken]
        by_cases hdone : errno = eAgain ∧ requestOf (s.taking e late) ≠ []
        · rw [if_pos hdone]
          obtain ⟨dest, hlast⟩ := lastSender_isSome hdone.2
          constructor
          · intro hnew e' he' _ hrange
            obtain rfl : e = e' := by simpa [hafter] using he'
            obtain ⟨resp, hresp⟩ := Option.isSome_iff_exists.mp
              ((createResponse_isSome _).mpr hrange)
            rw [hresp] at hnew
            have hreply := hnew _ rfl ⟨dest, requestOf (s.taking e late), resp, s.taking e late⟩
              (by simp [answered, hlast])
            exact (fromLast_iff hlast).mp hreply.2
          · intro hone s' hstep
            obtain ⟨resp, hresp, rfl⟩ := Option.map_eq_some_iff.mp hstep
            have hrange := (createResponse_isSome _).mp (Option.isSome_iff_exists.mpr ⟨resp, hresp⟩)
            have hfrom := hone e hafter hdone.1 hrange
            intro r hr
            simp only [answered, hlast, Option.map_some, Option.toList_some, List.singleton_append,
              List.mem_cons] at hr
            rcases hr with rfl | hold
            · exact ⟨hresp, (fromLast_iff hlast).mpr hfrom⟩
            · exact hown r hold
        · rw [if_neg hdone]
          refine iff_of_true (fun s' hstep => ?_) fun e' he' hagain _ d hd hbytes => ?_
          · cases hstep
            exact hown
          · obtain rfl : e = e' := by simpa [hafter] using he'
            have hempty : requestOf (s.taking e late) = [] := by
              by_contra hne
              exact hdone ⟨hagain, hne⟩
            exact absurd (List.flatMap_eq_nil_iff.mp hempty d hd) hbytes

theorem own_run {s : ServerMain} (running : Running s) (hown : s.Own) (ops : List MainOp) :
    Always ServerMain.next Own s ops ↔ Along ServerMain.next OneSender s ops :=
  always_iff (fun _ (h : Running _ ∧ _) => h.2) (fun _ op h => own_next_iff h.1 h.2 op)
    (fun _ op s' h hone hstep =>
      ⟨running_next h.1 hstep, (own_next_iff h.1 h.2 op).mpr hone s' hstep⟩)
    ⟨running, hown⟩ ops

/-! ### Two turns -/

section

variable {a : InAddressPort}

theorem SameDatagram.sender {d d' : Datagram} (same : SameDatagram a d d') : d'.sender = d.sender :=
  congrArg parseAddr same.1

theorem forall₂_lastSender {ds ds' : List Datagram} (same : List.Forall₂ (SameDatagram a) ds ds') :
    lastSender ds' = lastSender ds := by
  induction same with
  | nil => rfl
  | cons hd _ ih => rw [lastSender_cons, lastSender_cons, ih, hd.sender]

/-- Datagrams that `a` sent are the same. -/
theorem forall₂_eq {ds ds' : List Datagram} (same : List.Forall₂ (SameDatagram a) ds ds')
    (own : ∀ d ∈ ds, d.sender = some a) : ds' = ds := by
  induction same with
  | nil => rfl
  | cons hd _ ih =>
    obtain ⟨hfirst, hrest⟩ := List.forall_mem_cons.mp own
    rw [hd.2 hfirst, ih hrest]

theorem sameElement_insertOrClear {element element' : Option Element}
    (same : SameElement a element element') (action : Action) {next : Option Element}
    (hins : insertOrClear element action = some next) :
    ∃ next', insertOrClear element' action = some next' ∧ SameElement a next next' := by
  cases action with
  | onMessage func =>
    cases element with
    | none =>
      cases element' with
      | none =>
        cases hins
        exact ⟨_, rfl, .nil⟩
      | some e' => exact same.elim
    | some e => cases hins
  | onClose func =>
    cases hins
    exact ⟨none, rfl, trivial⟩
  | _ =>
    cases hins
    exact ⟨element', rfl, same⟩

theorem sameElement_fold (actions : List Action) {element element' next : Option Element}
    (same : SameElement a element element')
    (hfold : actions.foldlM insertOrClear element = some next) :
    ∃ next', actions.foldlM insertOrClear element' = some next' ∧ SameElement a next next' := by
  induction actions generalizing element element' with
  | nil =>
    cases hfold
    exact ⟨element', rfl, same⟩
  | cons action actions ih =>
    rw [List.foldlM_cons] at hfold
    obtain ⟨mid, hmid, hrest⟩ := Option.bind_eq_some_iff.mp hfold
    obtain ⟨mid', hmid', hsame⟩ := sameElement_insertOrClear same action hmid
    obtain ⟨next', hnext', hlast⟩ := ih hsame hrest
    refine ⟨next', ?_, hlast⟩
    rw [List.foldlM_cons, hmid']
    exact hnext'

/-- The kernel after a `send` does not depend on what is sent. -/
theorem sendRef_data (s : ServerMain) (remote : Option InAddressPort) (data data' : List UInt8)
    (ans : Except Errno Nat) : s.sendRef remote data' ans = s.sendRef remote data ans := by
  unfold sendRef
  split
  · simp only [ActiveSocket.send, Socket.SocketImpl.sendTo, Socket.SocketImpl.send]
    split
    · split
      · split
        · split <;> rfl
        · rfl
      · rfl
    · split <;> rfl
  · rfl

theorem elementAfter_alike {s s' : ServerMain} (alike : Alike a s s') (events : List Event)
    {element : Option Element} (h : s.elementAfter events = some element) :
    ∃ element', s'.elementAfter events = some element' ∧ SameElement a element element' := by
  unfold elementAfter at h ⊢
  rw [alike.host]
  exact sameElement_fold _ alike.element h

theorem repliesTo_answered {s : ServerMain} {taken : List Datagram} {dest : InAddressPort}
    (hlast : lastSender taken = some dest) (resp : List UInt8) (ans : Except Errno Nat) :
    (s.answered taken resp ans).repliesTo a =
      if dest = a then resp :: s.repliesTo a else s.repliesTo a := by
  simp only [repliesTo, answered, hlast, Option.map_some, Option.toList_some,
    List.singleton_append, List.filter_cons, decide_eq_true_eq]
  split_ifs <;> rfl

/-- Elements that finish on the same datagrams are answered alike. -/
theorem answered_alike {s s' : ServerMain} (host : s'.host = s.host)
    (replies : s'.repliesTo a = s.repliesTo a) {taken taken' : List Datagram}
    (same : List.Forall₂ (SameDatagram a) taken taken') (hsep : Answerable taken)
    {resp resp' : List UInt8} (hresp : Service.createResponse (requestOf taken) = some resp)
    (hresp' : Service.createResponse (requestOf taken') = some resp') (errno : Errno)
    (ans : Except Errno Nat) :
    Alike a ((s.emptied errno).answered taken resp ans)
      ((s'.emptied errno).answered taken' resp' ans) := by
  obtain ⟨dest, hlast⟩ := lastSender_isSome hsep.nonempty
  have hlast' : lastSender taken' = some dest := (forall₂_lastSender same).trans hlast
  have hhost : (s'.emptied errno).host = (s.emptied errno).host := by simp only [emptied, host]
  refine ⟨?_, .nil, trivial, ?_⟩
  · have hkernel : (s'.emptied errno).sendRef (some dest) resp' ans =
        (s.emptied errno).sendRef (some dest) resp ans := by
      rw [sendRef_data (s'.emptied errno) (some dest) resp resp' ans]
      simp only [sendRef, hhost]
    simp only [answered, hlast, hlast', hkernel, hhost]
  · rw [repliesTo_answered hlast, repliesTo_answered hlast']
    have hreplies : (s'.emptied errno).repliesTo a = (s.emptied errno).repliesTo a := replies
    rw [hreplies]
    by_cases hdest : dest = a
    · -- everything that `a` gets an answer for is its own, and so the same in both runs
      have hown : ∀ d ∈ taken, d.sender = some a := by
        intro d hd
        rw [hsep.sender d hd, hlast, hdest]
      have heq : taken' = taken := forall₂_eq same hown
      rw [heq, hresp] at hresp'
      cases hresp'
      rfl
    · rw [if_neg hdest, if_neg hdest]

theorem serveTaken_alike {s s' : ServerMain} (host : s'.host = s.host)
    (replies : s'.repliesTo a = s.repliesTo a) {taken taken' : List Datagram}
    (same : List.Forall₂ (SameDatagram a) taken taken') {errno : Errno}
    (hsep : errno = eAgain → Answerable taken) (hsep' : errno = eAgain → Answerable taken')
    (ans : Except Errno Nat) :
    ∃ t t', s.serveTaken taken errno ans = some t ∧ s'.serveTaken taken' errno ans = some t' ∧
      Alike a t t' := by
  by_cases hagain : errno = eAgain
  · have hanswerable := hsep hagain
    have hanswerable' := hsep' hagain
    obtain ⟨resp, hresp⟩ := Option.isSome_iff_exists.mp
      ((createResponse_isSome _).mpr hanswerable.inRange)
    obtain ⟨resp', hresp'⟩ := Option.isSome_iff_exists.mp
      ((createResponse_isSome _).mpr hanswerable'.inRange)
    refine ⟨_, _, ?_, ?_, answered_alike host replies same hanswerable hresp hresp' errno ans⟩
    · rw [serveTaken, if_pos ⟨hagain, hanswerable.nonempty⟩, hresp, Option.map_some]
    · rw [serveTaken, if_pos ⟨hagain, hanswerable'.nonempty⟩, hresp', Option.map_some]
  · refine ⟨_, _, if_neg fun h => hagain h.1, if_neg fun h => hagain h.1, ?_⟩
    exact ⟨by simp only [emptied, host], .nil, same, replies⟩

/-- One turn keeps two runs alike. -/
theorem alike_next {s s' : ServerMain} (running : Running s) (running' : Running s')
    (alike : Alike a s s') {op op' : MainOp} (same : SameOp a op op') (hsep : s.Separate op)
    (hsep' : s'.Separate op') :
    ∃ t t', s.next op = some t ∧ s'.next op' = some t' ∧ Alike a t t' := by
  cases same with
  | arrive hdatagram =>
    refine ⟨_, _, rfl, rfl, alike.host, ?_, alike.element, alike.replies⟩
    exact List.rel_append alike.queue (.cons hdatagram .nil)
  | @turn events late late' hlate errno ans =>
    obtain ⟨element, hafter, hfinish⟩ := hsep
    obtain ⟨element', hafter', hfinish'⟩ := hsep'
    obtain ⟨element'', hafter'', hsame⟩ := elementAfter_alike alike events hafter
    obtain rfl : element' = element'' := Option.some_inj.mp (hafter'.symm.trans hafter'')
    have hhost : s'.hostAfter events = s.hostAfter events := by
      rw [hostAfter, alike.host]
      rfl
    have hqueue : List.Forall₂ (SameDatagram a) (s.queue ++ late) (s'.queue ++ late') :=
      List.rel_append alike.queue hlate
    rw [next_turn running, next_turn running', hafter, hafter', Option.bind_some, Option.bind_some]
    cases element with
    | none =>
      cases element' with
      | none => exact ⟨_, _, rfl, rfl, hhost, hqueue, trivial, alike.replies⟩
      | some e' => exact hsame.elim
    | some e =>
      cases element' with
      | none => exact hsame.elim
      | some e' =>
        have htaken : List.Forall₂ (SameDatagram a) (s.taking e late) (s'.taking e' late') :=
          List.rel_append hsame hqueue
        exact @serveTaken_alike a
          { s with host := s.hostAfter events, queue := s.queue ++ late, element := some e }
          { s' with host := s'.hostAfter events, queue := s'.queue ++ late', element := some e' }
          hhost alike.replies _ _ htaken errno (hfinish e rfl) (hfinish' e' rfl) ans

theorem alike_run {s s' : ServerMain} (running : Running s) (running' : Running s')
    (alike : Alike a s s') {ops ops' : List MainOp} (same : List.Forall₂ (SameOp a) ops ops')
    (hsep : Along ServerMain.next Separate s ops) (hsep' : Along ServerMain.next Separate s' ops') :
    ∃ t t', exec ServerMain.next s ops = some t ∧ exec ServerMain.next s' ops' = some t' ∧
      Alike a t t' := by
  induction same generalizing s s' with
  | nil => exact ⟨s, s', rfl, rfl, alike⟩
  | cons hop _ ih =>
    obtain ⟨t, t', hstep, hstep', halike⟩ :=
      alike_next running running' alike hop hsep.1 hsep'.1
    rw [exec_cons, exec_cons, hstep, hstep']
    exact ih (running_next running hstep) (running_next running' hstep') halike
      (hsep.2 t hstep) (hsep'.2 t' hstep')

theorem Alike.refl (s : ServerMain) : Alike a s s := by
  have hsame : ∀ ds : List Datagram, List.Forall₂ (SameDatagram a) ds ds :=
    fun ds => List.forall₂_same.mpr fun d _ => ⟨rfl, fun _ => rfl⟩
  refine ⟨rfl, hsame s.queue, ?_, rfl⟩
  cases s.element with
  | none => trivial
  | some e => exact hsame e.taken

theorem Separate.oneSender {s : ServerMain} {op : MainOp} (hsep : s.Separate op) :
    s.OneSender op := by
  cases op with
  | arrive d => trivial
  | turn events late errno ans =>
    obtain ⟨element, hafter, hfinish⟩ := hsep
    intro e he hagain _ d hd _
    rw [hafter, Option.some_inj] at he
    exact (hfinish e he hagain).sender d hd

end

/-- The program answers every sender from its own datagrams as long as an element that finishes took
from one sender.  When no elements meet either, and each has a request to answer, the data of the
others does not show in the answers. -/
theorem answers_run {pton : InetPton} {localPort : UInt64} {ans : Except Errno Fd} {bound : Answer}
    {added : Bool} (started : (init pton localPort ans bound added).1 = true) :
    let start := initial (init pton localPort ans bound added).2
    (∀ ops, Always ServerMain.next Own start ops ↔ Along ServerMain.next OneSender start ops) ∧
      ∀ a ops ops', List.Forall₂ (SameOp a) ops ops' → Along ServerMain.next Separate start ops →
        Along ServerMain.next Separate start ops' →
        Always ServerMain.next Own start ops ∧
          ∃ s s', exec ServerMain.next start ops = some s ∧
            exec ServerMain.next start ops' = some s' ∧ s'.repliesTo a = s.repliesTo a := by
  intro start
  have running : Running start := running_initial started
  have hown : start.Own := by simp [Own, start, initial]
  refine ⟨own_run running hown, fun a ops ops' same hsep hsep' => ⟨?_, ?_⟩⟩
  · exact (own_run running hown ops).mpr (hsep.mono fun s op => Separate.oneSender)
  · obtain ⟨s, s', hrun, hrun', halike⟩ :=
      alike_run running running (.refl start) same hsep hsep'
    exact ⟨s, s', hrun, hrun', halike.replies⟩

/-- The datagram with one byte that comes from the port. -/
def datagramOf (port : UInt16) (byte : UInt8) : Datagram :=
  (⟨.in4 port fun _ => 0, fun _ => 0⟩, [byte])

/-- Both datagrams wait when the socket becomes readable. -/
def mixedRun (byte : UInt8) : List MainOp :=
  [.arrive (datagramOf 1 byte), .arrive (datagramOf 2 50),
    .turn [⟨3, .readReady⟩] [] eAgain (.ok 1)]

/-- The program once its socket is registered under the handle. -/
def started : ServerMain := initial (init loopbackPton 70 (.ok 3) (.ok ()) true).2

theorem answers_run_loopback :
    (∀ ops, Always ServerMain.next Own started ops ↔
        Along ServerMain.next OneSender started ops) ∧
      ∀ a ops ops', List.Forall₂ (SameOp a) ops ops' → Along ServerMain.next Separate started ops →
        Along ServerMain.next Separate started ops' →
        Always ServerMain.next Own started ops ∧
          ∃ s s', exec ServerMain.next started ops = some s ∧
            exec ServerMain.next started ops' = some s' ∧ s'.repliesTo a = s.repliesTo a :=
  answers_run (by decide)

/-- The second sender is answered with the number of the first one. -/
theorem mixedRun_not_own :
    ¬Always ServerMain.next Own started (mixedRun 49) ∧
      ∃ a, (datagramOf 1 49).sender ≠ some a ∧
        (exec ServerMain.next started (mixedRun 49)).map (fun s => s.repliesTo a) ≠
          (exec ServerMain.next started (mixedRun 51)).map fun s => s.repliesTo a := by
  refine ⟨fun h => ?_, (datagramOf 2 50).sender.get (sender_isSome _), by decide, by decide⟩
  have hown := h.last rfl
  exact absurd (hown _ (List.mem_singleton.mpr rfl)).2 (by decide)

end ServerMain

end TypedSockets.App
