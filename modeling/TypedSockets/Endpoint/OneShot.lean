import TypedSockets.Endpoint.CallOrder

/-! How often `on_connect` and `on_disconnect` are called for one `connect`.  A callback that throws
is not cleared, and the next event that gets to it calls it again. -/

namespace TypedSockets.Endpoint

open TypedSockets.Socket TypedSockets.Epoll TypedSockets.Lib

variable {proto : Proto} (pton : InetPton) (user : UserCode) (c : ClientId)

/-- The handler that calls the callback. -/
def Role.handler : Role → ClientHandler
  | .onConnect => .writeReady
  | .onReadReady => .readReady
  | .onDisconnect => .erase

/-- The callback that is stored. -/
def Client.callback (cl : Client proto) : Role → Option Callback
  | .onConnect => cl.onConnect
  | .onReadReady => cl.onReadReady
  | .onDisconnect => cl.onDisconnect

/-- The callbacks that are cleared once they return. -/
def Role.once : Role → Bool
  | .onReadReady => false
  | _ => true

/-- A client, and how many functions of the user had been called when `connect` returned true
last. -/
structure Armed (proto : Proto) where
  world : World proto
  since : Option Nat

namespace Armed

def initial (af : ClientId → Int) (unhandled : ClientId → Option Callback) : Armed proto :=
  ⟨.initial af unhandled, none⟩

def next (s : Armed proto) (op : ClientOp) : Option (Armed proto) :=
  let (b, w) := s.world.act pton user c op
  some (match op with
    | .connect _ _ _ => ⟨w, if b then some w.trace.length else s.since⟩
    | _ => ⟨w, s.since⟩)

/-- The calls of a callback since the last `connect` that returned true. -/
def count (s : Armed proto) (role : Role) : Nat :=
  (rolesSince c (s.since.getD 0) s.world).count role

/-- `on_connect` and `on_disconnect` are called at most once for each `connect` that returned
true. -/
def AtMostOnce (s : Armed proto) : Prop :=
  ∀ role, role.once = true → s.count c role ≤ if s.since.isSome then 1 else 0

end Armed

/-- The event makes the handler of the callback run, on the own descriptor and while the callback is
stored. -/
def GetsTo (role : Role) (w : World proto) (event : Event) : Prop :=
  event.fd = w.getFd c ∧ ((w.clients c).callback role).isSome ∧
    role.handler ∈ attempted (onFd user c event.fd) (handlersOf (w.clients c).handlers event) w

instance (role : Role) (w : World proto) (event : Event) : Decidable (GetsTo user c role w event) :=
  inferInstanceAs (Decidable (_ ∧ _ ∧ _))

/-- The callbacks of the client that threw since `m` functions of the user were called. -/
def throwsSince (m : Nat) : List Invocation → List Role
  | [] => []
  | inv :: trace =>
    (if m ≤ trace.length ∧ (user (inv :: trace)).isOk = false then (roleOf c inv).toList else []) ++
      throwsSince m trace

/-- No event of a batch gets to a callback that threw before for the same `connect`. -/
def Armed.NotAfterThrow (s : Armed proto) : ClientOp → Prop
  | .proceed events => ∀ m ∈ s.since, Along (eventStep user c)
      (fun w event => ∀ role, role.once = true → GetsTo user c role w event →
        role ∉ throwsSince user c m w.trace) s.world events
  | _ => True

/-! ### One event -/

section

variable {user} {c} {w : World proto}

/-- What a handler of another callback leaves alone. -/
structure Beside (c : ClientId) (role : Role) (w w' : World proto) : Prop where
  fd : w'.getFd c = w.getFd c
  callback : (w'.clients c).callback role = (w.clients c).callback role
  calls : ∃ called, w'.trace = called ++ w.trace ∧ role ∉ called.filterMap (roleOf c)

theorem Beside.quiet {role : Role} {w' : World proto} (clients : w'.clients = w.clients)
    (trace : w'.trace = w.trace) : Beside c role w w' :=
  ⟨by rw [World.getFd, World.getFd, clients], by rw [clients], [], by simpa using trace, by simp⟩

/-- A call of another callback, cleared when it returns. -/
theorem Beside.called {role role' : Role} (h : role ≠ role') {w' : World proto} {func : Callback}
    (fd : w'.getFd c = w.getFd c)
    (callback : (w'.clients c).callback role = (w.clients c).callback role)
    (trace : w'.trace = .callback c role' func :: w.trace) : Beside c role w w' :=
  ⟨fd, callback, [.callback c role' func], trace, by simpa [roleOf] using h⟩

variable (user) in
theorem Beside.invoke {role : Role} {func : ClientHandler} (h : func ≠ role.handler) (fd : Fd)
    (w : World proto) : Beside c role w (w.invoke user c func fd).2 := by
  unfold World.invoke
  split_ifs
  · cases func with
    | erase =>
      have hrole : role ≠ .onDisconnect := by
        rintro rfl
        exact h rfl
      simp only
      split
      · rename_i func' _
        rcases World.callOnce_cases user (w.delSocket c fd) c (.callback c .onDisconnect func')
          (fun cl => { cl with onDisconnect := none }) with hout | hout <;> rw [hout]
        · refine .called hrole (by simp [World.getFd, World.call, World.delSocket]) ?_ rfl
          cases role <;> first | rfl | simp [Client.callback, World.call, World.delSocket] at hrole ⊢
        · exact .called hrole rfl rfl rfl
      · exact .quiet rfl rfl
    | readReady =>
      have hrole : role ≠ .onReadReady := by
        rintro rfl
        exact h rfl
      simp only
      split
      · exact .called hrole rfl rfl rfl
      · exact .quiet rfl rfl
    | writeReady =>
      have hrole : role ≠ .onConnect := by
        rintro rfl
        exact h rfl
      simp only
      split
      · rename_i func' _
        rcases World.callOnce_cases user w c (.callback c .onConnect func')
          (fun cl => { cl with onConnect := none }) with hout | hout <;> rw [hout]
        · refine .called hrole (by simp [World.getFd, World.call]) ?_ rfl
          cases role <;> first | rfl | simp [Client.callback, World.call] at hrole ⊢
        · exact .called hrole rfl rfl rfl
      · exact .quiet rfl rfl
  · exact .quiet rfl rfl

variable (user) in
theorem callOnce_result (w : World proto) (inv : Invocation)
    (clear : Client proto → Client proto) :
    let out := w.callOnce user c inv clear
    out.2.trace = inv :: w.trace ∧
      ((∃ e, out.1 = .error e ∧ user (inv :: w.trace) = .error e) ∨
        out.1 = .ok () ∧ out.2.clients c = clear (w.clients c)) := by
  unfold World.callOnce World.call
  cases user (inv :: w.trace) with
  | error e => exact ⟨rfl, Or.inl ⟨e, rfl, rfl⟩⟩
  | ok => exact ⟨rfl, Or.inr ⟨rfl, by simp⟩⟩

variable (user) in
/-- The handler of a callback that is stored calls it, and clears it when it returns. -/
theorem invoke_stored {role : Role} (once : role.once = true) {fd : Fd} (hfd : fd = w.getFd c)
    {func : Callback} (stored : (w.clients c).callback role = some func) :
    let out := w.invoke user c role.handler fd
    out.2.trace = .callback c role func :: w.trace ∧
      ((∃ e, out.1 = .error e ∧ user (.callback c role func :: w.trace) = .error e) ∨
        out.1 = .ok () ∧ (out.2.clients c).callback role = none) := by
  cases role with
  | onReadReady => cases once
  | onConnect =>
    have hfield : (w.clients c).onConnect = some func := stored
    obtain ⟨htrace, hout⟩ := callOnce_result user w (.callback c .onConnect func)
      fun cl => { cl with onConnect := none }
    simp only [Role.handler, World.invoke, if_pos hfd, hfield]
    exact ⟨htrace, hout.imp id fun hok => ⟨hok.1, by rw [hok.2]; rfl⟩⟩
  | onDisconnect =>
    have hfield : ((w.delSocket c fd).clients c).onDisconnect = some func := stored
    obtain ⟨htrace, hout⟩ := callOnce_result user (w.delSocket c fd)
      (.callback c .onDisconnect func) fun cl => { cl with onDisconnect := none }
    simp only [Role.handler, World.invoke, if_pos hfd, hfield]
    exact ⟨htrace, hout.imp id fun hok => ⟨hok.1, by rw [hok.2]; rfl⟩⟩

variable (user) in
/-- Otherwise it does nothing that a callback could see. -/
theorem invoke_unstored {role : Role} (once : role.once = true) {fd : Fd}
    (h : ¬(fd = w.getFd c ∧ ((w.clients c).callback role).isSome)) :
    let out := w.invoke user c role.handler fd
    out.1 = .ok () ∧ out.2.clients = w.clients ∧ out.2.trace = w.trace := by
  unfold World.invoke
  split_ifs with hfd
  · have hnone : (w.clients c).callback role = none := by simpa [hfd] using h
    cases role with
    | onReadReady => cases once
    | onConnect =>
      have hfield : (w.clients c).onConnect = none := hnone
      simp [Role.handler, hfield]
    | onDisconnect =>
      have hfield : ((w.delSocket c fd).clients c).onDisconnect = none := hnone
      simp only [Role.handler, hfield]
      exact ⟨trivial, rfl, rfl⟩
  · exact ⟨rfl, rfl, rfl⟩

/-- The callback is called `n` times from `w` to `w'`. -/
def Calls (c : ClientId) (role : Role) (n : Nat) (w w' : World proto) : Prop :=
  ∃ called, w'.trace = called ++ w.trace ∧ (called.filterMap (roleOf c)).count role = n

theorem Calls.trans {role : Role} {m n : Nat} {w' w'' : World proto} (h : Calls c role m w w')
    (h' : Calls c role n w' w'') : Calls c role (n + m) w w'' := by
  obtain ⟨before, hbefore, hm⟩ := h
  obtain ⟨after, hafter, hn⟩ := h'
  refine ⟨after ++ before, by rw [hafter, hbefore, List.append_assoc], ?_⟩
  rw [List.filterMap_append, List.count_append, hn, hm]

variable (user) in
/-- A handler calls a callback when it is its own and stored. -/
theorem invoke_calls {role : Role} (once : role.once = true) (func : ClientHandler) (fd : Fd)
    (w : World proto) :
    Calls c role
      (if (fd = w.getFd c ∧ ((w.clients c).callback role).isSome) ∧ func = role.handler then 1
        else 0) w (w.invoke user c func fd).2 := by
  by_cases hfunc : func = role.handler
  · subst hfunc
    by_cases hgets : fd = w.getFd c ∧ ((w.clients c).callback role).isSome
    · obtain ⟨stored, hstored⟩ := Option.isSome_iff_exists.mp hgets.2
      rw [if_pos ⟨hgets, rfl⟩]
      exact ⟨[.callback c role stored], (invoke_stored user once hgets.1 hstored).1,
        by simp [roleOf]⟩
    · rw [if_neg fun h => hgets h.1]
      exact ⟨[], (invoke_unstored user once hgets).2.2, rfl⟩
  · rw [if_neg fun h => hfunc h.2]
    obtain ⟨-, -, before, htrace, hbefore⟩ := Beside.invoke user hfunc fd w
    exact ⟨before, htrace, List.count_eq_zero.mpr hbefore⟩

/-- A handler that returns leaves a callback to those after it unless it is its own. -/
theorem invoke_leaves {role : Role} (once : role.once = true) {func : ClientHandler} {fd : Fd}
    {w' : World proto} (hok : w.invoke user c func fd = (.ok (), w')) :
    fd = w'.getFd c ∧ ((w'.clients c).callback role).isSome ↔
      (fd = w.getFd c ∧ ((w.clients c).callback role).isSome) ∧ func ≠ role.handler := by
  by_cases hfunc : func = role.handler
  · subst hfunc
    by_cases hgets : fd = w.getFd c ∧ ((w.clients c).callback role).isSome
    · obtain ⟨stored, hstored⟩ := Option.isSome_iff_exists.mp hgets.2
      have hcalled := (invoke_stored user once hgets.1 hstored).2
      rw [hok] at hcalled
      obtain ⟨e, he, -⟩ | ⟨-, hcleared⟩ := hcalled
      · cases he
      · simp [hcleared]
    · have hclients := (invoke_unstored user once hgets).2.1
      rw [hok] at hclients
      have hsame : w'.getFd c = w.getFd c := by rw [World.getFd, World.getFd, hclients]
      rw [hsame, hclients]
      exact iff_of_false hgets fun h => hgets h.1
  · have hbeside : Beside c role w (w.invoke user c func fd).2 := .invoke user hfunc fd w
    rw [hok] at hbeside
    rw [hbeside.fd, hbeside.callback]
    exact (and_iff_left hfunc).symm

variable (user) in
/-- Handlers that run one after the other call a callback once when they get to it, and not at all
otherwise. -/
theorem attempt_count {role : Role} (once : role.once = true) (fd : Fd)
    (funcs : List ClientHandler) (w : World proto) :
    Calls c role
      (if (fd = w.getFd c ∧ ((w.clients c).callback role).isSome) ∧
        role.handler ∈ attempted (onFd user c fd) funcs w then 1 else 0) w
      (attempt (onFd user c fd) funcs w).2 := by
  induction funcs generalizing w with
  | nil => exact ⟨[], rfl, by simp⟩
  | cons func funcs ih =>
    have hstep := invoke_calls (c := c) user once func fd w
    rcases act_cases (onFd user c fd) func w with ⟨w', hact⟩ | ⟨e, w', hact⟩
    · have hok : w.invoke user c func fd = (.ok (), w') := hact
      have hall := (hok ▸ hstep).trans (ih w')
      rw [attempt_ok hact, attempted_ok hact]
      simp only [List.mem_cons, invoke_leaves once hok] at hall ⊢
      -- the handlers after its own do not call it again
      by_cases hfunc : func = role.handler
      · simpa [hfunc] using hall
      · simpa [hfunc, Ne.symm hfunc] using hall
    · have hthrow : w.invoke user c func fd = (.error e, w') := hact
      rw [hthrow] at hstep
      rw [attempt_error hact, attempted_error hact]
      simpa only [List.mem_singleton, eq_comm (a := func)] using hstep

/-! ### A batch -/

theorem count_event (h : Registered c w) {m : Nat} (hm : m ≤ w.trace.length) {role : Role}
    (once : role.once = true) (event : Event) :
    (rolesSince c m
        (handleEvent (World.invoke user c) (w.clients c).handlers event w).2).count role =
      (rolesSince c m w).count role + if GetsTo user c role w event then 1 else 0 := by
  obtain ⟨called, htrace, hcount⟩ :=
    attempt_count user once event.fd (handlersOf (w.clients c).handlers event) w
  rw [← handleEvent_run h] at htrace
  rw [rolesSince_append hm htrace, List.count_append, List.filterMap_reverse, List.count_reverse,
    hcount]
  exact congrArg _ (if_congr and_assoc rfl rfl)

/-- Each of the callbacks was called at most once since `m`. -/
def Single (c : ClientId) (m : Nat) (w : World proto) : Prop :=
  ∀ role, role.once = true → (rolesSince c m w).count role ≤ 1

theorem single_event (h : Registered c w) {m : Nat} (hm : m ≤ w.trace.length) (hw : Single c m w)
    (event : Event) :
    Single c m (handleEvent (World.invoke user c) (w.clients c).handlers event w).2 ↔
      ∀ role, role.once = true → GetsTo user c role w event → role ∉ rolesSince c m w := by
  refine forall₂_congr fun role once => ?_
  have hbefore := hw role once
  rw [count_event h hm once, ← List.count_eq_zero]
  split_ifs with hgets
  · simp only [hgets, true_implies]
    omega
  · simp only [hgets, false_implies, iff_true]
    omega

theorem Single.of_suffix {m : Nat} (hm : m ≤ w.trace.length) {w' : World proto}
    (grow : w.trace <:+ w'.trace) (h : Single c m w') : Single c m w := by
  intro role once
  obtain ⟨roles, hroles⟩ := rolesSince_suffix (c := c) hm grow
  have hafter := h role once
  rw [hroles, List.count_append] at hafter
  omega

/-- Over the events of a batch: a callback that was called twice stays so. -/
theorem single_events (h : Registered c w) {m : Nat} (hm : m ≤ w.trace.length) (hw : Single c m w)
    (events : List Event) :
    Single c m (handleEvents (World.invoke user c) (w.clients c).handlers events w).2 ↔
      Along (eventStep user c) (fun w event => ∀ role, role.once = true →
        GetsTo user c role w event → role ∉ rolesSince c m w) w events := by
  induction events generalizing w with
  | nil => exact iff_of_true hw trivial
  | cons event events ih =>
    let v := (handleEvent (World.invoke user c) (w.clients c).handlers event w).2
    have hsame : (v.clients c).handlers = (w.clients c).handlers :=
      (calm_event user w event).handlers c
    have hv : m ≤ v.trace.length := hm.trans (event_suffix _ event w).length_le
    have hrest (hfirst : Single c m v) := ih (registered_congr h hsame) hv hfirst
    rw [hsame] at hrest
    rw [along_cons, ← single_event h hm hw event]
    simp only [eventStep, Option.some.injEq, forall_eq']
    constructor
    · intro hend
      have hfirst : Single c m v := hend.of_suffix hv (events_suffix user c _ events v)
      exact ⟨hfirst, (hrest hfirst).mp hend⟩
    · rintro ⟨hfirst, hothers⟩
      exact (hrest hfirst).mpr hothers

/-- A callback that was called and is still stored threw. -/
def Kept (user : UserCode) (c : ClientId) (m : Nat) (w : World proto) : Prop :=
  m ≤ w.trace.length ∧ ∀ role, role.once = true → ((w.clients c).callback role).isSome →
    role ∈ rolesSince c m w → role ∈ throwsSince user c m w.trace

theorem throwsSince_append (m : Nat) (called trace : List Invocation) {role : Role}
    (h : role ∈ throwsSince user c m trace) : role ∈ throwsSince user c m (called ++ trace) := by
  induction called with
  | nil => exact h
  | cons inv called ih => exact List.mem_append_right _ ih

theorem throwsSince_rolesSince {m : Nat} {role : Role}
    (h : role ∈ throwsSince user c m w.trace) : role ∈ rolesSince c m w := by
  have main : ∀ trace : List Invocation, role ∈ throwsSince user c m trace →
      role ∈ (trace.take (trace.length - m)).reverse.filterMap (roleOf c) := by
    intro trace
    induction trace with
    | nil =>
      intro hmem
      cases hmem
    | cons inv trace ih =>
      intro hmem
      have htake (hle : m ≤ trace.length) : (inv :: trace).take ((inv :: trace).length - m) =
          inv :: trace.take (trace.length - m) := by
        rw [List.length_cons, Nat.succ_sub hle, List.take_succ_cons]
      rcases List.mem_append.mp hmem with hnew | hold
      · split_ifs at hnew with hthrows
        · rw [htake hthrows.1, List.reverse_cons, List.filterMap_append]
          refine List.mem_append_right _ (List.mem_filterMap.mpr ⟨inv, by simp, ?_⟩)
          simpa using hnew
        · cases hnew
      · have hin := ih hold
        by_cases hle : m ≤ trace.length
        · rw [htake hle, List.reverse_cons, List.filterMap_append]
          exact List.mem_append_left _ hin
        · rw [Nat.sub_eq_zero_of_le (by omega)] at hin
          cases hin
  exact main w.trace h

/-- A handler keeps it: its callback throws, or is cleared. -/
theorem kept_invoke {m : Nat} (h : Kept user c m w) (func : ClientHandler) (fd : Fd) :
    Kept user c m (w.invoke user c func fd).2 := by
  obtain ⟨hm, hkept⟩ := h
  refine ⟨hm.trans (invoke_suffix func fd w).length_le, fun role once hstored hmem => ?_⟩
  by_cases hfunc : func = role.handler
  · subst hfunc
    by_cases hgets : fd = w.getFd c ∧ ((w.clients c).callback role).isSome
    · obtain ⟨stored, hcallback⟩ := Option.isSome_iff_exists.mp hgets.2
      obtain ⟨htrace, ⟨e, -, hthrows⟩ | ⟨-, hcleared⟩⟩ :=
        invoke_stored user once hgets.1 hcallback
      · rw [htrace]
        refine List.mem_append_left _ ?_
        rw [hthrows, if_pos ⟨hm, rfl⟩]
        simp [roleOf]
      · rw [hcleared] at hstored
        cases hstored
    · obtain ⟨-, hclients, htrace⟩ := invoke_unstored user once hgets
      rw [hclients] at hstored
      rw [rolesSince, htrace] at hmem
      rw [htrace]
      exact hkept role once hstored hmem
  · obtain ⟨-, hsame, called, htrace, hother⟩ := Beside.invoke user hfunc fd w
    rw [hsame] at hstored
    rw [rolesSince_append hm htrace, List.mem_append] at hmem
    rw [htrace]
    refine throwsSince_append m called w.trace (hkept role once hstored (hmem.resolve_right ?_))
    simpa using hother

theorem kept_event {m : Nat} (h : Kept user c m w) (table : Handlers ClientHandler) (event : Event) :
    Kept user c m (handleEvent (World.invoke user c) table event w).2 :=
  handleEvent_induction (Kept user c m) (fun _ func _ _ hv => kept_invoke hv func event.fd) h

theorem kept_proceed {m : Nat} (h : Kept user c m w) (events : List Event) :
    Kept user c m (w.proceed user c events).2 := by
  refine proceed_induction (Kept user c m) (fun event _ _ hv => kept_event hv _ event) ?_ h
  intro func hfunc missed v hv
  obtain ⟨f, -, rfl⟩ := Option.mem_map.mp hfunc
  obtain ⟨hm, hkept⟩ := hv
  have htrace : (v.call user (.unhandled c f missed)).2.trace = [.unhandled c f missed] ++ v.trace :=
    rfl
  refine ⟨hm.trans (Nat.le_succ _), fun role once hstored hmem => ?_⟩
  rw [rolesSince_append hm htrace] at hmem
  rw [htrace]
  exact throwsSince_append m _ _ (hkept role once hstored (by simpa [roleOf] using hmem))

/-- While what is stored has thrown, it does not matter whether an event gets to a callback that was
called or to one that threw. -/
theorem along_thrown_iff {m : Nat} (h : Kept user c m w) (events : List Event) :
    Along (eventStep user c) (fun w event => ∀ role, role.once = true →
        GetsTo user c role w event → role ∉ rolesSince c m w) w events ↔
      Along (eventStep user c) (fun w event => ∀ role, role.once = true →
        GetsTo user c role w event → role ∉ throwsSince user c m w.trace) w events := by
  have same (v : World proto) (event : Event) (hv : Kept user c m v) :
      (∀ role, role.once = true → GetsTo user c role v event → role ∉ rolesSince c m v) ↔
        ∀ role, role.once = true → GetsTo user c role v event →
          role ∉ throwsSince user c m v.trace :=
    forall₃_congr fun role once hgets =>
      not_congr ⟨hv.2 role once hgets.2.1, throwsSince_rolesSince⟩
  refine along_iff same (fun v event v' hv _ hstep => ?_) h events
  obtain rfl := Option.some.inj hstep
  exact kept_event hv _ event

theorem single_proceed (h : Registered c w) {m : Nat} (hkept : Kept user c m w) (hw : Single c m w)
    (events : List Event) :
    Single c m (w.proceed user c events).2 ↔
      Along (eventStep user c) (fun w event => ∀ role, role.once = true →
        GetsTo user c role w event → role ∉ throwsSince user c m w.trace) w events := by
  rw [← along_thrown_iff hkept, ← single_events h hkept.1 hw]
  rcases proceed_cases user c w events with heq | ⟨func, missed, heq⟩
  · rw [heq]
  · have hlength := hkept.1.trans (events_suffix user c (w.clients c).handlers events w).length_le
    have htrace : (w.proceed user c events).2.trace = [.unhandled c func missed] ++
        (handleEvents (World.invoke user c) (w.clients c).handlers events w).2.trace := by
      rw [heq]
      rfl
    have hsame : rolesSince c m (w.proceed user c events).2 =
        rolesSince c m (handleEvents (World.invoke user c) (w.clients c).handlers events w).2 := by
      rw [rolesSince_append hlength htrace]
      exact List.append_nil _
    simp only [Single, hsame]

/-- No callback is stored, and none was called. -/
def Disarmed (c : ClientId) (w : World proto) : Prop :=
  ∀ role, role.once = true →
    (w.clients c).callback role = none ∧ role ∉ w.trace.filterMap (roleOf c)

theorem disarmed_invoke (h : Disarmed c w) (func : ClientHandler) (fd : Fd) :
    Disarmed c (w.invoke user c func fd).2 := by
  intro role once
  obtain ⟨hnone, hcalls⟩ := h role once
  by_cases hfunc : func = role.handler
  · subst hfunc
    have hunstored : ¬(fd = w.getFd c ∧ ((w.clients c).callback role).isSome) := by simp [hnone]
    obtain ⟨-, hclients, htrace⟩ := invoke_unstored user once hunstored
    rw [hclients, htrace]
    exact ⟨hnone, hcalls⟩
  · obtain ⟨-, hsame, called, htrace, hother⟩ := Beside.invoke user hfunc fd w
    refine ⟨hsame.trans hnone, ?_⟩
    rw [htrace, List.filterMap_append, List.mem_append, not_or]
    exact ⟨hother, hcalls⟩

theorem disarmed_proceed (h : Disarmed c w) (events : List Event) :
    Disarmed c (w.proceed user c events).2 := by
  refine proceed_induction (Disarmed c) ?_ ?_ h
  · intro event _ v hv
    exact handleEvent_induction (Disarmed c) (fun _ func _ _ hu => disarmed_invoke hu func event.fd) hv
  · intro func hfunc missed v hv role once
    obtain ⟨f, -, rfl⟩ := Option.mem_map.mp hfunc
    simpa [World.call, roleOf] using hv role once

/-! ### Runs -/

theorem connectLambda_callback {this : ClientId} {frame : ConnectArgs} {ans : Answer}
    (h : (w.connectLambda pton this c frame ans).1 = false) (role : Role) :
    ((w.connectLambda pton this c frame ans).2.clients c).callback role =
      (w.clients c).callback role := by
  unfold World.connectLambda at h ⊢
  cases hparse : fromStringAndPort pton frame.remoteAddress frame.remotePort with
  | none => rfl
  | some parsed =>
    simp only [hparse] at h ⊢
    rcases hsock : World.connectSock (w.clients c).state parsed ans w.kernel with
      ⟨_ | sock, left, k⟩
    · simp only [World.update_client, ↓reduceIte]
      cases role <;> rfl
    · simp [hsock] at h

/-- Only a `connect` that returns true stores callbacks. -/
theorem act_callback (w : World proto) {op : ClientOp} (quiet : ∀ events, op ≠ .proceed events)
    (refused : ∀ args ans dead, op = .connect args ans dead → (w.act pton user c op).1 = false)
    (role : Role) :
    ((w.act pton user c op).2.clients c).callback role = (w.clients c).callback role := by
  have started (k : Kernel) (fd : Fd) (added : Bool) (new : ClientState proto) :
      ((((({ w with kernel := k } : World proto).registerCbs c).addSocket c fd .readWrite
        added).setState c new).clients c).callback role = (w.clients c).callback role := by
    cases added <;> cases role <;> simp [Client.callback, World.registerCbs, World.addSocket]
  cases op with
  | start ans added =>
    simp only [World.act, World.start]
    split
    · split
      · exact started _ _ _ _
      · rfl
    · rfl
  | startLocal address port ans bound added =>
    simp only [World.act, World.startLocal]
    split
    · split
      · split
        · exact started _ _ _ _
        · rfl
      · rfl
    · rfl
  | connect args ans dead =>
    have hrefused := refused args ans dead rfl
    simp only [World.act, World.connect] at hrefused ⊢
    split at hrefused
    · split at hrefused
      · cases hrefused
      · rfl
    · rfl
    · by_cases hproto : proto.isConnectionless = true
      · rw [if_pos hproto]
      · rw [if_neg hproto] at hrefused ⊢
        exact connectLambda_callback pton hrefused role
    · exact connectLambda_callback pton hrefused role
  | stop => cases role <;> simp [World.act, World.stop, World.unregisterCbs, World.delSocket,
      Client.callback]
  | proceed events => exact absurd rfl (quiet events)

/-- The callback that a `connect` is given. -/
def ConnectArgs.callback (args : ConnectArgs) : Role → Option Callback
  | .onConnect => args.onConnect
  | .onReadReady => args.onReadReady
  | .onDisconnect => args.onDisconnect

theorem setFields_callback (w : World proto) (this : ClientId) (addr : InAddressPort)
    (frame : ConnectArgs) (role : Role) :
    ((w.setFields this addr frame).clients this).callback role = frame.callback role := by
  rw [World.setFields_client, if_pos rfl]
  cases role <;> rfl

theorem connectLambda_stores {this : ClientId} {frame : ConnectArgs} {ans : Answer}
    (h : (w.connectLambda pton this c frame ans).1 = true) (role : Role) :
    ((w.connectLambda pton this c frame ans).2.clients this).callback role =
      frame.callback role := by
  unfold World.connectLambda at h ⊢
  cases hparse : fromStringAndPort pton frame.remoteAddress frame.remotePort with
  | none => simp [hparse] at h
  | some parsed =>
    simp only [hparse] at h ⊢
    rcases hsock : World.connectSock (w.clients c).state parsed ans w.kernel with
      ⟨_ | sock, left, k⟩
    · simp [hsock] at h
    · simp only [World.setState_client, if_pos]
      exact setFields_callback _ this parsed frame role

/-- A `connect` that returns true stores what the static lambdas find in their frame, in the client
that they captured. -/
theorem connect_stores {args : ConnectArgs} {ans : Answer} {dead : ConnectArgs}
    (h : (w.connect pton c args ans dead).1 = true) (role : Role) :
    ((w.connect pton c args ans dead).2.clients (w.statics.getD c)).callback role =
      (if w.statics.isNone then args else dead).callback role := by
  simp only [World.connect] at h ⊢
  split at h
  · split at h
    · exact setFields_callback _ _ _ _ role
    · cases h
  · cases h
  · by_cases hproto : proto.isConnectionless = true
    · rw [if_pos hproto] at h
      cases h
    · rw [if_neg hproto] at h ⊢
      exact connectLambda_stores pton h role
  · exact connectLambda_stores pton h role

variable {s : Armed proto}

/-- The calls of a run that keeps to its condition, up to the state. -/
structure ArmedOnce (user : UserCode) (c : ClientId) (s : Armed proto) : Prop where
  handlers : Registered c s.world
  disarmed : s.since = none → Disarmed c s.world
  since : ∀ m ∈ s.since, Kept user c m s.world ∧ Single c m s.world

theorem ArmedOnce.atMostOnce (h : ArmedOnce user c s) : s.AtMostOnce c := by
  intro role once
  rcases hsince : s.since with _ | m
  · have hnone := List.count_eq_zero.mpr (h.disarmed hsince role once).2
    simp [Armed.count, hsince, rolesSince, hnone]
  · simpa [Armed.count, hsince] using (h.since m hsince).2 role once

/-- A call that stores and calls nothing. -/
theorem ArmedOnce.quiet (h : ArmedOnce user c s) {w : World proto} (handlers : Registered c w)
    (callback : ∀ role, (w.clients c).callback role = (s.world.clients c).callback role)
    (trace : w.trace = s.world.trace) : ArmedOnce user c { s with world := w } := by
  refine ⟨handlers, fun hnone role once => ?_, fun m hm => ?_⟩
  · rw [callback, trace]
    exact h.disarmed hnone role once
  · obtain ⟨⟨hle, hkept⟩, hsingle⟩ := h.since m hm
    have hsame : rolesSince c m w = rolesSince c m s.world := by rw [rolesSince, trace]; rfl
    refine ⟨⟨trace ▸ hle, fun role once => ?_⟩, fun role once => ?_⟩
    · rw [callback, hsame, trace]
      exact hkept role once
    · rw [hsame]
      exact hsingle role once

theorem armedOnce_connect (h : ArmedOnce user c s) (args : ConnectArgs) (ans : Answer)
    (dead : ConnectArgs) {s' : Armed proto}
    (hstep : s.next pton user c (.connect args ans dead) = some s') : ArmedOnce user c s' := by
  let out := s.world.act pton user c (.connect args ans dead)
  have hhandlers : Registered c out.2 := registered_act pton user h.handlers (.connect args ans dead)
  have htrace : out.2.trace = s.world.trace := act_trace pton user s.world (by simp)
  obtain rfl : (⟨out.2, if out.1 then some out.2.trace.length else s.since⟩ : Armed proto) = s' :=
    Option.some.inj hstep
  cases htrue : out.1 with
  | true =>
    refine ⟨hhandlers, fun hnone => ?_, fun m hm => ?_⟩
    · cases hnone
    · obtain rfl : out.2.trace.length = m := Option.some.inj hm
      exact ⟨⟨le_rfl, fun role _ _ hmem => by simp [rolesSince] at hmem⟩,
        fun role _ => by simp [rolesSince]⟩
  | false =>
    refine h.quiet hhandlers (fun role => act_callback pton s.world (by simp) ?_ role) htrace
    intro _ _ _ _
    exact htrue

theorem armedOnce_proceed (h : ArmedOnce user c s) {events : List Event}
    (calm : s.NotAfterThrow user c (.proceed events)) :
    ArmedOnce user c { s with world := (s.world.proceed user c events).2 } := by
  refine ⟨registered_congr h.handlers ((World.Calm.proceed user c s.world events).handlers c),
    fun hnone => disarmed_proceed (h.disarmed hnone) events, fun m hm => ?_⟩
  obtain ⟨hkept, hsingle⟩ := h.since m hm
  exact ⟨kept_proceed hkept events,
    (single_proceed h.handlers hkept hsingle events).mpr (calm m hm)⟩

theorem armedOnce_next (h : ArmedOnce user c s) {op : ClientOp} {s' : Armed proto}
    (calm : s.NotAfterThrow user c op) (hstep : s.next pton user c op = some s') :
    ArmedOnce user c s' := by
  have other (quiet : ∀ events, op ≠ .proceed events)
      (refused : ∀ args ans dead, op ≠ .connect args ans dead) :
      ArmedOnce user c { s with world := (s.world.act pton user c op).2 } :=
    h.quiet (registered_act pton user h.handlers op)
      (fun role => act_callback pton s.world quiet
        (fun args ans dead hop => absurd hop (refused args ans dead)) role)
      (act_trace pton user s.world quiet)
  cases op with
  | connect args ans dead => exact armedOnce_connect pton h args ans dead hstep
  | proceed events =>
    have hproceed := armedOnce_proceed h calm
    have heq : (s.world.act pton user c (.proceed events)).2 = (s.world.proceed user c events).2 :=
      World.act_proceed s.world events
    rw [← heq] at hproceed
    cases hstep
    exact hproceed
  | start ans added =>
    cases hstep
    exact other (by simp) (by simp)
  | startLocal address port ans bound added =>
    cases hstep
    exact other (by simp) (by simp)
  | stop =>
    cases hstep
    exact other (by simp) (by simp)

theorem atMostOnce_iff (h : ArmedOnce user c s) (op : ClientOp) :
    (∀ s', s.next pton user c op = some s' → s'.AtMostOnce c) ↔ s.NotAfterThrow user c op := by
  constructor
  · intro hnext
    cases op with
    | proceed events =>
      intro m hm
      obtain ⟨hkept, hsingle⟩ := h.since m hm
      rw [← single_proceed h.handlers hkept hsingle]
      intro role once
      have hcount : (rolesSince c (s.since.getD 0)
          (s.world.act pton user c (.proceed events)).2).count role ≤
            if s.since.isSome then 1 else 0 := hnext _ rfl role once
      rw [World.act_proceed, Option.mem_def.mp hm] at hcount
      exact hcount
    | _ => trivial
  · exact fun calm s' hstep => (armedOnce_next pton h calm hstep).atMostOnce

end

/-- In every state of a run `on_connect` and `on_disconnect` were called at most once for the last
`connect` that returned true, exactly when no event gets to one of them that threw before. -/
theorem atMostOnce_run (af : ClientId → Int) (unhandled : ClientId → Option Callback)
    (ops : List ClientOp) :
    let initial : Armed proto := Armed.initial af unhandled
    Always (Armed.next pton user c) (Armed.AtMostOnce c) initial ops ↔
      Along (Armed.next pton user c) (Armed.NotAfterThrow user c) initial ops := by
  intro initial
  have start : ArmedOnce user c initial := by
    refine ⟨fun tp func hfunc => ?_, fun _ role _ => ⟨?_, ?_⟩, fun m hm => ?_⟩
    · cases hfunc
    · cases role <;> rfl
    · exact List.not_mem_nil
    · cases hm
  exact always_iff (fun _ h => h.atMostOnce) (fun _ op h => atMostOnce_iff pton h op)
    (fun _ _ _ h => armedOnce_next pton h) start ops

/-- `on_connect` throws whenever it is called. -/
def throwOnConnect : UserCode
  | .callback _ .onConnect _ :: _ => .error (.user 0)
  | _ => .ok ()

/-- Two events that report the descriptor as writable. -/
def writableTwice : List ClientOp :=
  [.start (.ok 3) true, .connect (loopbackArgs 80 1) (.ok ()) (loopbackArgs 80 1),
    .proceed [⟨3, .writeReady⟩], .proceed [⟨3, .writeReady⟩]]

theorem writableTwice_not_once :
    ¬Always (Armed.next loopbackPton throwOnConnect 0) (Armed.AtMostOnce 0)
      (Armed.initial (fun _ => 2) fun _ => none : Armed tcp) writableTwice := by
  intro h
  have hlast := h.last rfl .onConnect rfl
  exact absurd hlast (by decide)

end TypedSockets.Endpoint
