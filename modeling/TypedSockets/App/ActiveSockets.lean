import Mathlib.Data.List.Nodup
import TypedSockets.Lib.Run
import TypedSockets.Socket.Kernel

/-! `active_sockets` of the server program: a vector of `base_socket`s, each of which holds a
pointer to an object in its own storage.  A move takes the pointer along and copies the bytes. -/

namespace TypedSockets.App

open TypedSockets.Socket TypedSockets.Lib

/-- The storage of a slot: the block that it lies in, numbered in the order of allocation, and its
position there. -/
abbrev Cell := Nat × Nat

/-- The members `socket` and `fd` of a `base_socket`. -/
structure BaseSocket where
  socket : Option Cell
  fd : Fd
  deriving DecidableEq

/-- The objects are numbered as they are made, and `made` of them have been.  `storage` says whose
bytes a cell holds.  `destroyed` holds the objects that the deleter was called on, latest first. -/
structure ActiveSockets where
  block : Nat
  capacity : Nat
  elements : List BaseSocket
  storage : Cell → Option Nat
  made : Nat
  destroyed : List Nat

/-- `onConn` takes the slots that a new block would have to spare. -/
inductive SocketsOp where
  | onConn (fd : Fd) (spare : Nat)
  | eraseAt (i : Nat)
  | eraseFd (fd : Fd)
  | clear

namespace ActiveSockets

def initial : ActiveSockets := ⟨0, 0, [], fun _ => none, 0, []⟩

/-- The constructor of `base_socket`, in the first free slot. -/
def construct (v : ActiveSockets) (fd : Fd) : ActiveSockets :=
  let cell := (v.block, v.elements.length)
  { v with
    elements := v.elements ++ [⟨some cell, fd⟩]
    storage := Function.update v.storage cell (some v.made)
    made := v.made + 1 }

/-- The elements are move constructed in a new block.  The ones that are left have no pointer, so
their destructors do nothing. -/
def relocate (v : ActiveSockets) (capacity : Nat) : ActiveSockets :=
  { v with
    block := v.block + 1
    capacity := capacity
    storage := fun c =>
      if c.1 = v.block + 1 ∧ c.2 < v.elements.length then v.storage (v.block, c.2)
      else v.storage c }

/-- `emplace_back`. -/
def emplaceBack (v : ActiveSockets) (fd : Fd) (spare : Nat) : ActiveSockets :=
  if v.elements.length < v.capacity then v.construct fd
  else (v.relocate (v.elements.length + 1 + spare)).construct fd

/-- `base_socket::deleter` on the pointer of an element. -/
def delete (v : ActiveSockets) (socket : Option Cell) : ActiveSockets :=
  { v with destroyed := (socket.bind v.storage).toList ++ v.destroyed }

/-- The move assignment of element `src` to element `dst`: what `dst` points to is destroyed, and
the pointer, the descriptor and the bytes are taken over. -/
def moveAssign (v : ActiveSockets) (dst src : Nat) : ActiveSockets :=
  match v.elements[dst]?, v.elements[src]? with
  | some d, some s =>
    let v := v.delete d.socket
    { v with
      elements := (v.elements.set dst s).set src ⟨none, s.fd⟩
      storage := Function.update v.storage (v.block, dst) (v.storage (v.block, src)) }
  | _, _ => v

/-- The elements from `n` on are destroyed. -/
def truncate (v : ActiveSockets) (n : Nat) : ActiveSockets :=
  { (v.elements.drop n).foldl (fun v (e : BaseSocket) => v.delete e.socket) v with
    elements := v.elements.take n }

/-- `erase` of the element at `i`, which has to be there: those behind it move up by one. -/
def eraseAt (v : ActiveSockets) (i : Nat) : Option ActiveSockets :=
  if i < v.elements.length then
    let last := v.elements.length - 1
    some (((List.range' i (last - i)).foldl (fun v j => v.moveAssign j (j + 1)) v).truncate last)
  else none

/-- The loop of `std::remove_if` over the positions that are left: each element that stays moves to
`first`. -/
def removeFrom (fd : Fd) : List Nat → Nat → ActiveSockets → ActiveSockets × Nat
  | [], first, v => (v, first)
  | i :: is, first, v =>
    if v.elements[i]?.map BaseSocket.fd = some fd then removeFrom fd is first v
    else removeFrom fd is (first + 1) (v.moveAssign first i)

/-- `std::remove_if` of the elements with the descriptor, and the end that it returns. -/
def removeIf (v : ActiveSockets) (fd : Fd) : ActiveSockets × Nat :=
  let first := v.elements.findIdx fun e : BaseSocket => e.fd = fd
  removeFrom fd (List.range' (first + 1) (v.elements.length - (first + 1))) first v

def next (v : ActiveSockets) : SocketsOp → Option ActiveSockets
  | .onConn fd spare => some (v.emplaceBack fd spare)
  | .eraseAt i => v.eraseAt i
  | .eraseFd fd =>
    let (v, last) := v.removeIf fd
    some (v.truncate last)
  | .clear => some (v.truncate 0)

/-- The objects whose bytes the elements store. -/
def stored (v : ActiveSockets) : List Nat :=
  (List.range v.elements.length).filterMap fun i => v.storage (v.block, i)

/-- Every element points to the object in its own storage. -/
def Own (v : ActiveSockets) : Prop :=
  ∀ (i : Nat) (e : BaseSocket), v.elements[i]? = some e → e.socket = some (v.block, i)

/-- Every element points to its own storage, no two to the same, and every object is either stored
and not destroyed, or destroyed once and not stored. -/
structure Sound (v : ActiveSockets) : Prop where
  own : v.Own
  apart : (v.elements.map BaseSocket.socket).Nodup
  once : ∀ id, v.destroyed.count id + v.stored.count id = if id < v.made then 1 else 0

/-- No element is moved: an insertion finds a free slot or no other element, and no element that
stays stands behind one that goes. -/
def Stays (v : ActiveSockets) : SocketsOp → Prop
  | .onConn _ _ => v.elements.length < v.capacity ∨ v.elements = []
  | .eraseAt i => v.elements.length ≤ i + 1
  | .eraseFd fd => ∀ (i j : Nat) (e e' : BaseSocket), i < j → v.elements[i]? = some e →
      v.elements[j]? = some e' → e.fd = fd → e'.fd = fd
  | .clear => True

/-! ### Insertions and destructions keep the invariant -/

section

variable {v : ActiveSockets}

theorem map_socket (own : v.Own) :
    v.elements.map BaseSocket.socket =
      (List.range v.elements.length).map fun i => some (v.block, i) := by
  refine List.ext_getElem (by simp) fun i hi _ => ?_
  rw [List.length_map] at hi
  rw [List.getElem_map, List.getElem_map, List.getElem_range]
  exact own i _ (List.getElem?_eq_getElem hi)

/-- Elements that point to their own storage point to different ones. -/
theorem Sound.mk' (own : v.Own)
    (once : ∀ id, v.destroyed.count id + v.stored.count id = if id < v.made then 1 else 0) :
    v.Sound := by
  refine ⟨own, ?_, once⟩
  rw [map_socket own]
  refine List.nodup_range.map fun i j h => ?_
  exact (Prod.mk.inj (Option.some.inj h)).2

theorem sound_initial : initial.Sound :=
  .mk' (by simp [Own, initial]) (by simp [initial, stored])

theorem stored_construct (v : ActiveSockets) (fd : Fd) :
    (v.construct fd).stored = v.stored ++ [v.made] := by
  have hold : ∀ i ∈ List.range v.elements.length,
      (v.construct fd).storage (v.block, i) = v.storage (v.block, i) := fun i hi => by
    have hne : (v.block, i) ≠ (v.block, v.elements.length) := fun h =>
      absurd (Prod.mk.inj h).2 (Nat.ne_of_lt (List.mem_range.mp hi))
    exact Function.update_of_ne hne _ _
  have hblock : (v.construct fd).block = v.block := rfl
  have hlength : (v.construct fd).elements.length = v.elements.length + 1 := by simp [construct]
  have hnew : (v.construct fd).storage (v.block, v.elements.length) = some v.made :=
    Function.update_self _ _ _
  rw [stored, hlength, hblock, List.range_succ, List.filterMap_append, List.filterMap_congr hold]
  simp [hnew, stored]

theorem Sound.construct (h : v.Sound) (fd : Fd) : (v.construct fd).Sound := by
  refine .mk' (fun i e he => ?_) fun id => ?_
  · simp only [ActiveSockets.construct] at he ⊢
    rcases Nat.lt_trichotomy i v.elements.length with hlt | heq | hgt
    · rw [List.getElem?_append_left hlt] at he
      exact h.own i e he
    · subst heq
      rw [List.getElem?_concat_length] at he
      cases he
      rfl
    · rw [List.getElem?_eq_none (by simp; omega)] at he
      cases he
  · have honce := h.once id
    have hdestroyed : (v.construct fd).destroyed = v.destroyed := rfl
    have hmade : (v.construct fd).made = v.made + 1 := rfl
    rw [stored_construct, hdestroyed, hmade, List.count_append, List.count_singleton]
    by_cases hid : id = v.made
    · subst hid
      simp only [beq_self_eq_true, if_true, Nat.lt_irrefl, if_false] at honce ⊢
      rw [if_pos (Nat.lt_succ_self _)]
      omega
    · have hbeq : (v.made == id) = false := by simpa using fun heq => hid heq.symm
      have hlt : id < v.made + 1 ↔ id < v.made := by omega
      simp only [hbeq, Bool.false_eq_true, if_false, hlt, Nat.add_zero]
      exact honce

/-- An empty vector has nothing to relocate. -/
theorem Sound.relocate (h : v.Sound) (hnil : v.elements = []) (capacity : Nat) :
    (v.relocate capacity).Sound := by
  refine .mk' (fun i e he => ?_) fun id => ?_
  · have hnil' : (v.relocate capacity).elements = [] := hnil
    rw [hnil'] at he
    cases he
  · have honce := h.once id
    have hstored : (v.relocate capacity).stored = v.stored := by
      simp [stored, ActiveSockets.relocate, hnil]
    rw [hstored]
    exact honce

theorem delete_fold (es : List BaseSocket) (v : ActiveSockets) :
    es.foldl (fun v (e : BaseSocket) => v.delete e.socket) v =
      { v with
        destroyed := (es.filterMap fun e => e.socket.bind v.storage).reverse ++ v.destroyed } := by
  induction es generalizing v with
  | nil => rfl
  | cons e es ih =>
    rw [List.foldl_cons, ih, List.filterMap_cons]
    simp only [delete]
    cases e.socket.bind v.storage <;> simp

/-- Destroying elements that point to their own storage destroys what they store. -/
theorem Sound.truncate (h : v.Sound) (n : Nat) : (v.truncate n).Sound := by
  have hblock : (v.truncate n).block = v.block := by rw [ActiveSockets.truncate, delete_fold]
  have hstorage : (v.truncate n).storage = v.storage := by rw [ActiveSockets.truncate, delete_fold]
  have hmade : (v.truncate n).made = v.made := by rw [ActiveSockets.truncate, delete_fold]
  have helements : (v.truncate n).elements = v.elements.take n := rfl
  refine .mk' (fun i e he => ?_) fun id => ?_
  · rw [hblock]
    rw [helements, List.getElem?_take] at he
    split_ifs at he
    exact h.own i e he
  · have hgone : ((v.elements.drop n).filterMap fun e => e.socket.bind v.storage) =
        ((List.range v.elements.length).drop n).filterMap fun i => v.storage (v.block, i) := by
      have hmap := congrArg (fun l : List (Option Cell) =>
        (l.drop n).filterMap fun socket => socket.bind v.storage) (map_socket h.own)
      simpa only [← List.map_drop, List.filterMap_map, Function.comp_def, Option.bind_some]
        using hmap
    have hdestroyed : (v.truncate n).destroyed =
        (((List.range v.elements.length).drop n).filterMap
          fun i => v.storage (v.block, i)).reverse ++ v.destroyed := by
      rw [← hgone, ActiveSockets.truncate, delete_fold]
    have hstored : (v.truncate n).stored =
        ((List.range v.elements.length).take n).filterMap fun i => v.storage (v.block, i) := by
      rw [stored, hblock, hstorage, helements, List.length_take, List.take_range]
    have hsplit : v.stored =
        (((List.range v.elements.length).take n).filterMap fun i => v.storage (v.block, i)) ++
          ((List.range v.elements.length).drop n).filterMap fun i => v.storage (v.block, i) := by
      rw [← List.filterMap_append, List.take_append_drop, stored]
    have honce := h.once id
    rw [hsplit, List.count_append] at honce
    rw [hdestroyed, hstored, hmade, List.count_append, List.count_reverse]
    omega

/-! ### Moves break it -/

/-- An element that points to the storage of another slot. -/
theorem not_sound_of_moved {i j : Nat} {e : BaseSocket} (h : v.elements[i]? = some e)
    (hsocket : e.socket = some (v.block, j)) (hne : i ≠ j) : ¬v.Sound := fun sound => by
  have hown := sound.own i e h
  rw [hsocket, Option.some_inj, Prod.mk.injEq] at hown
  exact hne hown.2.symm

/-- The same elements at the positions in `p`, in the same block. -/
structure Kept (p : Nat → Prop) (v v' : ActiveSockets) : Prop where
  block : v'.block = v.block
  same : ∀ i, p i → v'.elements[i]? = v.elements[i]?

theorem Kept.refl (p : Nat → Prop) (v : ActiveSockets) : Kept p v v := ⟨rfl, fun _ _ => rfl⟩

theorem Kept.trans {p : Nat → Prop} {v v' v'' : ActiveSockets} (h : Kept p v v')
    (h' : Kept p v' v'') : Kept p v v'' :=
  ⟨h'.block.trans h.block, fun i hi => (h'.same i hi).trans (h.same i hi)⟩

theorem moveAssign_kept (v : ActiveSockets) (dst src : Nat) :
    Kept (fun i => i ≠ dst ∧ i ≠ src) v (v.moveAssign dst src) := by
  unfold moveAssign
  split
  · refine ⟨rfl, fun i hi => ?_⟩
    simp only
    rw [List.getElem?_set_ne hi.2.symm, List.getElem?_set_ne hi.1.symm]
    rfl
  · exact .refl _ v

/-- The pointer of the source is in the destination. -/
theorem moveAssign_dst {dst src : Nat} {d s : BaseSocket} (hd : v.elements[dst]? = some d)
    (hs : v.elements[src]? = some s) (hne : dst ≠ src) :
    (v.moveAssign dst src).elements[dst]? = some s := by
  have hlt : dst < v.elements.length := (List.getElem?_eq_some_iff.mp hd).1
  have helements : (v.moveAssign dst src).elements =
      (v.elements.set dst s).set src ⟨none, s.fd⟩ := by
    simp only [moveAssign, hd, hs]
    rfl
  rw [helements, List.getElem?_set_ne hne.symm, List.getElem?_set_self hlt]

theorem truncate_kept (v : ActiveSockets) (n : Nat) : Kept (· < n) v (v.truncate n) := by
  constructor
  · rw [truncate, delete_fold]
  · intro i hi
    have helements : (v.truncate n).elements = v.elements.take n := rfl
    rw [helements, List.getElem?_take, if_pos hi]

theorem shift_kept (i : Nat) (js : List Nat) (hjs : ∀ j ∈ js, i < j) (v : ActiveSockets) :
    Kept (· = i) v (js.foldl (fun v j => v.moveAssign j (j + 1)) v) := by
  induction js generalizing v with
  | nil => exact .refl _ v
  | cons j js ih =>
    obtain ⟨hfirst, hrest⟩ := List.forall_mem_cons.mp hjs
    have hmove := moveAssign_kept v j (j + 1)
    refine Kept.trans ⟨hmove.block, ?_⟩ (ih hrest _)
    rintro _ rfl
    exact hmove.same _ ⟨by omega, by omega⟩

/-- An element that is erased before the last one takes over the pointer of the one behind it. -/
theorem eraseAt_not_sound (h : v.Sound) {i : Nat} (hi : i + 1 < v.elements.length) :
    ∃ v', v.eraseAt i = some v' ∧ ¬v'.Sound := by
  have hd := List.getElem?_eq_getElem (show i < v.elements.length by omega)
  have hs := List.getElem?_eq_getElem hi
  obtain ⟨n, hn⟩ : ∃ n, v.elements.length - 1 - i = n + 1 := ⟨v.elements.length - 2 - i, by omega⟩
  have hmoved := moveAssign_dst hd hs (by omega)
  have hshift := shift_kept i (List.range' (i + 1) n)
    (fun j hj => by have := List.mem_range'_1.mp hj; omega) (v.moveAssign i (i + 1))
  have hcut := truncate_kept
    ((List.range' (i + 1) n).foldl (fun v j => v.moveAssign j (j + 1)) (v.moveAssign i (i + 1)))
    (v.elements.length - 1)
  have hblock := hcut.block.trans (hshift.block.trans (moveAssign_kept v i (i + 1)).block)
  have helement := (hcut.same i (by omega)).trans ((hshift.same i rfl).trans hmoved)
  refine ⟨_, if_pos (by omega), ?_⟩
  simp only [hn, List.range'_succ, List.foldl_cons]
  refine not_sound_of_moved helement (j := i + 1) ?_ (by omega)
  rw [hblock]
  exact h.own (i + 1) _ hs

/-! ### `std::remove_if` -/

theorem removeFrom_kept (fd : Fd) {j : Nat} (is : List Nat) (his : ∀ i ∈ is, j < i) {first : Nat}
    (hj : j < first) (v : ActiveSockets) :
    Kept (· = j) v (removeFrom fd is first v).1 ∧ first ≤ (removeFrom fd is first v).2 := by
  induction is generalizing first v with
  | nil => exact ⟨.refl _ v, Nat.le_refl _⟩
  | cons i is ih =>
    obtain ⟨hfirst, hrest⟩ := List.forall_mem_cons.mp his
    rw [removeFrom]
    split_ifs with hgoes
    · exact ih hrest hj v
    · obtain ⟨hkept, hle⟩ := ih hrest (show j < first + 1 by omega) (v.moveAssign first i)
      have hmove := moveAssign_kept v first i
      refine ⟨Kept.trans ⟨hmove.block, ?_⟩ hkept, by omega⟩
      rintro _ rfl
      exact hmove.same _ ⟨by omega, by omega⟩

/-- Nothing moves when all that is left goes. -/
theorem removeFrom_all (fd : Fd) (is : List Nat) (first : Nat)
    (h : ∀ i ∈ is, v.elements[i]?.map BaseSocket.fd = some fd) :
    removeFrom fd is first v = (v, first) := by
  induction is with
  | nil => rfl
  | cons i is ih =>
    obtain ⟨hgoes, hrest⟩ := List.forall_mem_cons.mp h
    rw [removeFrom, if_pos hgoes, ih hrest]

/-- The first element that stays moves to `first`, with its pointer. -/
theorem removeFrom_moves (own : v.Own) (fd : Fd) (is : List Nat) {first : Nat} {d : BaseSocket}
    (hd : v.elements[first]? = some d) (his : ∀ i ∈ is, first < i ∧ i < v.elements.length)
    (hstays : ∃ i ∈ is, v.elements[i]?.map BaseSocket.fd ≠ some fd) :
    (removeFrom fd is first v).1.block = v.block ∧ first < (removeFrom fd is first v).2 ∧
      ∃ e i, (removeFrom fd is first v).1.elements[first]? = some e ∧
        e.socket = some (v.block, i) ∧ first ≠ i := by
  induction is with
  | nil =>
    obtain ⟨i, hi, -⟩ := hstays
    cases hi
  | cons i is ih =>
    obtain ⟨⟨hfirst, hlength⟩, hrest⟩ := List.forall_mem_cons.mp his
    rw [removeFrom]
    split_ifs with hgoes
    · refine ih hrest ?_
      obtain ⟨k, hk, hkeeps⟩ := hstays
      rcases List.mem_cons.mp hk with rfl | hk
      · exact absurd hgoes hkeeps
      · exact ⟨k, hk, hkeeps⟩
    · have hs := List.getElem?_eq_getElem hlength
      obtain ⟨hkept, hle⟩ := removeFrom_kept fd is (fun k hk => (hrest k hk).1)
        (Nat.lt_succ_self first) (v.moveAssign first i)
      have hmove := moveAssign_kept v first i
      exact ⟨hkept.block.trans hmove.block, hle, v.elements[i], i,
        (hkept.same first rfl).trans (moveAssign_dst hd hs (by omega)), own i _ hs, by omega⟩

/-- The positions behind the first element that goes. -/
theorem mem_behind {n first i : Nat} :
    i ∈ List.range' (first + 1) (n - (first + 1)) ↔ first < i ∧ i < n := by
  rw [List.mem_range'_1]
  omega

theorem eraseFd_sound_iff (h : v.Sound) (fd : Fd) :
    (∀ v', v.next (.eraseFd fd) = some v' → v'.Sound) ↔ v.Stays (.eraseFd fd) := by
  have hnext : v.next (.eraseFd fd) = some ((v.removeIf fd).1.truncate (v.removeIf fd).2) := rfl
  rw [hnext]
  simp only [Option.some_inj, forall_eq', removeIf]
  generalize hfirst : v.elements.findIdx (fun e : BaseSocket => e.fd = fd) = first
  constructor
  · intro hsound i j e e' hij he he' hgoes
    by_contra hkeeps
    have hi := (List.getElem?_eq_some_iff.mp he).1
    have hj := (List.getElem?_eq_some_iff.mp he').1
    have hle : first ≤ i := by
      by_contra hlt
      have hbefore : i < v.elements.findIdx fun e : BaseSocket => e.fd = fd := by omega
      have hnot := List.not_of_lt_findIdx hbefore
      rw [List.getElem?_eq_getElem hi, Option.some_inj] at he
      rw [he] at hnot
      simp [hgoes] at hnot
    have hd := List.getElem?_eq_getElem (show first < v.elements.length by omega)
    obtain ⟨hblock, hlast, s, k, hs, hsocket, hne⟩ := removeFrom_moves h.own fd
      (List.range' (first + 1) (v.elements.length - (first + 1))) hd (fun k hk => mem_behind.mp hk)
      ⟨j, mem_behind.mpr ⟨by omega, hj⟩, by simpa [he'] using hkeeps⟩
    have hcut := truncate_kept
      (removeFrom fd (List.range' (first + 1) (v.elements.length - (first + 1))) first v).1
      (removeFrom fd (List.range' (first + 1) (v.elements.length - (first + 1))) first v).2
    refine not_sound_of_moved ((hcut.same first hlast).trans hs) (j := k) ?_ hne hsound
    rw [hsocket, hcut.block, hblock]
  · intro hstays
    rw [removeFrom_all fd _ first fun i hi => ?_]
    · exact h.truncate first
    · obtain ⟨hbehind, hlength⟩ := mem_behind.mp hi
      have hfound : (v.elements.findIdx fun e : BaseSocket => e.fd = fd) < v.elements.length := by
        omega
      have hgoes := List.findIdx_getElem (w := hfound)
      have he := List.getElem?_eq_getElem (show first < v.elements.length by omega)
      have he' := List.getElem?_eq_getElem hlength
      simp only [hfirst, decide_eq_true_eq] at hgoes
      rw [he']
      exact congrArg some (hstays first i _ _ hbehind he he' hgoes)

/-- A block that is left takes the storage along that the pointers of its elements lead to. -/
theorem emplaceBack_not_sound (h : v.Sound) (full : ¬v.elements.length < v.capacity)
    (hne : v.elements ≠ []) (fd : Fd) (spare : Nat) : ¬(v.emplaceBack fd spare).Sound := by
  intro sound
  have hpos := List.length_pos_iff.mpr hne
  have he := List.getElem?_eq_getElem hpos
  rw [emplaceBack, if_neg full] at sound
  have helements : ((v.relocate (v.elements.length + 1 + spare)).construct fd).elements[0]? =
      some v.elements[0] := by
    simp only [construct, relocate]
    rw [List.getElem?_append_left hpos, he]
  have hown := sound.own 0 _ helements
  rw [h.own 0 _ he, Option.some_inj, Prod.mk.injEq] at hown
  simp [construct, relocate] at hown

end

/-! ### Runs -/

theorem sound_next_iff (v : ActiveSockets) (op : SocketsOp) (h : v.Sound) :
    (∀ v', v.next op = some v' → v'.Sound) ↔ v.Stays op := by
  cases op with
  | onConn fd spare =>
    have hnext : v.next (.onConn fd spare) = some (v.emplaceBack fd spare) := rfl
    rw [hnext]
    simp only [Option.some_inj, forall_eq', Stays]
    constructor
    · intro hsound
      by_contra hmoves
      rw [not_or] at hmoves
      exact emplaceBack_not_sound h hmoves.1 hmoves.2 fd spare hsound
    · intro hstays
      rw [emplaceBack]
      split_ifs with hfree
      · exact h.construct fd
      · exact (h.relocate (hstays.resolve_left hfree) _).construct fd
  | eraseAt i =>
    constructor
    · intro hsound
      by_contra hmoves
      rw [Stays, not_le] at hmoves
      obtain ⟨v', hnext, hbroken⟩ := eraseAt_not_sound h hmoves
      exact hbroken (hsound v' hnext)
    · intro hstays v' hnext
      rw [Stays] at hstays
      simp only [next, eraseAt] at hnext
      split_ifs at hnext with hi
      cases hnext
      rw [show v.elements.length - 1 - i = 0 by omega]
      exact h.truncate _
  | eraseFd fd => exact eraseFd_sound_iff h fd
  | clear =>
    refine iff_of_true (fun v' hnext => ?_) trivial
    cases hnext
    exact h.truncate 0

/-- The elements refer to their own sockets in every state reached exactly when no element is ever
moved. -/
theorem sound_run (ops : List SocketsOp) :
    Always next Sound initial ops ↔ Along next Stays initial ops :=
  always_iff (fun _ h => h) sound_next_iff
    (fun v op v' h hstays hnext => (sound_next_iff v op h).mpr hstays v' hnext) sound_initial ops

/-- Two connections, and a new block that has room for both. -/
def twoConnections : List SocketsOp := [.onConn 5 0, .onConn 6 0]

/-- The first of two connections points to the storage that it had before the second one came. -/
theorem twoConnections_not_sound :
    (exec next initial twoConnections).map (fun v =>
        (v.block, v.elements.map BaseSocket.socket)) = some (2, [some (1, 0), some (2, 1)]) ∧
      ¬∀ ops, Always next Sound initial ops := by
  have hrun : (exec next initial twoConnections).map (fun v =>
      (v.block, v.elements.map BaseSocket.socket)) = some (2, [some (1, 0), some (2, 1)]) := by
    decide
  refine ⟨hrun, fun h => ?_⟩
  obtain ⟨v, hv, hshape⟩ := Option.map_eq_some_iff.mp hrun
  obtain ⟨hblock, hsockets⟩ := Prod.mk.inj hshape
  have hsound := (h twoConnections).last hv
  have hmap := map_socket hsound.own
  have hlength := congrArg List.length hsockets
  rw [List.length_map] at hlength
  rw [hsockets, hlength, hblock] at hmap
  exact absurd hmap (by decide)

end ActiveSockets

end TypedSockets.App
