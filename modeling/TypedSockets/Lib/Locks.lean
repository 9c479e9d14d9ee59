import Mathlib.Data.Finset.Basic
import Mathlib.Data.Set.Insert

/-! Mutexes, the scopes of one thread that lock them, and sets of threads of which each waits for
another one. -/

namespace TypedSockets.Lib

variable {T : Type*}

/-- A mutex is the thread that owns it. -/
abbrev Mutex (T : Type*) := Option T

def Mutex.lock (m : Mutex T) (t : T) : Option (Mutex T) := if m.isNone then some (some t) else none

theorem Mutex.lock_eq_some {m m' : Mutex T} {t : T} :
    m.lock t = some m' ↔ m = none ∧ m' = some t := by
  cases m <;> simp [Mutex.lock, eq_comm]

/-- A mutex that one thread owns, or that threads share. -/
structure SharedMutex (T : Type*) where
  writer : Option T
  readers : Finset T

namespace SharedMutex

def free : SharedMutex T := ⟨none, ∅⟩

def Owns (m : SharedMutex T) (t : T) : Prop := m.writer = some t ∨ t ∈ m.readers

variable [DecidableEq T]

def lock (m : SharedMutex T) (t : T) : Option (SharedMutex T) :=
  if m.writer.isNone ∧ m.readers = ∅ then some ⟨some t, ∅⟩ else none

def unlock (m : SharedMutex T) : SharedMutex T := { m with writer := none }

def lockShared (m : SharedMutex T) (t : T) : Option (SharedMutex T) :=
  if m.writer.isNone then some { m with readers := insert t m.readers } else none

def unlockShared (m : SharedMutex T) (t : T) : SharedMutex T :=
  { m with readers := m.readers.erase t }

theorem lock_eq_some {m m' : SharedMutex T} {t : T} :
    m.lock t = some m' ↔ m.writer = none ∧ m.readers = ∅ ∧ m' = ⟨some t, ∅⟩ := by
  simp only [lock, Option.isNone_iff_eq_none, Option.ite_none_right_eq_some, Option.some.injEq,
    and_assoc, eq_comm (a := m')]

theorem lockShared_eq_some {m m' : SharedMutex T} {t : T} :
    m.lockShared t = some m' ↔
      m.writer = none ∧ m' = { m with readers := insert t m.readers } := by
  simp only [lockShared, Option.isNone_iff_eq_none, Option.ite_none_right_eq_some,
    Option.some.injEq, eq_comm (a := m')]

end SharedMutex

section OneThread

variable {L α : Type}

/-- What one thread does, with the number of its attempts to lock a mutex that it holds itself. -/
abbrev Tries := StateM Nat

/-- A scope with a lock.  A thread that holds the mutex itself never gets in: the attempt is
counted, and the scope is left out. -/
def scope (locked : Option L) (skipped : α) (body : L → Tries α) : Tries α :=
  match locked with
  | some held => body held
  | none => fun n => (skipped, n + 1)

@[simp] theorem scope_some (held : L) (skipped : α) (body : L → Tries α) :
    scope (some held) skipped body = body held := rfl

@[simp] theorem scope_none (skipped : α) (body : L → Tries α) (n : Nat) :
    (scope none skipped body).run n = (skipped, n + 1) := rfl

end OneThread

variable {L : Type*} (waits holds : T → L → Prop)

/-- Each thread of the set waits for a lock that another thread of the set holds. -/
def CyclicWait (ts : Set T) : Prop :=
  ts.Nonempty ∧ ∀ t ∈ ts, ∃ l, waits t l ∧ ∃ u ∈ ts, u ≠ t ∧ holds u l

variable {waits holds}

/-- Where a thread waits only for locks that rank above those it holds, no threads wait for one
another. -/
theorem not_cyclicWait (rank : L → Nat) (top : Nat) (bounded : ∀ l, rank l ≤ top)
    (ordered : ∀ t l l', holds t l → waits t l' → rank l < rank l') (ts : Set T) :
    ¬CyclicWait waits holds ts := by
  rintro ⟨⟨t, ht⟩, hts⟩
  have climb : ∀ n, ∃ l, ∃ v ∈ ts, holds v l ∧ n ≤ rank l := by
    intro n
    induction n with
    | zero =>
      obtain ⟨l, -, v, hv, -, hholds⟩ := hts t ht
      exact ⟨l, v, hv, hholds, Nat.zero_le _⟩
    | succ n ih =>
      obtain ⟨l, v, hv, hholds, hn⟩ := ih
      obtain ⟨l', hwaits, w, hw, -, hholds'⟩ := hts v hv
      have hrank := ordered v l l' hholds hwaits
      exact ⟨l', w, hw, hholds', by omega⟩
  obtain ⟨l, -, -, -, hn⟩ := climb (top + 1)
  have htop := bounded l
  omega

end TypedSockets.Lib
