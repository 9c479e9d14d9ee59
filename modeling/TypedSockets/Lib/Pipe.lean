import Mathlib.Data.List.Infix

/-! A stream from a writer to a reader, with what is under way between them. -/

namespace TypedSockets.Lib

variable {α : Type*}

/-- What was written, what was read of it, and the rest, in order. -/
structure Pipe (α : Type*) where
  written : List α
  read : List α
  flight : List α
  whole : read ++ flight = written

namespace Pipe

theorem whole_write {read flight written : List α} (h : read ++ flight = written)
    (data : List α) : read ++ (flight ++ data) = written ++ data := by
  rw [← List.append_assoc, h]

theorem whole_take {read flight written : List α} (h : read ++ flight = written) (n : Nat) :
    read ++ flight.take n ++ flight.drop n = written := by
  rw [List.append_assoc, List.take_append_drop, h]

def empty : Pipe α := ⟨[], [], [], rfl⟩

def write (p : Pipe α) (data : List α) : Pipe α :=
  ⟨p.written ++ data, p.read, p.flight ++ data, whole_write p.whole data⟩

/-- The reader takes `n` elements, or all there are. -/
def take (p : Pipe α) (n : Nat) : Pipe α :=
  ⟨p.written, p.read ++ p.flight.take n, p.flight.drop n, whole_take p.whole n⟩

@[simp] theorem write_written (p : Pipe α) (data : List α) :
    (p.write data).written = p.written ++ data := rfl

@[simp] theorem write_read (p : Pipe α) (data : List α) : (p.write data).read = p.read := rfl

@[simp] theorem write_flight (p : Pipe α) (data : List α) :
    (p.write data).flight = p.flight ++ data := rfl

@[simp] theorem take_written (p : Pipe α) (n : Nat) : (p.take n).written = p.written := rfl

@[simp] theorem take_read (p : Pipe α) (n : Nat) :
    (p.take n).read = p.read ++ p.flight.take n := rfl

@[simp] theorem take_flight (p : Pipe α) (n : Nat) : (p.take n).flight = p.flight.drop n := rfl

/-- A reader that is handed some of what is under way and leaves the end of it takes the rest. -/
theorem take_handed (p : Pipe α) {got left : List α} (h : got ++ left <+: p.flight) :
    (p.take got.length).read = p.read ++ got := by
  obtain ⟨rest, hrest⟩ := h
  rw [take_read, ← hrest, List.append_assoc, List.take_left]

end Pipe

end TypedSockets.Lib
