import Lookahead.Misuse

/-!
# Marks

Marks nest like savepoints.  A stream keeps the positions it may have to return to on a stack, and
hands out a `Mark` for each.  Rewinding a mark pops it together with all newer ones; releasing it
is allowed only while it is the newest.

A mark remembers its depth and a serial number that no other mark of the stream has.  Depths are
used again after a pop, serial numbers are not, so a mark that has been popped stays rejected.
-/

namespace Lookahead

/-- A handle on a saved position. It stays with the caller when the position is no longer saved, and
is refused then. -/
structure Mark where
  /-- Its place on the stack, 0 for the outermost. -/
  depth : Nat
  /-- Its number among all marks that were ever taken on the stream. -/
  serial : Nat
  deriving DecidableEq, Repr, Inhabited

/-- The saved positions of a stream, and the number for the next mark. -/
structure MarkStack (P : Type) where
  /-- The open marks, outermost first: serial number and position. -/
  entries : List (Nat × P)
  /-- The serial number of the next mark. -/
  nextSerial : Nat
  deriving DecidableEq, Repr

namespace MarkStack

variable {P : Type}

/-- The stack of a stream on which no mark was taken. -/
def empty : MarkStack P := ⟨[], 0⟩

instance : Inhabited (MarkStack P) := ⟨empty⟩

/-- The number of open marks. -/
def depth (s : MarkStack P) : Nat := s.entries.length

def isEmpty (s : MarkStack P) : Bool := s.entries.isEmpty

/-- The oldest position that is still saved, if there is one. -/
def outermost (s : MarkStack P) : Option P := s.entries.head?.map Prod.snd

/-- Save a position, and return the mark for it. -/
def push (s : MarkStack P) (position : P) : Mark × MarkStack P :=
  (⟨s.depth, s.nextSerial⟩, ⟨s.entries ++ [(s.nextSerial, position)], s.nextSerial + 1⟩)

theorem depth_push (s : MarkStack P) (p : P) : (s.push p).2.depth = s.depth + 1 := by
  simp [push, depth]

/-- The position saved by an open mark. The depth of the mark says where to look, and its serial
number whether the position found there is still the one that it saved. -/
def lookup (s : MarkStack P) (m : Mark) : Except Misuse P :=
  match s.entries[m.depth]? with
  | some (serial, position) =>
    if serial = m.serial then .ok position else .error (.staleMark m.depth)
  | none => .error (.staleMark m.depth)

theorem lookup_push (s : MarkStack P) (p : P) : (s.push p).2.lookup (s.push p).1 = .ok p := by
  simp [push, lookup, depth]

/-- Taking a mark does not disturb the older ones. -/
theorem lookup_push_of_lt (s : MarkStack P) (p : P) {m : Mark} (h : m.depth < s.depth) :
    (s.push p).2.lookup m = s.lookup m := by
  simp only [push, lookup, List.getElem?_append_left h]

/-- Pop a mark and all newer ones, and return the position that it saved. -/
def rewind (s : MarkStack P) (m : Mark) : Except Misuse (P × MarkStack P) :=
  match s.lookup m with
  | .ok position => .ok (position, { s with entries := s.entries.take m.depth })
  | .error cause => .error cause

/-- Going back to a mark undoes the taking of it, except that its number is not used again. -/
theorem rewind_push (s : MarkStack P) (p : P) :
    (s.push p).2.rewind (s.push p).1 = .ok (p, { s with nextSerial := s.nextSerial + 1 }) := by
  rw [rewind, lookup_push]
  simp [push, depth]

/-- Pop a mark without going back. That is refused unless the mark is the newest one. -/
def release (s : MarkStack P) (m : Mark) : Except Misuse (MarkStack P) :=
  match s.lookup m with
  | .ok _ =>
    if m.depth + 1 = s.depth then .ok { s with entries := s.entries.take m.depth }
    else .error (.releaseOutOfOrder m.depth s.depth)
  | .error cause => .error cause

theorem release_push (s : MarkStack P) (p : P) :
    (s.push p).2.release (s.push p).1 = .ok { s with nextSerial := s.nextSerial + 1 } := by
  rw [release, lookup_push]
  simp [push, depth]

end MarkStack

end Lookahead
