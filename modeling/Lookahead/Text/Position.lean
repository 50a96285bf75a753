/-!
# Positions and spans

Where something stands in a text: a `Span` in bytes for tools, and a `Position` in lines and
columns for readers.  A position moves over one character at a time; `Position.past` moves it over
a whole text.
-/

namespace Lookahead

/-- The largest number that fits a machine word of 64 bits.  Places are counted in machine words, so
that there is no place behind this one. -/
def largestWord : Nat := 0xFFFFFFFFFFFFFFFF

/-- A half-open range of bytes: the one at `start` belongs to it, the one at `stop` does not. -/
structure Span where
  start : Nat
  stop : Nat
  deriving DecidableEq, Repr, Inhabited

/-- The span without bytes at an offset. -/
def Span.emptyAt (offset : Nat) : Span := ⟨offset, offset⟩

/-- The span of a text that starts at an offset. -/
def Span.ofText (offset : Nat) (text : String) : Span := ⟨offset, offset + text.utf8ByteSize⟩

/-- A place between characters: the line counts from 1, the column from 0 and in characters. -/
structure Position where
  line : Nat
  /-- The number of characters in front of the place on its line. -/
  column : Nat
  deriving DecidableEq, Repr, Inhabited

namespace Position

/-- The place in front of a text: line 1, column 0. -/
def start : Position := ⟨1, 0⟩

/-- The place behind one more character. Only a line feed ends a line. -/
def next (p : Position) (c : Char) : Position :=
  if c = '\n' then ⟨p.line + 1, 0⟩ else ⟨p.line, p.column + 1⟩

/-- The place behind a text that starts at `p`. -/
def past (p : Position) (text : List Char) : Position := text.foldl next p

@[simp] theorem past_nil (p : Position) : p.past [] = p := rfl

@[simp] theorem past_cons (p : Position) (c : Char) (text : List Char) :
    p.past (c :: text) = (p.next c).past text := rfl

theorem past_append (p : Position) (a b : List Char) : p.past (a ++ b) = (p.past a).past b :=
  List.foldl_append

end Position

end Lookahead
