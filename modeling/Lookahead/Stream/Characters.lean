import Lookahead.Stream.Cursor
import Lookahead.Text.Source

/-!
# Character streams

The characters of a text, read by code point.  The stream knows the line and column of its cursor:
a step forward counts them on, a jump looks them up in the table of lines, and a mark keeps them.
-/

namespace Lookahead

/-- A place in a text: the number of the next character, and where that character stands. -/
structure Place where
  /-- The number of characters in front of the place. -/
  index : Nat
  position : Position
  deriving DecidableEq, Repr, Inhabited

/-- The place in front of a text. -/
def Place.start : Place := ⟨0, .start⟩

/-- A text and a cursor in it, with the places that marks have saved. -/
structure CharacterStream where
  source : Text.Source
  place : Place
  marks : MarkStack Place
  /-- The name of the source in messages. -/
  name : String

namespace CharacterStream

/-- The stream at the start of a text, with no mark taken. -/
def ofString (text : String) (name : String) : CharacterStream :=
  { source := .ofString text, place := .start, marks := .empty, name }

/-- The name of a source that was given none. -/
def defaultName : String := "<string>"

/-- The place behind the character at `p`; at the end there is none, and `p` stays. -/
def step (source : Text.Source) (p : Place) : Place :=
  match source.chars[p.index]? with
  | some c => ⟨p.index + 1, p.position.next c⟩
  | none => p

/-- The place in front of character `i`, or the end of a shorter text. Its line is looked up, and
not counted on from the cursor. -/
def placeAt (source : Text.Source) (i : Nat) : Place :=
  let index := min i source.length
  ⟨index, source.positionAt index⟩

/-- The code point of character `i`, or the end of input. -/
def codeAt (s : CharacterStream) (i : Nat) : TokenType :=
  match s.source.chars[i]? with
  | some c => c.toNat
  | none => .eof

/-- The code point `k` places from the cursor.  In front of the text there is none. -/
def lookahead (s : CharacterStream) (k : Int) : TokenType :=
  if 0 < k then s.codeAt (s.place.index + (k - 1).toNat)
  else if k = 0 ∨ s.place.index < k.natAbs then .invalid
  else s.codeAt (s.place.index - k.natAbs)

/-- The current character as a token of its own, at its place in the text; the end of input at the
end. -/
def symbol (s : CharacterStream) : Token :=
  let offset := s.source.byteOffset s.place.index
  match s.source.chars[s.place.index]? with
  | some c =>
    { Token.ofText c.toNat c.toString with
      span := .ofText offset c.toString, position := s.place.position }
  | none => .endOfInput offset s.place.position

instance : Cursor CharacterStream where
  lookahead s k := (s.lookahead k, s)
  consume s := { s with place := step s.source s.place }
  index s := s.place.index
  seek s i := { s with place := placeAt s.source i }
  mark s := let (m, marks) := s.marks.push s.place; (m, { s with marks })
  rewind s m := (s.marks.rewind m).map fun (place, marks) => { s with place, marks }
  release s m := (s.marks.release m).map fun marks => { s with marks }
  markDepth s := s.marks.depth
  sourceName s := s.name
  symbol s := (s.symbol, s)

end CharacterStream

end Lookahead
