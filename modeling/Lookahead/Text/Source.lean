import Lookahead.Text.Position

/-!
# Source texts

A text with the tables that relate its characters to its bytes and its lines.  The tables are
computed once; the proof fields tie them to the characters, so that nothing else has to be said
about a source text than its characters.
-/

namespace Lookahead.Text

/-- The place behind each line break, and the start of the text. -/
def lineStartsOf (chars : List Char) : List Nat :=
  0 :: chars.zipIdx.filterMap fun (c, i) => if c = '\n' then some (i + 1) else none

/-- The byte offset of each character when the first one is at `offset`, and the offset behind the
last one. -/
def offsetsFrom (offset : Nat) : List Char → List Nat
  | [] => [offset]
  | c :: rest => offset :: offsetsFrom (offset + c.utf8Size) rest

/-- The number of bytes of a list of characters. -/
def byteLength : List Char → Nat
  | [] => 0
  | c :: rest => c.utf8Size + byteLength rest

@[simp] theorem byteLength_append (a b : List Char) :
    byteLength (a ++ b) = byteLength a + byteLength b := by
  induction a with
  | nil => simp [byteLength]
  | cons c rest ih => simp [byteLength, ih, Nat.add_assoc]

/-- The text in front of a byte offset and the text from there on, if no character lies across the
offset. -/
def cutAt : Nat → List Char → Option (List Char × List Char)
  | 0, chars => some ([], chars)
  | _ + 1, [] => none
  | n + 1, c :: rest =>
    if c.utf8Size ≤ n + 1 then
      (cutAt (n + 1 - c.utf8Size) rest).map fun (front, back) => (c :: front, back)
    else none

/-- The characters between two byte offsets, if these are in order and no character lies across one
of them. -/
def between (chars : List Char) (start stop : Nat) : Option (List Char) := do
  if stop < start then none
  let (_, back) ← cutAt start chars
  let (middle, _) ← cutAt (stop - start) back
  return middle

@[simp] theorem length_offsetsFrom (offset : Nat) (chars : List Char) :
    (offsetsFrom offset chars).length = chars.length + 1 := by
  induction chars generalizing offset with
  | nil => rfl
  | cons c rest ih => simp [offsetsFrom, ih]

/-- A text and its tables, which are those of its characters. -/
structure Source where
  chars : Array Char
  /-- The place of the first character of each line. -/
  lineStarts : List Nat
  /-- The byte offset of each character, and of the end. -/
  offsets : Array Nat
  lineStarts_eq : lineStarts = lineStartsOf chars.toList
  offsets_eq : offsets.toList = offsetsFrom 0 chars.toList

namespace Source

/-- The source with the given text. -/
def ofString (text : String) : Source :=
  let chars := text.toList
  { chars := chars.toArray, lineStarts := lineStartsOf chars,
    offsets := (offsetsFrom 0 chars).toArray,
    lineStarts_eq := by simp, offsets_eq := by simp }

instance : Inhabited Source := ⟨ofString ""⟩

/-- The text itself. -/
def text (s : Source) : String := String.ofList s.chars.toList

/-- The number of characters. -/
def length (s : Source) : Nat := s.chars.size

/-- The number of bytes. -/
def byteSize (s : Source) : Nat := byteLength s.chars.toList

/-- The byte offset of character `i`; the end of the text past the last one. -/
def byteOffset (s : Source) (i : Nat) : Nat :=
  match s.offsets[i]? with
  | some offset => offset
  | none => s.byteSize

/-- The characters from `first` to `last`, both included, as far as the text reaches.  They are cut
out by their byte offsets; a cut across a character would leave nothing. -/
def slice (s : Source) (first last : Nat) : String :=
  let start := s.byteOffset first
  let stop := max (s.byteOffset (last + 1)) start
  String.ofList ((between s.chars.toList start stop).getD [])

/-- The position of character `i`, from the table of lines. -/
def positionAt (s : Source) (i : Nat) : Position :=
  let starts := s.lineStarts.takeWhile (· ≤ i)
  ⟨starts.length, i - starts.getLastD 0⟩

end Source

end Lookahead.Text
