import Lookahead.Stream.Source
import Lookahead.Text.Source

/-!
# Scanners

The quickest way from a text to tokens.  A scanner finds one piece of the text after another, and
knows the bytes of a piece and the kind of token that it makes.  `Scanner` makes tokens of these
finds.  Lines are counted on the way: `scanTo` goes over the bytes up to an offset and remembers
where the current line starts, so the column of a token is the number of characters from there to
the token.

The scanners here go by classes of tokens.  Every class is a set of characters, of which a token
holds one or a run.  At each place the class with the longest token wins, and of several the first.
A character of no class becomes a token of type `invalid`, for the parser to recover from.  `scan`
cuts the text without leaving anything out (`flatten_scan`).
-/

namespace Lookahead

/-! ## Tokens of what was found -/

/-- A piece of a text that was found.  Where nothing fits there is no kind. -/
structure Find where
  /-- The bytes of the piece. -/
  span : Span
  /-- The type and channel of its token. -/
  kind : Option (TokenType × Channel)
  deriving DecidableEq, Repr

/-- A text, what a scanner is still to find in it, and the lines that were counted so far. -/
structure Scanner where
  text : List Char
  finds : List Find
  /-- The number of bytes over which lines were counted. -/
  scanned : Nat
  line : Nat
  /-- The byte offset at which the line starts. -/
  lineStart : Nat

namespace Scanner

def ofText (text : String) (finds : List Find) : Scanner :=
  { text := text.toList, finds, scanned := 0, line := 1, lineStart := 0 }

/-- Count the lines of some characters, the first of which is at a byte offset: the line behind
them, and the offset at which that line starts. -/
def countLines : (offset : Nat) → List Char → (line lineStart : Nat) → Nat × Nat
  | _, [], line, lineStart => (line, lineStart)
  | offset, c :: rest, line, lineStart =>
    if c = '\n' then countLines (offset + c.utf8Size) rest (line + 1) (offset + 1)
    else countLines (offset + c.utf8Size) rest line lineStart

/-- Count the lines up to a byte offset. -/
def scanTo (s : Scanner) (offset : Nat) : Scanner :=
  match Text.between s.text s.scanned offset with
  | none => s
  | some chunk =>
    let (line, lineStart) := countLines s.scanned chunk s.line s.lineStart
    { s with scanned := offset, line, lineStart }

/-- The token of a find, when the lines in front of it were counted. -/
def token (s : Scanner) (f : Find) : Token :=
  let (type, channel) := f.kind.getD (.invalid, .default)
  let text := (Text.between s.text f.span.start f.span.stop).getD []
  let column := ((Text.between s.text s.lineStart f.span.start).map List.length).getD 0
  { type, channel, text := String.ofList text, span := f.span, position := ⟨s.line, column⟩,
    index := none }

/-- The token of the next find, with the lines counted up to its end. -/
def next (s : Scanner) : Option Token × Scanner :=
  match s.finds with
  | [] => (none, s)
  | f :: finds =>
    let s := { s with finds }.scanTo f.span.start
    (some (s.token f), s.scanTo f.span.stop)

@[simp] theorem finds_scanTo (s : Scanner) (offset : Nat) : (s.scanTo offset).finds = s.finds := by
  unfold scanTo
  split <;> rfl

instance : TokenSource Scanner where
  next := next
  remaining s := s.finds.length
  remaining_next {s s' t} h := by
    unfold next at h
    split at h
    · cases h
    · rename_i f finds hfinds
      obtain ⟨-, rfl⟩ := Prod.mk.inj h
      simp [hfinds]

end Scanner

/-! ## Scanning by token classes -/

/-- A class of tokens: the characters of which one is made, and what it is then. -/
structure TokenClass where
  holds : Char → Bool
  /-- Is a token a run of characters, or a single one? -/
  isRun : Bool
  type : TokenType
  channel : Channel

/-- A piece of text with the type and channel of its token, if it makes one. -/
structure Lexeme where
  chars : List Char
  kind : Option (TokenType × Channel)
  deriving DecidableEq, Repr

/-- The finds of lexemes that follow each other from a byte offset on. -/
def Lexeme.finds (offset : Nat) : List Lexeme → List Find
  | [] => []
  | lexeme :: rest =>
    let stop := offset + Text.byteLength lexeme.chars
    ⟨⟨offset, stop⟩, lexeme.kind⟩ :: finds stop rest

namespace TokenClass

/-- The length of the class's token at the start of a text, 0 if there is none. -/
def matchLength (c : TokenClass) (text : List Char) : Nat :=
  let run := (text.takeWhile c.holds).length
  if c.isRun then run else min 1 run

/-- The class with the longest token at the start of a text, and that token's length. -/
def longest (classes : List TokenClass) (text : List Char) : Option (TokenClass × Nat) :=
  classes.foldl (fun best c =>
    let n := c.matchLength text
    let best' := (best.map Prod.snd).getD 0
    if best' < n then some (c, n) else best) none

/-- The lexemes of a text, one after another. A character that starts no token is a lexeme without a
kind. -/
def scan (classes : List TokenClass) : List Char → List Lexeme
  | [] => []
  | head :: rest =>
    match longest classes (head :: rest) with
    | some (c, n + 1) =>
      ⟨head :: rest.take n, some (c.type, c.channel)⟩ :: scan classes (rest.drop n)
    | _ => ⟨[head], none⟩ :: scan classes rest
termination_by text => text.length
decreasing_by all_goals simp +arith

/-- The lexemes of a text, put together again, are the text. -/
theorem flatten_scan (classes : List TokenClass) (text : List Char) :
    ((scan classes text).map Lexeme.chars).flatten = text := by
  fun_induction scan classes text with
  | case1 => rfl
  | case2 head rest c n _ ih => simp [ih]
  | case3 head rest _ ih => simp [ih]

end TokenClass

/-- What is found in a text. -/
def TokenClass.finds (classes : List TokenClass) (text : String) : List Find :=
  Lexeme.finds 0 (scan classes text.toList)

/-- The tokens of a text. -/
def TokenClass.tokenize (classes : List TokenClass) (text : String) : List Token :=
  (TokenSource.drain (Scanner.ofText text (finds classes text))).1

/-- Tokens on one line, with a space between any two.  The column of a token is its byte offset. -/
def Token.onOneLine (offset : Nat) : List (TokenType × String) → List Token
  | [] => []
  | (type, text) :: rest =>
    { Token.ofText type text with span := .ofText offset text, position := ⟨1, offset⟩ } ::
      onOneLine (offset + text.utf8ByteSize + 1) rest

/-! ## The tokens of a calculator -/

/-- The class of a single character. -/
def TokenClass.single (c : Char) (type : TokenType) : TokenClass :=
  ⟨(· == c), false, type, .default⟩

/-- Names, numbers, a few signs, and white space on the hidden channel. -/
def TokenClass.calculator : List TokenClass :=
  [⟨fun c => ('a' ≤ c && c ≤ 'z') || c == 'λ', true, 4, .default⟩,
    ⟨fun c => '0' ≤ c && c ≤ '9', true, 5, .default⟩,
    .single '=' 6, .single ';' 7, .single '(' 8, .single ')' 9, .single '+' 10,
    ⟨fun c => c == ' ' || c == '\t' || c == '\r' || c == '\n', true, 11, .hidden⟩]

end Lookahead
