import Lookahead.TokenType
import Lookahead.Text.Position

/-!
# Tokens

A token is a unit of a token stream: its type and text, the channel it is on, and where it stands
in the source.  Its place in a token buffer is known only once it has been buffered.
-/

namespace Lookahead

/-- A unit of a token stream, with its place in the source and, once it is buffered, in the
buffer. -/
structure Token where
  type : TokenType
  /-- The channel, on which only recognizers tuned to it see the token. -/
  channel : Channel
  /-- The text, which a rule may have set to another one than that of its bytes. -/
  text : String
  /-- The bytes of the source that the token covers. -/
  span : Span
  /-- The line and column of its first character. -/
  position : Position
  /-- Its place in the token buffer, once it has one. -/
  index : Option Nat
  deriving DecidableEq, Repr, Inhabited

namespace Token

/-- A token by itself, at the start of a source, with a text and nothing else to say. -/
def ofText (type : TokenType) (text : String) : Token :=
  { type, text, channel := .default, span := .ofText 0 text, position := .start, index := none }

/-- The token at the end of input, just past the last character. -/
def endOfInput (offset : Nat) (position : Position) : Token :=
  { type := .eof, text := "<EOF>", channel := .default, span := .emptyAt offset, position,
    index := none }

/-- A token that is not in the source, placed where `near` starts. It covers no bytes. -/
def conjured (type : TokenType) (text : String) (near : Token) : Token :=
  { type, text, channel := .default, span := .emptyAt near.span.start, position := near.position,
    index := none }

/-- Is this the token at the end of input? -/
def isEof (t : Token) : Bool := t.type == .eof

/-- The place behind the token's text. -/
def endPosition (t : Token) : Position := t.position.past t.text.toList

/-- A character of a token's text, with line breaks and tabs made visible. -/
def renderChar : Char → String
  | '\n' => "\\n"
  | '\r' => "\\r"
  | '\t' => "\\t"
  | c => c.toString

/-- Index, span, text, type, channel unless it is the default one, and position.  The index is -1
while it is not known. -/
def render (t : Token) : String :=
  let index : Int := match t.index with
    | some i => i
    | none => -1
  let text := String.join (t.text.toList.map renderChar)
  let channel := if t.channel = .default then "" else s!",channel={t.channel}"
  s!"[@{index},{t.span.start}:{t.span.stop}='{text}',<{t.type}>" ++ channel ++
    s!",{t.position.line}:{t.position.column}]"

end Token

end Lookahead
