import Lookahead.Recognizer.Speculation
import Lookahead.Stream.Characters

/-!
# Lexers

A lexer recognizes characters.  Its rules match characters and say which token they make: its type,
its channel, and its text where that is not what was matched.  What is matched from `beginToken` on
belongs to the token in the making, its *draft*.
-/

namespace Lookahead

/-- A token in the making: where it starts, and what rules have said about it so far. -/
structure TokenDraft where
  /-- The place from which on what is matched belongs to the token. -/
  start : Place
  /-- The token type, `invalid` until a rule sets it. -/
  type : TokenType
  /-- The channel that the token goes to. -/
  channel : Channel
  /-- The text that a rule set, if the token does not have what was matched. -/
  text : Option String
  /-- Is there to be no token? -/
  skipped : Bool
  /-- The token, if a rule made it ahead of time; the last one that was made counts. -/
  emitted : Option Token
  deriving DecidableEq, Repr, Inhabited

/-- The draft of a token that starts at a place, of which no rule has said anything yet. -/
def TokenDraft.startingAt (start : Place) : TokenDraft :=
  { start, type := .invalid, channel := .default, text := none, skipped := false, emitted := none }

/-- A recognizer of characters that makes tokens. -/
abbrev Lexer := Recognizer CharacterStream TokenDraft

namespace Lexer

open Recognizer

/-- A lexer that has not run. Its messages show characters. -/
def ofStream (input : CharacterStream) (options : Options) : Lexer :=
  .ofInput input (.startingAt .start) options .characters

/-! ## The token in the making -/

/-- The lexer at the beginning of a token, which starts at the cursor. -/
def begun (l : Lexer) : Lexer := { l with own := .startingAt l.input.place }

/-- The text from the token's start to the cursor; none if the cursor is not behind the start. -/
def matchedText (l : Lexer) : String :=
  if l.input.place.index ≤ l.own.start.index then ""
  else l.input.source.slice l.own.start.index (l.input.place.index - 1)

/-- The text of the token in the making: the one that was set, or what was matched. -/
def text (l : Lexer) : String := l.own.text.getD l.matchedText

/-- The token in the making, as it would be if it were made now. -/
def token (l : Lexer) : Token :=
  { type := l.own.type, channel := l.own.channel, text := l.text,
    span := ⟨l.input.source.byteOffset l.own.start.index,
      l.input.source.byteOffset l.input.place.index⟩,
    position := l.own.start.position, index := none }

/-- The end of input, at the cursor. -/
def endToken (l : Lexer) : Token :=
  .endOfInput (l.input.source.byteOffset l.input.place.index) l.input.place.position

/-- The token that the rules have made: the one that was made ahead of time, or the one in the
making, or none if it is skipped. -/
def finished (l : Lexer) : Option Token :=
  if l.own.skipped then none else some (l.own.emitted.getD l.token)

/-- Begin a token at the cursor, and forget the draft of the one before. -/
def beginToken : Action Lexer Unit := .update begun

/-- Set the type of the token in the making. -/
def setType (type : TokenType) : Action Lexer Unit := updateOwn fun d => { d with type }

/-- Set the channel of the token in the making. -/
def setChannel (channel : Channel) : Action Lexer Unit := updateOwn fun d => { d with channel }

/-- Set the text of the token in the making, in the place of what is matched. -/
def setText (text : String) : Action Lexer Unit := updateOwn fun d => { d with text := some text }

/-- Make no token of what is matched. -/
def skip : Action Lexer Unit := updateOwn fun d => { d with skipped := true }

/-- Make the token now; what is matched from here on is no part of it. The draft stays otherwise, so
that another token can be made of it later. -/
def emit : Action Lexer Token := do
  let token ← .read token
  updateOwn fun d => { d with emitted := some token }
  return token

/-! ## Matching -/

/-- Match one character, or fail in front of it. -/
def matchChar (c : Char) : Action Lexer Unit := do
  if (← lookahead 1) = c.toNat then consume
  else fail (.mismatchedToken c.toNat) none

/-- Match a character from `low` to `high`, or fail in front of it. -/
def matchRange (low high : Char) : Action Lexer Unit := do
  let code ← lookahead 1
  if (low.toNat : Int) ≤ code ∧ code ≤ high.toNat then consume
  else fail (.mismatchedRange low.toNat high.toNat) none

/-- Match some characters in a row. Those in front of a mismatch have been taken. -/
def matchChars : List Char → Action Lexer Unit
  | [] => return
  | c :: rest => do
    matchChar c
    matchChars rest

/-- Match a character of a set, or fail in front of it. -/
def matchSet (set : TokenSet) : Action Lexer Unit := do
  if set.has (← lookahead 1) then consume
  else fail .mismatchedSet (some set)

/-- Match any character; this fails only at the end of input. -/
def matchAny : Action Lexer Unit := do
  if (← lookahead 1) = .eof then fail .mismatchedNotSet (some (.ofTypes [.eof]))
  else consume

/-- Fail because no token starts with the current character. -/
def noViableChar (description : String) : Action Lexer Unit :=
  fail (.noViableAlternative 0 0 [] description) none

end Lexer

end Lookahead
