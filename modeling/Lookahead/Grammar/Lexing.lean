import Lookahead.Grammar.Run
import Lookahead.Lexer.Source

/-!
# Lexer grammars

The instructions of grammars that match characters and make tokens of them.  Rules call each other
without frames, so they leave no trace in rule paths.
-/

namespace Lookahead

/-- What a rule of a lexer grammar can do besides the statements of all grammars. -/
inductive LexerInstruction where
  /-- Match a character. -/
  | char (c : Char)
  /-- Match a character of a range. -/
  | range (low high : Char)
  /-- Match some characters in a row. -/
  | chars (cs : List Char)
  /-- Match a character of a set. -/
  | set (types : TokenSet)
  /-- Match any character, but not the end of input. -/
  | any
  /-- Fail because no token starts here. -/
  | noViable (description : String)
  /-- Set the type of the token in the making. -/
  | setType (type : TokenType)
  /-- Set the channel of the token in the making. -/
  | setChannel (channel : Channel)
  /-- Set the text of the token in the making, in the place of what is matched. -/
  | setText (text : String)
  /-- Make no token of what is matched. -/
  | skip
  /-- Make the token now, and note it. -/
  | emit
  /-- Begin the token anew, at the cursor. -/
  | beginToken
  /-- Note the token in the making. -/
  | observeDraft
  /-- Run the block of a rule, without a frame. -/
  | call (rule : Nat)
  deriving DecidableEq, Repr

namespace Lexer

open Recognizer

/-- Carry out an instruction. -/
def perform (g : Grammar LexerInstruction)
    (run : Block LexerInstruction → Action Lexer Unit) : LexerInstruction → Action Lexer Unit
  | .char c => matchChar c
  | .range low high => matchRange low high
  | .chars cs => matchChars cs
  | .set types => matchSet types
  | .any => matchAny
  | .noViable description => noViableChar description
  | .setType type => setType type
  | .setChannel channel => setChannel channel
  | .setText text => setText text
  | .skip => skip
  | .emit => do
    note (.emitted (← emit))
  | .beginToken => beginToken
  | .observeDraft => do
    note (← .read fun l : Lexer => .shown l.own.type l.text)
  | .call rule => run (g.body rule)

/-- The instructions of lexer grammars, which build nothing that fragments could disturb. -/
def dialect : Dialect CharacterStream TokenDraft LexerInstruction where
  perform := perform
  apart body := body

/-- The rule of a lexer source that runs a block of a lexer grammar. -/
def run (g : Grammar LexerInstruction) (fuel : Nat) (block : Block LexerInstruction) :
    Action Lexer Unit :=
  g.run dialect fuel block

end Lexer

end Lookahead
