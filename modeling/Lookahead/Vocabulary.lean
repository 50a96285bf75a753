import Lookahead.TokenSet
import Lookahead.Text.Escape

/-!
# Vocabularies

How units of input are named in messages.  A parser names them by a table of token names, a lexer
shows the character itself.
-/

namespace Lookahead

/-- The names of the units that a recognizer reads, by which its messages speak of them. -/
inductive Vocabulary where
  /-- Token types, named by their place in a table. -/
  | tokens (names : Array String)
  | characters
  deriving DecidableEq, Repr, Inhabited

namespace Vocabulary

/-- Does the vocabulary name characters? -/
def isLexical : Vocabulary → Bool
  | tokens _ => false
  | characters => true

/-- The character with a code point, where there is one; a surrogate has none. -/
def charAt? (code : Int) : Option Char :=
  if 0 ≤ code ∧ code.toNat.isValidChar then some (Char.ofNat code.toNat) else none

/-- The name of a type, in a message. The end of input has a sign of its own, and a type without a
name shows as its number. -/
def display (v : Vocabulary) (t : TokenType) : String :=
  if t = .eof then "<EOF>"
  else
    let name := match v with
      | tokens names => if 0 ≤ t then names[t.toNat]? else none
      | characters => (charAt? t).map Text.quoteChar
    name.getD s!"<{t}>"

/-- The names of a set's types in braces, in the order of their positions; a single one stands
bare. -/
def displaySet (v : Vocabulary) (s : TokenSet) : String :=
  match s.types.map v.display with
  | [single] => single
  | names => "\x7b" ++ String.intercalate ", " names ++ "\x7d"

end Vocabulary

end Lookahead
