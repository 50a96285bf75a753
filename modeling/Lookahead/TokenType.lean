/-!
# Token types

A unit of input is known to a recognizer by its *type*, an integer.  Token streams carry grammar
token types, character streams carry code points, and tree streams carry the types of the nodes'
tokens together with the two navigation markers `down` and `up`.

The values below `firstUser` are reserved.  `invalid` is never the type of a unit that a grammar
matches: it answers a lookahead that points nowhere, and it marks text that no token rule accepts.
-/

namespace Lookahead

/-- The type of a unit of input: a grammar token type, or a code point. -/
abbrev TokenType := Int

namespace TokenType

/-- The type read at, and past, the end of input. -/
def eof : TokenType := -1

/-- The type that belongs to no unit. -/
def invalid : TokenType := 0

/-- The end-of-rule marker: a follow set that holds it can reach the end of its rule, so that
whatever may follow the caller applies as well. -/
def endOfRule : TokenType := 1

/-- The marker in front of a node's children. -/
def down : TokenType := 2

/-- The marker behind a node's children. -/
def up : TokenType := 3

/-- The first type a grammar may give to a token of its own. -/
def firstUser : TokenType := up + 1

end TokenType

/-- A channel separates the tokens a parser reads from those it steps over. -/
abbrev Channel := Nat

/-- The channel that parsers read unless they are tuned to another one. -/
def Channel.default : Channel := 0

/-- The channel that white space and comments conventionally go to. -/
def Channel.hidden : Channel := 99

end Lookahead
