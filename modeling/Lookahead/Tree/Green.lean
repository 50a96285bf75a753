import Lookahead.Tree.Shape

/-!
# Green trees

A tree for tools that work on the text: tokens with a kind and a text, and inner nodes with a kind.
A node with children becomes an inner node that starts with the node's own token; a node without
becomes a token; a list disappears, and its children stand in its place.
-/

namespace Lookahead

/-- A tree of kinds and texts, whose text is that of its tokens in a row. -/
inductive Green where
  | token (kind : Nat) (text : String)
  | node (kind : Nat) (children : List Green)
  deriving Repr, Inhabited

namespace Green

/-- The kind that stands for a token type: kinds have sixteen bits. -/
def kindOf (t : TokenType) : Nat := (t % 65536).toNat

mutual

/-- The number of bytes of a tree's text. -/
def textLength : Green → Nat
  | token _ text => text.utf8ByteSize
  | node _ children => textLengthAll children

/-- The number of bytes of the text of several trees. -/
def textLengthAll : List Green → Nat
  | [] => 0
  | g :: rest => textLength g + textLengthAll rest

end

/-- The text of a node's own token; an error node has that of the input that was skipped. -/
def ownText : NodeLabel → String
  | .list => ""
  | .token t => t.text
  | .error skipped => skipped

end Green

mutual

/-- The green trees that a shape becomes: those of its children, if it is a list, and otherwise
one. -/
def Shape.greens (kindOf : TokenType → Nat) : Shape → List Green
  | node _ label children =>
    let below := Shape.greensAll kindOf children
    if label.isList then below
    else
      let own := Green.token (kindOf label.type) (Green.ownText label)
      match children with
      | [] => [own]
      | _ :: _ => [.node (kindOf label.type) (own :: below)]

/-- The green trees that several shapes become, in a row. -/
def Shape.greensAll (kindOf : TokenType → Nat) : List Shape → List Green
  | [] => []
  | s :: rest => Shape.greens kindOf s ++ Shape.greensAll kindOf rest

end

/-- The subtree of a node as the content of a green node of a kind of its own. -/
def Tree.green (t : Tree) (id : NodeId) (rootKind : Nat) (kindOf : TokenType → Nat) : Green :=
  .node rootKind ((t.shape id).greens kindOf)

end Lookahead
