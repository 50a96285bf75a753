import Lookahead.Tree.Arena

/-!
# Shapes

The subtree of a node as an ordinary tree, cut loose from its arena.  Whatever walks through a tree
walks through its shape: the list notation here, the stream that tree grammars read
(`Lookahead.Stream.Nodes`), and the syntax tree for tools (`Lookahead.Tree.Green`).
-/

namespace Lookahead

/-- A node and the shapes of its children: a tree that is finite by its construction. -/
inductive Shape where
  /-- The node, its label and its children. -/
  | node (id : NodeId) (label : NodeLabel) (children : List Shape)
  deriving Repr, Inhabited

/-- The shape of a node, down to `depth` levels below it; nodes at that depth are shown without
children. -/
def Tree.shapeTo (t : Tree) : (depth : Nat) → NodeId → Shape
  | 0, id => .node id (t.label id) []
  | depth + 1, id => .node id (t.label id) ((t.children id).map (t.shapeTo depth))

/-- The shape of a node.  No path down a tree is longer than the number of nodes. -/
def Tree.shape (t : Tree) (id : NodeId) : Shape := t.shapeTo t.size id

namespace Shape

/-- The number of the node at the top. -/
def id : Shape → NodeId
  | node id _ _ => id

/-- The label of the node at the top. -/
def label : Shape → NodeLabel
  | node _ label _ => label

/-- The shapes of the children of the node at the top. -/
def children : Shape → List Shape
  | node _ _ children => children

mutual

/-- The numbers of the nodes, each in front of those below it. -/
def ids : Shape → List NodeId
  | node id _ children => id :: idsAll children

/-- The numbers of the nodes of several shapes. -/
def idsAll : List Shape → List NodeId
  | [] => []
  | s :: rest => ids s ++ idsAll rest

end

mutual

/-- The tree in list notation: a node in front of its children, in parentheses.  A list has none
around its children. -/
def render : Shape → String
  | node _ label [] => label.text
  | node _ label (child :: rest) =>
    let inner := String.intercalate " " (render child :: renderAll rest)
    if label.isList then inner else s!"({label.text} {inner})"

/-- Several trees in list notation. -/
def renderAll : List Shape → List String
  | [] => []
  | s :: rest => render s :: renderAll rest

end

end Shape

/-- The subtree of a node in list notation. A node without children stands bare. -/
def Tree.render (t : Tree) (id : NodeId) : String := (t.shape id).render

end Lookahead
