import Lookahead.Stream.Cursor
import Lookahead.Tree.Shape

/-!
# Node streams

A tree read as a stream, for tree grammars.  The nodes come in the order of the list notation; the
children of a node stand between the markers `down` and `up`.  A list contributes its children and
no markers, so that a list at the top reads as its children in a row.
-/

namespace Lookahead

/-- A unit of a node stream: a node, or a marker that says where its children start or end. -/
inductive NodeUnit where
  | node (id : NodeId) (label : NodeLabel)
  /-- The marker in front of a node's children. -/
  | down
  /-- The marker behind a node's children. -/
  | up
  deriving DecidableEq, Repr

namespace NodeUnit

/-- The type by which a tree grammar knows a unit. -/
def type : NodeUnit → TokenType
  | node _ label => label.type
  | down => .down
  | up => .up

/-- The node of a unit that is not a marker. -/
def node? : NodeUnit → Option (NodeId × NodeLabel)
  | node id label => some (id, label)
  | _ => none

/-- The token of a unit that has one. -/
def token? : NodeUnit → Option Token
  | node _ label => label.token?
  | _ => none

/-- The text of a unit in messages. -/
def text : NodeUnit → String
  | node _ label => label.text
  | down => "DOWN"
  | up => "UP"

end NodeUnit

mutual

/-- The units of a shape: the node, and if it has children, these between markers. -/
def Shape.units : Shape → List NodeUnit
  | node id label children =>
    let below := Shape.unitsAll children
    if label.isList then below
    else match children with
      | [] => [.node id label]
      | _ :: _ => .node id label :: .down :: below ++ [.up]

/-- The units of several shapes, in a row. -/
def Shape.unitsAll : List Shape → List NodeUnit
  | [] => []
  | s :: rest => Shape.units s ++ Shape.unitsAll rest

end

/-- The units of a tree and a cursor among them, with the places that marks have saved. -/
structure NodeStream where
  units : Array NodeUnit
  place : Nat
  marks : MarkStack Nat
  name : String
  deriving DecidableEq, Repr

namespace NodeStream

/-- The stream at the start of a node's subtree. -/
def ofTree (t : Tree) (root : NodeId) (name : String) : NodeStream :=
  { units := (t.shape root).units.toArray, place := 0, marks := .empty, name }

/-- The name of a source that was given none. -/
def defaultName : String := "<tree>"

/-- The unit `k` places from the cursor, where the current one is at 1 and the one before it at
-1. -/
def unitAt (s : NodeStream) (k : Int) : Option NodeUnit :=
  if 0 < k then s.units[s.place + (k - 1).toNat]?
  else if k = 0 ∨ s.place < k.natAbs then none
  else s.units[s.place - k.natAbs]?

/-- The node `k` places from the cursor; none for a marker and past either end. -/
def nodeAt (s : NodeStream) (k : Int) : Option (NodeId × NodeLabel) :=
  (s.unitAt k).bind NodeUnit.node?

/-- The type of the unit `k` places from the cursor: the end of input behind the last one, and none
in front of the first. -/
def lookahead (s : NodeStream) (k : Int) : TokenType :=
  match s.unitAt k with
  | some unit => unit.type
  | none => if 0 < k then .eof else .invalid

/-- The last token among the units up to and with the cursor's. -/
def anchor (s : NodeStream) : Option Token :=
  (s.units.toList.take (s.place + 1)).reverse.findSome? NodeUnit.token?

/-- The current unit as a token.  A unit without one of its own is placed at the last token in
front of it, and the end of input behind that. -/
def symbol (s : NodeStream) : Token :=
  match s.units[s.place]? with
  | some unit =>
    match unit.token? with
    | some token => token
    | none =>
      match s.anchor with
      | some near => .conjured unit.type unit.text near
      | none => .ofText unit.type unit.text
  | none =>
    match s.anchor with
    | some last => .endOfInput last.span.stop last.position
    | none => .endOfInput 0 .start

instance : Cursor NodeStream where
  lookahead s k := (s.lookahead k, s)
  consume s := if s.place < s.units.size then { s with place := s.place + 1 } else s
  index s := s.place
  seek s i := { s with place := min i s.units.size }
  mark s := let (m, marks) := s.marks.push s.place; (m, { s with marks })
  rewind s m := (s.marks.rewind m).map fun (place, marks) => { s with place, marks }
  release s m := (s.marks.release m).map fun marks => { s with marks }
  markDepth s := s.marks.depth
  sourceName s := s.name
  symbol s := (s.symbol, s)

end NodeStream

end Lookahead
