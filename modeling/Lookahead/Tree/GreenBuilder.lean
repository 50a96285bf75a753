import Lookahead.Tree.Green

/-!
# Building green trees

A green tree is made by a builder, which is told in the order of the text where an inner node
starts, what tokens it has and where it is finished.  The builder is taken as given: all that is
asked of it is that it nests what it is told (`GreenBuilder.Nests`).
-/

namespace Lookahead

/-- What a builder of green trees is told. -/
inductive GreenCall where
  /-- An inner node starts here, and what follows is inside it. -/
  | startNode (kind : Nat)
  /-- A token comes next. -/
  | token (kind : Nat) (text : String)
  /-- The inner node that was started last is over. -/
  | finishNode
  deriving DecidableEq, Repr

mutual

/-- The calls that describe a green tree. -/
def Green.calls : Green → List GreenCall
  | token kind text => [.token kind text]
  | node kind children => .startNode kind :: Green.callsAll children ++ [.finishNode]

/-- The calls that describe several green trees. -/
def Green.callsAll : List Green → List GreenCall
  | [] => []
  | g :: rest => Green.calls g ++ Green.callsAll rest

end

/-- A builder of green trees: its states, how a call changes them, and what it has built in the end.
Calls that describe no tree may be answered by none. -/
structure GreenBuilder where
  State : Type
  start : State
  call : State → GreenCall → Option State
  finish : State → Option Green

namespace GreenBuilder

/-- What the builder makes of some calls, told one after another from its start. -/
def build (B : GreenBuilder) (calls : List GreenCall) : Option Green := do
  B.finish (← calls.foldlM B.call B.start)

/-- The builder makes a node out of the calls that describe it. Nothing is asked of it about calls
that describe no node. -/
def Nests (B : GreenBuilder) : Prop :=
  ∀ kind children, B.build (Green.node kind children).calls = some (.node kind children)

end GreenBuilder

mutual

/-- The calls for a shape, in the order in which its nodes are met on the way through it. -/
def Shape.calls (kindOf : TokenType → Nat) : Shape → List GreenCall
  | node _ label children =>
    let below := Shape.callsAll kindOf children
    if label.isList then below
    else
      let own := GreenCall.token (kindOf label.type) (Green.ownText label)
      match children with
      | [] => [own]
      | _ :: _ => .startNode (kindOf label.type) :: own :: below ++ [.finishNode]

/-- The calls for several shapes, in a row. -/
def Shape.callsAll (kindOf : TokenType → Nat) : List Shape → List GreenCall
  | [] => []
  | s :: rest => Shape.calls kindOf s ++ Shape.callsAll kindOf rest

end

namespace Tree

/-- The calls for the subtree of a node, as the content of a node of the given kind. -/
def greenCalls (t : Tree) (root : NodeId) (rootKind : Nat) (kindOf : TokenType → Nat) :
    List GreenCall :=
  .startNode rootKind :: (t.shape root).calls kindOf ++ [.finishNode]

/-- What the builder makes of the subtree of a node. -/
def buildGreen (t : Tree) (B : GreenBuilder) (root : NodeId) (rootKind : Nat)
    (kindOf : TokenType → Nat) : Option Green :=
  B.build (t.greenCalls root rootKind kindOf)

end Tree

end Lookahead
