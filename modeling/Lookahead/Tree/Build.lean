import Lookahead.Misuse
import Lookahead.Tree.Arena

/-!
# Building trees

The steps by which a parser builds its trees.  A rule starts from an empty list, adds what it
matches, may put an operator on top, and in the end hands over the list's only child or the list
itself.  Adding a list adds its children.
-/

namespace Lookahead.Tree

/-- A new empty list. -/
def newList (t : Tree) : NodeId × Tree := t.alloc (.single .list none none)

/-- A new node for a token, which covers that token and nothing else. -/
def newToken (t : Tree) (token : Token) : NodeId × Tree :=
  t.alloc (.single (.token token) token.index token.index)

/-- A new node for skipped input, from token `first` to token `last`. -/
def newError (t : Tree) (first last : Option Token) (text : String) : NodeId × Tree :=
  t.alloc (.single (.error text) (first.bind Token.index) (last.bind Token.index))

/-- Is the node with a number a list? -/
def isList (t : Tree) (id : NodeId) : Bool := (t.label id).isList

/-- Add a node under a parent, behind its children. Of a list its children are added, in their
order, and the list is left empty. A node is not added to itself. -/
def addChild (t : Tree) (parent child : NodeId) : Tree :=
  if parent = child then t
  else if t.isList child then (t.children child).foldl (fun t c => t.append parent c) t
  else t.append parent child

/-- Put `newRoot` over `oldRoot`, and return the node that is the root now. A list with one child
gives way to that child; a list with several cannot be a root. -/
def becomeRoot (t : Tree) (newRoot oldRoot : NodeId) : Except Misuse (NodeId × Tree) :=
  if t.isList newRoot then
    match t.children newRoot with
    | [] => .ok (newRoot, t.addChild newRoot oldRoot)
    | [only] => .ok (only, (t.detach only).addChild only oldRoot)
    | _ => .error .listAsRoot
  else .ok (newRoot, t.addChild newRoot oldRoot)

/-- The tree of a finished rule: none for an empty list, the child of a list with one child, which
is taken off it, and otherwise the root itself. -/
def ruleResult (t : Tree) (root : NodeId) : Option NodeId × Tree :=
  if t.isList root then
    match t.children root with
    | [] => (none, t)
    | [only] => (some only, t.detach only)
    | _ => (some root, t)
  else (some root, t)

/-- Note the tokens that a node covers, in the place of what was noted before. -/
def setBounds (t : Tree) (id : NodeId) (first last : Option Nat) : Tree :=
  t.modify id fun n => { n with firstToken := first, lastToken := last }

end Lookahead.Tree
