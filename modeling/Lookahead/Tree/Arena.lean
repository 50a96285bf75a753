import Lookahead.Token

/-!
# Tree arenas

Trees are kept in an arena: a node is known by the number under which it was allocated, and its
relations to other nodes are numbers too.  Building a tree moves whole subtrees about, which the
arena does by detaching and appending single nodes.

A node holds a token, stands for input that recovery skipped, or is a *list*: a node without a
label, whose children count as children of whatever the list is put into.
-/

namespace Lookahead

/-- The number under which a node was allocated. It names the node for as long as the arena
lasts. -/
abbrev NodeId := Nat

/-- What a node holds: a token, the text of input that recovery skipped, or nothing, if it is a
list. -/
inductive NodeLabel where
  | list
  | token (token : Token)
  | error (text : String)
  deriving DecidableEq, Repr, Inhabited

namespace NodeLabel

/-- Is the node without a label of its own? -/
def isList : NodeLabel → Bool
  | list => true
  | _ => false

/-- The token of a node that holds one. -/
def token? : NodeLabel → Option Token
  | token t => some t
  | _ => none

/-- The type by which a tree grammar knows the node; only nodes with a token have one. -/
def type : NodeLabel → TokenType
  | token t => t.type
  | _ => .invalid

/-- The text of a node in list notation. -/
def text : NodeLabel → String
  | list => "nil"
  | token t => t.text
  | error skipped => s!"<error: {skipped}>"

end NodeLabel

/-- A node of an arena, with its relations to other nodes as numbers. -/
structure TreeNode where
  label : NodeLabel
  /-- The place of the first token that the node covers, if it covers any. -/
  firstToken : Option Nat
  /-- The place of the last token that the node covers, if it covers any. -/
  lastToken : Option Nat
  /-- The node that this one is a child of; a root has none. -/
  parent : Option NodeId
  /-- The place among the parent's children, which means nothing for a root. -/
  childIndex : Nat
  /-- The children, in their order. -/
  children : List NodeId
  deriving DecidableEq, Repr, Inhabited

/-- A node that is a root and has no children. -/
def TreeNode.single (label : NodeLabel) (firstToken lastToken : Option Nat) : TreeNode :=
  { label, firstToken, lastToken, parent := none, childIndex := 0, children := [] }

/-- An arena of nodes. Nothing says that the relations in it fit together; that is what the
operations keep. -/
structure Tree where
  /-- The nodes by number, which is the order of their allocation. -/
  nodes : Array TreeNode
  deriving DecidableEq, Repr, Inhabited

namespace Tree

def empty : Tree := ⟨#[]⟩

/-- The number of nodes that were ever allocated; no node is given back. -/
def size (t : Tree) : Nat := t.nodes.size

/-- The node with a number; a number that was not allocated is that of a list by itself. -/
def node (t : Tree) (id : NodeId) : TreeNode := t.nodes.getD id default

def label (t : Tree) (id : NodeId) : NodeLabel := (t.node id).label

def children (t : Tree) (id : NodeId) : List NodeId := (t.node id).children

/-- The node that a node is a child of. -/
def parent (t : Tree) (id : NodeId) : Option NodeId := (t.node id).parent

/-- The child at a place among a node's children. -/
def child (t : Tree) (id : NodeId) (i : Nat) : Option NodeId := (t.children id)[i]?

/-- Add a node, and return its number. -/
def alloc (t : Tree) (n : TreeNode) : NodeId × Tree := (t.size, ⟨t.nodes.push n⟩)

@[simp] theorem size_alloc (t : Tree) (n : TreeNode) : (t.alloc n).2.size = t.size + 1 := by
  simp [alloc, size]

theorem node_alloc (t : Tree) (n : TreeNode) (id : NodeId) :
    (t.alloc n).2.node id = if id = t.size then n else t.node id := by
  simp only [node, alloc, size, Array.getD_eq_getD_getElem?, Array.getElem?_push]
  split <;> rfl

/-- Change a node in its place; a number that was not allocated changes nothing. -/
def modify (t : Tree) (id : NodeId) (f : TreeNode → TreeNode) : Tree := ⟨t.nodes.modify id f⟩

@[simp] theorem size_modify (t : Tree) (id : NodeId) (f : TreeNode → TreeNode) :
    (t.modify id f).size = t.size := by
  simp [modify, size]

theorem node_modify (t : Tree) (f : TreeNode → TreeNode) {id other : NodeId} (h : id < t.size) :
    (t.modify id f).node other = if other = id then f (t.node id) else t.node other := by
  simp only [node, modify, Array.getD_eq_getD_getElem?, Array.getElem?_modify]
  by_cases hid : other = id
  · subst hid
    rw [if_pos rfl, if_pos rfl, Array.getElem?_eq_getElem h]
    rfl
  · rw [if_neg (Ne.symm hid), if_neg hid]

/-- Number some siblings by their places, the first of which is `i`. -/
def renumber (t : Tree) (i : Nat) : List NodeId → Tree
  | [] => t
  | id :: rest => (t.modify id fun n => { n with childIndex := i }).renumber (i + 1) rest

@[simp] theorem size_renumber (t : Tree) (i : Nat) (ids : List NodeId) :
    (t.renumber i ids).size = t.size := by
  induction ids generalizing t i with
  | nil => rfl
  | cons id rest ih => rw [renumber, ih, size_modify]

/-- Take a node from its parent, if it has one. Its siblings close up and are numbered anew. -/
def detach (t : Tree) (id : NodeId) : Tree :=
  match t.parent id with
  | none => t
  | some parent =>
    let siblings := (t.children parent).filter (· != id)
    let t := t.modify id fun n => { n with parent := none }
    let t := t.modify parent fun n => { n with children := siblings }
    t.renumber 0 siblings

@[simp] theorem size_detach (t : Tree) (id : NodeId) : (t.detach id).size = t.size := by
  unfold detach
  split
  · rfl
  · simp

/-- Make a node the last child of another one. It is taken from its parent first, which may be the
same. -/
def append (t : Tree) (parent child : NodeId) : Tree :=
  let t := t.detach child
  let index := (t.children parent).length
  let t := t.modify parent fun n => { n with children := n.children ++ [child] }
  t.modify child fun n => { n with parent := some parent, childIndex := index }

@[simp] theorem size_append (t : Tree) (parent child : NodeId) :
    (t.append parent child).size = t.size := by
  simp [append]

end Tree

end Lookahead
