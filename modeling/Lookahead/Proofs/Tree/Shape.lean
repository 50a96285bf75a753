import Mathlib.Data.Finset.Card
import Mathlib.Logic.Relation
import Lookahead.Proofs.Tree.Forest
import Lookahead.Tree.Shape

/-!
# Shapes of acyclic arenas

The shape of a node is cut off at as many levels as the arena has nodes.  Where no node is below
itself this cuts nothing off, since a path down passes no node twice, and the shape of a node is
the node over the shapes of its children (`shape_eq`).  What walks through a shape then walks
through the arena, and is reasoned about by induction on shapes (`Shape.induct`) or on the nodes
of the arena (`Acyclic.induct`).
-/

namespace Lookahead

/-- Induction on shapes: what holds of a node if it holds of its children holds of every shape. -/
theorem Shape.induct {P : Shape → Prop}
    (node : ∀ id label children, (∀ c ∈ children, P c) → P (.node id label children)) :
    ∀ s, P s
  | .node id label children => node id label children fun c _ => Shape.induct node c

/-- Induction on shapes with the three kinds of nodes apart: lists, and other nodes without and with
children. -/
theorem Shape.induct_kinds {P : Shape → Prop}
    (list : ∀ id label children, label.isList = true → (∀ c ∈ children, P c) →
      P (.node id label children))
    (leaf : ∀ id label, label.isList = false → P (.node id label []))
    (inner : ∀ id label child rest, label.isList = false → (∀ c ∈ child :: rest, P c) →
      P (.node id label (child :: rest))) (s : Shape) : P s := by
  induction s using Shape.induct with
  | node id label children ih =>
    cases hlist : label.isList with
    | true => exact list id label children hlist ih
    | false =>
      cases children with
      | nil => exact leaf id label hlist
      | cons child rest => exact inner id label child rest hlist ih

/-- The second of two functions that are defined together, one on a tree and one on lists of trees,
puts together what the first gives. -/
lemma eq_flatMap {α β : Type} {all : List α → List β} {one : α → List β} (nil : all [] = [])
    (cons : ∀ a as, all (a :: as) = one a ++ all as) (as : List α) : all as = as.flatMap one := by
  induction as with
  | nil => exact nil
  | cons a rest ih => rw [cons, ih, List.flatMap_cons]

namespace Tree

variable {t : Tree}

/-- The second node is the first, or below it. -/
def Below (t : Tree) : NodeId → NodeId → Prop :=
  Relation.ReflTransGen fun parent child => child ∈ t.children parent

/-- The first node is above the second: its parent, the parent of its parent, and so on. -/
def Over (t : Tree) : NodeId → NodeId → Prop :=
  Relation.TransGen fun parent child => child ∈ t.children parent

/-- No node is above itself. -/
def Acyclic (t : Tree) : Prop := ∀ id, ¬ t.Over id id

/-- An arena is acyclic if every child was allocated after its parent. -/
lemma acyclic_of_lt (h : ∀ p < t.size, ∀ c ∈ t.children p, p < c) : t.Acyclic := by
  have hlt {a b : NodeId} (hab : t.Over a b) : a < b := by
    induction hab with
    | single hc => exact h _ (lt_of_mem_children hc) _ hc
    | tail _ hc ih => exact ih.trans (h _ (lt_of_mem_children hc) _ hc)
  exact fun id hid => Nat.lt_irrefl id (hlt hid)

/-- The arenas that the operations on trees build are acyclic, since following parents ends in
them. -/
theorem Forest.acyclic (h : t.Forest) : t.Acyclic := by
  have hends : WellFounded (Relation.TransGen fun p c => t.parent c = some p) := h.ends.transGen
  intro id hid
  have hid' : Relation.TransGen (fun p c => t.parent c = some p) id id :=
    Relation.TransGen.mono (fun p c => (h.mem_children p c).1) id id hid
  exact hends.asymmetric id id hid' hid'

/-- The arena of nodes with the given labels, of which the pairs were appended to each other. -/
def ofPairs (labels : List NodeLabel) (pairs : List (NodeId × NodeId)) : Tree :=
  pairs.foldl (fun t (parent, child) => t.append parent child) <|
    labels.foldl (fun t label => (t.alloc (.single label none none)).2) .empty

/-! ## Nothing is cut off -/

/-- With `above` strictly above a node, there are no more levels under the node than there are
nodes that are not in `above`. -/
lemma shapeTo_succ (h : t.Acyclic) (depth : Nat) (id : NodeId) (above : Finset NodeId)
    (hlt : ∀ a ∈ above, a < t.size) (habove : ∀ a ∈ above, t.Over a id)
    (hdepth : t.size ≤ above.card + depth) :
    t.shapeTo (depth + 1) id = t.shapeTo depth id := by
  induction depth generalizing id above with
  | zero =>
    -- every node of the arena is above this one, which therefore has no children
    have hall : above = Finset.range t.size := by
      refine Finset.eq_of_subset_of_card_le (fun a ha => Finset.mem_range.2 (hlt a ha)) ?_
      rw [Finset.card_range]
      exact hdepth
    have hchildren : t.children id = [] := by
      refine List.eq_nil_iff_forall_not_mem.2 fun c hc => h id (habove id ?_)
      rw [hall]
      exact Finset.mem_range.2 (lt_of_mem_children hc)
    rw [shapeTo, shapeTo, hchildren]
    rfl
  | succ depth ih =>
    have hnot : id ∉ above := fun hid => h id (habove id hid)
    rw [shapeTo, shapeTo]
    congr 1
    refine List.map_congr_left fun c hc => ih c (insert id above) ?_ ?_ ?_
    · intro a ha
      obtain rfl | ha := Finset.mem_insert.1 ha
      · exact lt_of_mem_children hc
      · exact hlt a ha
    · intro a ha
      obtain rfl | ha := Finset.mem_insert.1 ha
      · exact .single hc
      · exact .tail (habove a ha) hc
    · rw [Finset.card_insert_of_notMem hnot]
      omega

/-- The shape of a node of an acyclic arena is the node over the shapes of its children, with
nothing cut off. -/
theorem shape_eq (h : t.Acyclic) (id : NodeId) :
    t.shape id = .node id (t.label id) ((t.children id).map t.shape) := by
  have hstable : t.shapeTo (t.size + 1) id = t.shapeTo t.size id :=
    shapeTo_succ h t.size id ∅ (by simp) (by simp) (by simp)
  rw [shape, ← hstable, shapeTo]
  rfl

/-- Induction on the nodes of an acyclic arena, from the children to their parents. -/
theorem Acyclic.induct (h : t.Acyclic) {P : NodeId → Prop}
    (step : ∀ id, (∀ c ∈ t.children id, P c) → P id) (id : NodeId) : P id := by
  suffices hshape : ∀ s id, t.shape id = s → P id from hshape _ id rfl
  intro s
  induction s using Shape.induct with
  | node _ _ children ih =>
    intro id hid
    rw [shape_eq h] at hid
    injection hid with _ _ hchildren
    refine step id fun c hc => ih (t.shape c) ?_ c rfl
    rw [← hchildren]
    exact List.mem_map_of_mem hc

end Tree

end Lookahead
