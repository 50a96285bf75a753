import Lookahead.Proofs.Tree.Shape
import Lookahead.Stream.Nodes

/-!
# Node streams are bracketed

The markers in the stream of a tree come in pairs around the children of a node (`Bracketed`).
Which node a marker belongs to cannot be seen from the marker, but nothing else than the children
of a node starts with `down`.  So wherever a node occurs in a stream, the units from there on start
with those of the node's own subtree, and what is behind them is no `down` (`Spliced`): lists, which
add no units of their own, do not come between a node and its markers.
-/

namespace Lookahead

/-! ## The units of a shape -/

namespace Shape

variable {label : NodeLabel} {children : List Shape}

lemma unitsAll_eq (children : List Shape) : unitsAll children = children.flatMap units :=
  eq_flatMap rfl (fun _ _ => rfl) children

lemma units_list (id : NodeId) (h : label.isList = true) :
    (node id label children).units = children.flatMap units := by
  cases children <;> simp [units, h, unitsAll_eq]

lemma units_leaf (id : NodeId) (h : label.isList = false) :
    (node id label []).units = [.node id label] := by
  simp [units, h]

lemma units_inner (id : NodeId) (h : label.isList = false) (hchildren : children ≠ []) :
    (node id label children).units =
      .node id label :: .down :: (children.flatMap units ++ [.up]) := by
  obtain ⟨child, rest, rfl⟩ := List.exists_cons_of_ne_nil hchildren
  simp [units, h, unitsAll_eq]

end Shape

/-! ## Brackets -/

lemma head?_append_ne_down {us vs : List NodeUnit} (hus : us.head? ≠ some .down)
    (hvs : vs.head? ≠ some .down) : (us ++ vs).head? ≠ some .down := by
  cases us with
  | nil => exact hvs
  | cons => exact hus

/-- The markers come in pairs, each around what is below the node in front of it. -/
inductive Bracketed : List NodeUnit → Prop
  | nil : Bracketed []
  | leaf (id : NodeId) (label : NodeLabel) {rest : List NodeUnit} (next : Bracketed rest) :
      Bracketed (.node id label :: rest)
  | inner (id : NodeId) (label : NodeLabel) {below rest : List NodeUnit} (inside : Bracketed below)
      (next : Bracketed rest) : Bracketed (.node id label :: .down :: (below ++ .up :: rest))

namespace Bracketed

variable {us vs : List NodeUnit}

lemma append (hus : Bracketed us) (hvs : Bracketed vs) : Bracketed (us ++ vs) := by
  induction hus with
  | nil => exact hvs
  | leaf id label _ ih => exact .leaf id label ih
  | inner id label hbelow _ _ ih =>
    simp only [List.cons_append, List.append_assoc]
    exact .inner id label hbelow ih

lemma flatMap {α : Type} {f : α → List NodeUnit} {as : List α} (h : ∀ a ∈ as, Bracketed (f a)) :
    Bracketed (as.flatMap f) := by
  induction as with
  | nil => exact .nil
  | cons a rest ih =>
    rw [List.flatMap_cons]
    exact (h a List.mem_cons_self).append (ih fun b hb => h b (List.mem_cons_of_mem a hb))

lemma head_ne_down (h : Bracketed us) : us.head? ≠ some .down := by
  cases h <;> simp

/-- What stands around a `down`: a node in front of it, and behind it the units up to the `up` that
matches it. -/
theorem around_down (h : Bracketed us) {front back : List NodeUnit}
    (hus : us = front ++ .down :: back) :
    ∃ before id label below rest, front = before ++ [.node id label] ∧ Bracketed below ∧
      back = below ++ .up :: rest := by
  induction h generalizing front back with
  | nil => simp at hus
  | leaf n l _ ih =>
    obtain _ | ⟨unit, front⟩ := front
    · simp at hus
    obtain ⟨rfl, hrest⟩ := List.cons_eq_cons.1 hus
    obtain ⟨before, id, label, below, rest, rfl, hbelow, rfl⟩ := ih hrest
    exact ⟨_ :: before, id, label, below, rest, rfl, hbelow, rfl⟩
  | @inner n l below rest hbelow _ ihbelow ih =>
    obtain _ | ⟨unit, _ | ⟨unit', front⟩⟩ := front
    · simp at hus
    · -- the pair of this node
      obtain ⟨rfl, htail⟩ := List.cons_eq_cons.1 hus
      obtain ⟨-, rfl⟩ := List.cons_eq_cons.1 htail
      exact ⟨[], n, l, below, rest, rfl, hbelow, rfl⟩
    obtain ⟨rfl, htail⟩ := List.cons_eq_cons.1 hus
    obtain ⟨rfl, hrest⟩ := List.cons_eq_cons.1 htail
    obtain ⟨_ | ⟨unit, behind⟩, rfl, hbehind⟩ | ⟨_ | ⟨unit, inside⟩, rfl, hinside⟩ :=
      List.append_eq_append_iff.1 hrest
    · simp at hbehind
    · -- behind the pair of this node
      obtain ⟨rfl, hlater⟩ := List.cons_eq_cons.1 hbehind
      obtain ⟨before, id, label, below', rest', rfl, hbelow', rfl⟩ := ih hlater
      exact ⟨.node n l :: .down :: (below ++ .up :: before), id, label, below', rest', by simp,
        hbelow', rfl⟩
    · simp at hinside
    · -- inside it
      obtain ⟨rfl, rfl⟩ := List.cons_eq_cons.1 hinside
      obtain ⟨before, id, label, below', rest', rfl, hbelow', rfl⟩ := ihbelow rfl
      exact ⟨.node n l :: .down :: before, id, label, below', rest' ++ .up :: rest, rfl, hbelow',
        by simp⟩

end Bracketed

/-- The stream of a tree is bracketed: every `down` stands behind a node, and has an `up` that
matches it. -/
theorem Shape.bracketed (s : Shape) : Bracketed s.units := by
  induction s using Shape.induct_kinds with
  | list id label children hlist ih =>
    rw [units_list id hlist]
    exact .flatMap ih
  | leaf id label hlist =>
    rw [units_leaf id hlist]
    exact .leaf id label .nil
  | inner id label child rest hlist ih =>
    rw [units_inner id hlist (List.cons_ne_nil child rest)]
    exact .inner id label (.flatMap ih) .nil

/-! ## Subtrees in the stream -/

namespace Tree

variable {t : Tree}

/-- The units below a node. -/
def unitsBelow (t : Tree) (id : NodeId) : List NodeUnit :=
  (t.children id).flatMap fun c => (t.shape c).units

lemma bracketed_unitsBelow (t : Tree) (id : NodeId) : Bracketed (t.unitsBelow id) :=
  .flatMap fun c _ => (t.shape c).bracketed

namespace Acyclic

variable (h : t.Acyclic) {id : NodeId}
include h

lemma units_list (hlist : (t.label id).isList = true) : (t.shape id).units = t.unitsBelow id := by
  rw [shape_eq h, Shape.units_list id hlist, List.flatMap_map, unitsBelow]

lemma units_leaf (hlist : (t.label id).isList = false) (hchildren : t.children id = []) :
    (t.shape id).units = [.node id (t.label id)] := by
  rw [shape_eq h, hchildren]
  exact Shape.units_leaf id hlist

lemma units_inner (hlist : (t.label id).isList = false) (hchildren : t.children id ≠ []) :
    (t.shape id).units = .node id (t.label id) :: .down :: (t.unitsBelow id ++ [.up]) := by
  rw [shape_eq h, Shape.units_inner id hlist (by simpa using hchildren), List.flatMap_map,
    unitsBelow]

/-- The units of a subtree are its node, and behind it, between markers, those of the children. -/
lemma units_cases (hlist : (t.label id).isList = false) :
    (t.shape id).units = [.node id (t.label id)] ∨
      (t.shape id).units = .node id (t.label id) :: .down :: (t.unitsBelow id ++ [.up]) := by
  by_cases hchildren : t.children id = []
  · exact .inl (h.units_leaf hlist hchildren)
  · exact .inr (h.units_inner hlist hchildren)

end Acyclic

/-- Wherever a node occurs, which is not a list, the units of its subtree start, and no `down`
comes behind them. -/
def Spliced (t : Tree) (us : List NodeUnit) : Prop :=
  ∀ front id label back, us = front ++ .node id label :: back →
    label = t.label id ∧ label.isList = false ∧
      ∃ rest, .node id label :: back = (t.shape id).units ++ rest ∧ rest.head? ≠ some .down

namespace Spliced

variable {us vs : List NodeUnit}

lemma nil : t.Spliced [] := by
  intro front id label back hus
  simp at hus

lemma marker {unit : NodeUnit} (hunit : unit.node? = none) (h : t.Spliced us) :
    t.Spliced (unit :: us) := by
  intro front id label back hus
  obtain _ | ⟨unit', front⟩ := front
  · obtain ⟨rfl, -⟩ := List.cons_eq_cons.1 hus
    cases hunit
  · exact h front id label back (List.cons_eq_cons.1 hus).2

/-- A node with the rest of its subtree behind it. -/
lemma node {id : NodeId} (hlist : (t.label id).isList = false)
    (hunits : (t.shape id).units = .node id (t.label id) :: us) (h : t.Spliced us) :
    t.Spliced (t.shape id).units := by
  intro front id' label back hus
  rw [hunits] at hus
  obtain _ | ⟨unit, front⟩ := front
  · obtain ⟨hnode, rfl⟩ := List.cons_eq_cons.1 hus
    obtain ⟨rfl, rfl⟩ := NodeUnit.node.inj hnode
    exact ⟨rfl, hlist, [], by rw [hunits, List.append_nil], by simp⟩
  · exact h front id' label back (List.cons_eq_cons.1 hus).2

lemma append (hus : t.Spliced us) (hvs : t.Spliced vs) (hhead : vs.head? ≠ some .down) :
    t.Spliced (us ++ vs) := by
  intro front id label back h
  obtain ⟨passed, rfl, hpassed⟩ | ⟨_ | ⟨unit, tail⟩, rfl, htail⟩ := List.append_eq_append_iff.1 h
  · exact hvs passed id label back hpassed
  · exact hvs [] id label back htail.symm
  · obtain ⟨rfl, rfl⟩ := List.cons_eq_cons.1 htail
    obtain ⟨hlabel, hlist, rest, hrest, hdown⟩ := hus front id label tail rfl
    refine ⟨hlabel, hlist, rest ++ vs, ?_, head?_append_ne_down hdown hhead⟩
    rw [← List.append_assoc, ← hrest]
    rfl

lemma label_eq (h : t.Spliced us) {id : NodeId} {label : NodeLabel}
    (hmem : .node id label ∈ us) : label = t.label id := by
  obtain ⟨front, back, hus⟩ := List.append_of_mem hmem
  exact (h front id label back hus).1

lemma flatMap {ids : List NodeId} (h : ∀ id ∈ ids, t.Spliced (t.shape id).units) :
    t.Spliced (ids.flatMap fun id => (t.shape id).units) := by
  induction ids with
  | nil => exact nil
  | cons id rest ih =>
    rw [List.flatMap_cons]
    refine (h id List.mem_cons_self).append (ih fun b hb => h b (List.mem_cons_of_mem id hb)) ?_
    exact (Bracketed.flatMap fun b _ => (t.shape b).bracketed).head_ne_down

end Spliced

/-- In the stream of an acyclic tree every node starts its own subtree, behind which there is no
`down`. -/
theorem Acyclic.spliced (h : t.Acyclic) (root : NodeId) : t.Spliced (t.shape root).units := by
  induction root using h.induct with
  | step id ih =>
    cases hlist : (t.label id).isList with
    | true =>
      rw [h.units_list hlist]
      exact .flatMap ih
    | false =>
      by_cases hchildren : t.children id = []
      · exact .node hlist (h.units_leaf hlist hchildren) .nil
      · have hup : t.Spliced [.up] := .marker rfl .nil
        have hinside := (Spliced.flatMap ih).append hup (by simp)
        exact .node hlist (h.units_inner hlist hchildren) (.marker rfl hinside)

lemma Acyclic.spliced_below (h : t.Acyclic) (id : NodeId) : t.Spliced (t.unitsBelow id) :=
  .flatMap fun c _ => h.spliced c

end Tree

end Lookahead
