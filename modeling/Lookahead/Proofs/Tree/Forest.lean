import Mathlib.Data.List.Nodup
import Mathlib.Logic.Relation
import Lookahead.Tree.Build

/-!
# The arena stays a forest

An arena says three times which node is whose child: a node names its parent, the parent lists
its children, and the node knows its place in that list.  `Forest` says that the three agree, that
following parents always ends, and that no list is a child.  Each step of building a tree keeps
that, as long as no node is put under itself or under a node below it, and `forest_of_steps` says
it of any sequence of steps.

A step that moves nodes is described by what it does to the children of every node
(`children_append`, `children_addChild`): the nodes that are moved vanish from every list and come
last, in their order, in the list of their new parent.
-/

namespace Lookahead.Tree

/-- The place that a node holds among its parent's children. -/
def place (t : Tree) (id : NodeId) : Nat := (t.node id).childIndex

/-- The first node is the second, or below it. -/
def Under (t : Tree) : NodeId → NodeId → Prop :=
  Relation.ReflTransGen fun child parent => t.parent child = some parent

/-- Parents, lists of children and places agree, and no node is above itself. -/
structure Forest (t : Tree) : Prop where
  mem_children : ∀ p c, c ∈ t.children p ↔ t.parent c = some p
  nodup : ∀ p, (t.children p).Nodup
  place : ∀ p c, t.parent c = some p → (t.children p)[t.place c]? = some c
  /-- Following parents always ends. -/
  ends : WellFounded fun p c => t.parent c = some p
  /-- A list gives its children away when it is added, and is never a child itself. -/
  not_list : ∀ p c, t.parent c = some p → t.isList c = false

/-! ## Single nodes -/

section Modify

variable {β : Type} {t : Tree}

lemma modify_of_size_le {id : NodeId} (h : t.size ≤ id) (f : TreeNode → TreeNode) :
    t.modify id f = t := by
  have hnodes : t.nodes.modify id f = t.nodes := by
    apply Array.ext_getElem?
    intro i
    rw [Array.getElem?_modify]
    by_cases hi : id = i
    · have hout : t.nodes.size ≤ i := hi ▸ h
      rw [if_pos hi, Array.getElem?_eq_none hout]
      rfl
    · rw [if_neg hi]
  rw [modify, hnodes]

lemma node_modify_of_ne {id other : NodeId} (h : other ≠ id) (f : TreeNode → TreeNode) :
    (t.modify id f).node other = t.node other := by
  by_cases hid : id < t.size
  · rw [node_modify t f hid, if_neg h]
  · rw [modify_of_size_le (Nat.le_of_not_lt hid)]

/-- A change of a node is not seen by a reading that it does not touch. -/
lemma read_modify (t : Tree) (id : NodeId) {f : TreeNode → TreeNode} (g : TreeNode → β)
    (h : ∀ n, g (f n) = g n) (other : NodeId) :
    g ((t.modify id f).node other) = g (t.node other) := by
  by_cases hid : id < t.size
  · rw [node_modify t f hid]
    by_cases ho : other = id
    · rw [if_pos ho, h, ho]
    · rw [if_neg ho]
  · rw [modify_of_size_le (Nat.le_of_not_lt hid)]

lemma node_of_size_le {id : NodeId} (h : t.size ≤ id) : t.node id = default := by
  have hnone : t.nodes[id]? = none := Array.getElem?_eq_none h
  rw [node, Array.getD_eq_getD_getElem?, hnone]
  rfl

lemma lt_of_parent {p c : NodeId} (h : t.parent c = some p) : c < t.size := by
  apply Nat.lt_of_not_le
  intro hout
  rw [parent, node_of_size_le hout] at h
  cases h

lemma lt_of_mem_children {p c : NodeId} (h : c ∈ t.children p) : p < t.size := by
  apply Nat.lt_of_not_le
  intro hout
  rw [children, node_of_size_le hout] at h
  exact absurd h List.not_mem_nil

end Modify

/-! ## Numbering siblings -/

section Renumber

variable {ids : List NodeId}

lemma read_renumber {β : Type} (g : TreeNode → β)
    (h : ∀ n i, g { n with childIndex := i } = g n) (t : Tree) (i : Nat) (ids : List NodeId)
    (other : NodeId) : g ((t.renumber i ids).node other) = g (t.node other) := by
  induction ids generalizing t i with
  | nil => rfl
  | cons id rest ih =>
    rw [renumber, ih]
    exact read_modify t id g (fun n => h n i) other

@[simp] lemma parent_renumber (t : Tree) (i : Nat) (ids : List NodeId) :
    (t.renumber i ids).parent = t.parent :=
  funext (read_renumber TreeNode.parent (fun _ _ => rfl) t i ids)

@[simp] lemma children_renumber (t : Tree) (i : Nat) (ids : List NodeId) :
    (t.renumber i ids).children = t.children :=
  funext (read_renumber TreeNode.children (fun _ _ => rfl) t i ids)

@[simp] lemma label_renumber (t : Tree) (i : Nat) (ids : List NodeId) :
    (t.renumber i ids).label = t.label :=
  funext (read_renumber TreeNode.label (fun _ _ => rfl) t i ids)

lemma place_renumber_of_notMem {c : NodeId} (t : Tree) (i : Nat) (h : c ∉ ids) :
    (t.renumber i ids).place c = t.place c := by
  induction ids generalizing t i with
  | nil => rfl
  | cons id rest ih =>
    rw [List.mem_cons, not_or] at h
    rw [renumber, ih _ _ h.2, place, node_modify_of_ne h.1, place]

/-- A sibling that is numbered gets its place in the list. -/
lemma place_renumber (t : Tree) (i : Nat) (hin : ∀ c ∈ ids, c < t.size) (hids : ids.Nodup)
    {j : Nat} {c : NodeId} (hc : ids[j]? = some c) : (t.renumber i ids).place c = i + j := by
  induction ids generalizing t i j with
  | nil => cases hc
  | cons id rest ih =>
    obtain ⟨hnot, hrest⟩ := List.nodup_cons.mp hids
    rw [renumber]
    cases j with
    | zero =>
      have hid : id = c := Option.some.inj hc
      rw [place_renumber_of_notMem _ _ (hid ▸ hnot), place,
        node_modify _ _ (hin id List.mem_cons_self), if_pos hid.symm, Nat.add_zero]
    | succ j =>
      have hin' : ∀ c ∈ rest, c < (t.modify id fun n => { n with childIndex := i }).size := by
        intro c hc
        rw [size_modify]
        exact hin c (List.mem_cons_of_mem _ hc)
      rw [ih _ _ hin' hrest (by simpa only [List.getElem?_cons_succ] using hc)]
      omega

end Renumber

/-! ## Detaching -/

section Detach

variable {t : Tree}

lemma isList_of_label {t' : Tree} (h : t'.label = t.label) : t'.isList = t.isList := by
  funext id
  rw [isList, isList, h]

lemma filter_ne_of_notMem {c : NodeId} {l : List NodeId} (h : c ∉ l) :
    l.filter (· ≠ c) = l :=
  List.filter_eq_self.mpr fun _ hx => decide_eq_true fun hxc => h (hxc ▸ hx)

lemma filter_bne (c : NodeId) (l : List NodeId) : l.filter (· != c) = l.filter (· ≠ c) :=
  List.filter_congr fun _ _ => by rw [bne, beq_eq_decide, decide_not]

lemma detach_of_root {c : NodeId} (h : t.parent c = none) : t.detach c = t := by
  rw [detach, h]

/-- Taking a node from its parent: the node forgets the parent, the parent forgets the node, and
the siblings that are left are numbered. -/
lemma detach_of_parent {p c : NodeId} (h : t.parent c = some p) :
    t.detach c = (((t.modify c fun n => { n with parent := none }).modify p fun n =>
      { n with children := (t.children p).filter (· != c) }).renumber 0
        ((t.children p).filter (· != c))) := by
  rw [detach, h]

@[simp] lemma label_detach (t : Tree) (c : NodeId) : (t.detach c).label = t.label := by
  cases hp : t.parent c with
  | none => rw [detach_of_root hp]
  | some p =>
    rw [detach_of_parent hp, label_renumber]
    funext id
    exact (read_modify _ p TreeNode.label (by intro; rfl) id).trans
      (read_modify t c TreeNode.label (by intro; rfl) id)

lemma parent_detach (t : Tree) (c x : NodeId) :
    (t.detach c).parent x = if x = c then none else t.parent x := by
  cases hp : t.parent c with
  | none =>
    rw [detach_of_root hp]
    by_cases hx : x = c
    · rw [if_pos hx, hx, hp]
    · rw [if_neg hx]
  | some p =>
    rw [detach_of_parent hp, parent_renumber]
    refine (read_modify _ p TreeNode.parent (by intro; rfl) x).trans ?_
    rw [node_modify _ _ (lt_of_parent hp)]
    by_cases hx : x = c
    · rw [if_pos hx, if_pos hx]
    · rw [if_neg hx, if_neg hx, parent]

namespace Forest

lemma lt_of_parent' (h : t.Forest) {p c : NodeId} (hc : t.parent c = some p) : p < t.size :=
  lt_of_mem_children ((h.mem_children p c).mpr hc)

lemma children_detach (h : t.Forest) (c q : NodeId) :
    (t.detach c).children q = (t.children q).filter (· ≠ c) := by
  cases hp : t.parent c with
  | none =>
    have hnot : c ∉ t.children q := by
      rw [h.mem_children, hp]
      exact fun hq => nomatch hq
    rw [detach_of_root hp, filter_ne_of_notMem hnot]
  | some p =>
    have hsize : p < (t.modify c fun n => { n with parent := none }).size := by
      rw [size_modify]
      exact h.lt_of_parent' hp
    rw [detach_of_parent hp, children_renumber, children, node_modify _ _ hsize]
    by_cases hq : q = p
    · rw [if_pos hq, hq, filter_bne]
    · have hnot : c ∉ t.children q := by
        rw [h.mem_children, hp]
        exact fun hpq => hq (Option.some.inj hpq).symm
      rw [if_neg hq, filter_ne_of_notMem hnot]
      exact read_modify t c TreeNode.children (by intro; rfl) q

/-- The siblings that stay are numbered anew; nothing else gets another place. -/
lemma place_detach (h : t.Forest) {c q x : NodeId} (hx : (t.detach c).parent x = some q) :
    ((t.detach c).children q)[(t.detach c).place x]? = some x := by
  rw [parent_detach] at hx
  by_cases hxc : x = c
  · rw [if_pos hxc] at hx
    cases hx
  · rw [if_neg hxc] at hx
    have hmem : x ∈ (t.children q).filter (· ≠ c) :=
      List.mem_filter.mpr ⟨(h.mem_children q x).mpr hx, decide_eq_true hxc⟩
    rw [h.children_detach]
    cases hp : t.parent c with
    | none =>
      have hsame := h.children_detach c q
      rw [detach_of_root hp] at hsame ⊢
      rw [← hsame]
      exact h.place q x hx
    | some p =>
      rw [detach_of_parent hp, filter_bne]
      by_cases hq : q = p
      · subst hq
        obtain ⟨j, hj⟩ := List.mem_iff_getElem?.mp hmem
        rw [place_renumber _ _ _ ((h.nodup q).filter _) hj, Nat.zero_add, hj]
        intro y hy
        rw [size_modify, size_modify]
        exact lt_of_parent ((h.mem_children q y).mp (List.mem_of_mem_filter hy))
      · have hnot : x ∉ (t.children p).filter (· ≠ c) := by
          intro hin
          have hpx := (h.mem_children p x).mp (List.mem_of_mem_filter hin)
          exact hq (Option.some.inj (hx.symm.trans hpx))
        have hnotc : c ∉ t.children q := by
          intro hin
          exact hq (Option.some.inj (((h.mem_children q c).mp hin).symm.trans hp))
        have hplace : ((t.modify c fun n => { n with parent := none }).modify p fun n =>
            { n with children := (t.children p).filter (· ≠ c) }).place x = t.place x :=
          (read_modify _ p TreeNode.childIndex (by intro; rfl) x).trans
            (read_modify t c TreeNode.childIndex (by intro; rfl) x)
        rw [place_renumber_of_notMem _ _ hnot, filter_ne_of_notMem hnotc, hplace]
        exact h.place q x hx

/-- Taking a node from its parent keeps the arena a forest. -/
theorem detach (h : t.Forest) (c : NodeId) : (t.detach c).Forest where
  mem_children q x := by
    rw [h.children_detach, List.mem_filter, decide_eq_true_iff, h.mem_children, parent_detach]
    by_cases hx : x = c
    · rw [if_pos hx]
      exact ⟨fun hq => absurd hx hq.2, fun hq => nomatch hq⟩
    · rw [if_neg hx]
      exact ⟨And.left, fun hq => ⟨hq, hx⟩⟩
  nodup q := by
    rw [h.children_detach]
    exact (h.nodup q).filter _
  place _ _ := h.place_detach
  ends := by
    refine Subrelation.wf ?_ h.ends
    intro q x hx
    rw [parent_detach] at hx
    by_cases hxc : x = c
    · rw [if_pos hxc] at hx
      cases hx
    · rwa [if_neg hxc] at hx
  not_list q x hx := by
    rw [isList_of_label (label_detach t c)]
    rw [parent_detach] at hx
    by_cases hxc : x = c
    · rw [if_pos hxc] at hx
      cases hx
    · rw [if_neg hxc] at hx
      exact h.not_list q x hx

end Forest

end Detach

/-! ## Attaching -/

section Attach

variable {t : Tree} {p c : NodeId}

/-- The second half of appending: a node without a parent becomes the last child of `p`. -/
def attach (t : Tree) (p c : NodeId) : Tree :=
  (t.modify p fun n => { n with children := n.children ++ [c] }).modify c fun n =>
    { n with parent := some p, childIndex := (t.children p).length }

lemma append_eq (t : Tree) (p c : NodeId) : t.append p c = (t.detach c).attach p c := rfl

@[simp] lemma size_attach (t : Tree) (p c : NodeId) : (t.attach p c).size = t.size := by
  rw [attach, size_modify, size_modify]

@[simp] lemma label_attach (t : Tree) (p c : NodeId) : (t.attach p c).label = t.label := by
  funext id
  exact (read_modify _ c TreeNode.label (by intro; rfl) id).trans
    (read_modify t p TreeNode.label (by intro; rfl) id)

lemma children_attach (hp : p < t.size) (q : NodeId) :
    (t.attach p c).children q = t.children q ++ if q = p then [c] else [] := by
  refine (read_modify _ c TreeNode.children (by intro; rfl) q).trans ?_
  rw [node_modify _ _ hp]
  by_cases hq : q = p
  · rw [if_pos hq, if_pos hq, hq, children]
  · rw [if_neg hq, if_neg hq, List.append_nil, children]

lemma parent_attach (hc : c < t.size) (x : NodeId) :
    (t.attach p c).parent x = if x = c then some p else t.parent x := by
  rw [attach, parent, node_modify _ _ (by rwa [size_modify])]
  by_cases hx : x = c
  · rw [if_pos hx, if_pos hx]
  · rw [if_neg hx, if_neg hx]
    exact read_modify t p TreeNode.parent (by intro; rfl) x

lemma place_attach (hc : c < t.size) (x : NodeId) :
    (t.attach p c).place x = if x = c then (t.children p).length else t.place x := by
  rw [attach, place, node_modify _ _ (by rwa [size_modify])]
  by_cases hx : x = c
  · rw [if_pos hx, if_pos hx]
  · rw [if_neg hx, if_neg hx]
    exact read_modify t p TreeNode.childIndex (by intro; rfl) x

/-- A node that is not above `x` and gets a new parent leaves what is above `x` as it is. -/
lemma under_attach (hc : c < t.size) {x m : NodeId} (hx : ¬ t.Under x c)
    (h : (t.attach p c).Under x m) : t.Under x m := by
  induction h using Relation.ReflTransGen.head_induction_on with
  | refl => exact Relation.ReflTransGen.refl
  | @head x y hstep _ ih =>
    rw [parent_attach hc] at hstep
    by_cases hxc : x = c
    · exact absurd (hxc ▸ Relation.ReflTransGen.refl) hx
    · rw [if_neg hxc] at hstep
      exact .head hstep (ih fun hy => hx (.head hstep hy))

/-- Following parents still ends if the new parent is neither the node nor below it. -/
lemma ends_attach (hc : c < t.size) (hends : WellFounded fun p c => t.parent c = some p)
    (hpc : ¬ t.Under p c) : WellFounded fun q x => (t.attach p c).parent x = some q := by
  have above : ∀ x, ¬ t.Under x c → Acc (fun q x => (t.attach p c).parent x = some q) x := by
    intro x
    induction x using hends.induction with
    | _ x ih =>
      intro hx
      constructor
      intro y hy
      have hxc : x ≠ c := fun hxc => hx (hxc ▸ Relation.ReflTransGen.refl)
      rw [parent_attach hc, if_neg hxc] at hy
      exact ih y hy fun hyc => hx (.head hy hyc)
  constructor
  intro x
  induction x using hends.induction with
  | _ x ih =>
    constructor
    intro y hy
    rw [parent_attach hc] at hy
    by_cases hxc : x = c
    · rw [if_pos hxc] at hy
      exact Option.some.inj hy ▸ above p hpc
    · rw [if_neg hxc] at hy
      exact ih y hy

namespace Forest

/-- Making a node the last child of another one keeps the arena a forest, if the node has no parent,
is no list, and is not above the other one. -/
theorem attach (h : t.Forest) (hp : p < t.size) (hc : c < t.size) (hroot : t.parent c = none)
    (hlist : t.isList c = false) (hpc : ¬ t.Under p c) : (t.attach p c).Forest where
  mem_children q x := by
    rw [children_attach hp, parent_attach hc, List.mem_append, h.mem_children]
    by_cases hx : x = c
    · rw [if_pos hx, hx, hroot]
      by_cases hq : q = p
      · rw [if_pos hq, hq]
        exact ⟨fun _ => rfl, fun _ => .inr (List.mem_singleton_self c)⟩
      · rw [if_neg hq]
        exact ⟨fun hin => by simp at hin, fun heq => absurd (Option.some.inj heq).symm hq⟩
    · rw [if_neg hx]
      refine ⟨fun hin => hin.resolve_right ?_, .inl⟩
      by_cases hq : q = p
      · rw [if_pos hq, List.mem_singleton]
        exact hx
      · rw [if_neg hq]
        exact List.not_mem_nil
  nodup q := by
    rw [children_attach hp]
    by_cases hq : q = p
    · rw [if_pos hq]
      apply List.Nodup.append (h.nodup q) (List.nodup_singleton c)
      rw [List.disjoint_singleton, h.mem_children, hroot]
      exact fun heq => nomatch heq
    · rw [if_neg hq, List.append_nil]
      exact h.nodup q
  place q x hx := by
    rw [parent_attach hc] at hx
    rw [children_attach hp, place_attach hc]
    by_cases hxc : x = c
    · rw [if_pos hxc] at hx ⊢
      rw [if_pos (Option.some.inj hx).symm, ← Option.some.inj hx, hxc,
        List.getElem?_concat_length]
    · rw [if_neg hxc] at hx ⊢
      exact List.getElem?_append_left (List.getElem?_eq_some_iff.mp (h.place q x hx)).1 ▸
        h.place q x hx
  ends := ends_attach hc h.ends hpc
  not_list q x hx := by
    rw [isList_of_label (label_attach t p c)]
    rw [parent_attach hc] at hx
    by_cases hxc : x = c
    · rw [hxc, hlist]
    · rw [if_neg hxc] at hx
      exact h.not_list q x hx

end Forest

end Attach

/-! ## Moving nodes under a parent -/

section Moving

variable {t : Tree} {p c : NodeId}

/-- The nodes that adding `c` under `p` puts there: of a list, its children. -/
def moved (t : Tree) (p c : NodeId) : List NodeId :=
  if p = c then [] else if t.isList c then t.children c else [c]

lemma addChild_eq (t : Tree) (p c : NodeId) :
    t.addChild p c = (t.moved p c).foldl (fun t m => t.append p m) t := by
  rw [addChild, moved]
  by_cases hpc : p = c
  · rw [if_pos hpc, if_pos hpc, List.foldl_nil]
  · rw [if_neg hpc, if_neg hpc]
    by_cases hc : t.isList c = true
    · rw [if_pos hc, if_pos hc]
    · rw [if_neg hc, if_neg hc, List.foldl_cons, List.foldl_nil]

/-- What makes a list of nodes fit under `p`: `p` is not one of them, nor below one. -/
structure Movable (t : Tree) (p : NodeId) (ms : List NodeId) : Prop where
  parent_lt : p < t.size
  lt : ∀ m ∈ ms, m < t.size
  not_list : ∀ m ∈ ms, t.isList m = false
  not_under : ∀ m ∈ ms, ¬ t.Under p m
  nodup : ms.Nodup

lemma under_detach {x m : NodeId} (h : (t.detach c).Under x m) : t.Under x m := by
  refine Relation.ReflTransGen.mono (fun a b hab => ?_) x m h
  rw [parent_detach] at hab
  by_cases ha : a = c
  · rw [if_pos ha] at hab
    cases hab
  · rwa [if_neg ha] at hab

namespace Forest

/-- Moving a node under another one keeps the arena a forest, wherever the node was before, if it is
no list and is not above the other one. -/
theorem append (h : t.Forest) (hp : p < t.size) (hc : c < t.size) (hlist : t.isList c = false)
    (hpc : ¬ t.Under p c) : (t.append p c).Forest := by
  rw [append_eq]
  refine (h.detach c).attach (by rwa [size_detach]) (by rwa [size_detach]) ?_ ?_ ?_
  · rw [parent_detach, if_pos rfl]
  · rw [isList_of_label (label_detach t c), hlist]
  · exact fun hu => hpc (under_detach hu)

lemma children_append (h : t.Forest) (hp : p < t.size) (q : NodeId) :
    (t.append p c).children q = (t.children q).filter (· ≠ c) ++ if q = p then [c] else [] := by
  rw [append_eq, children_attach (by rwa [size_detach]), h.children_detach]

end Forest

/-- What is left to move still fits after the first node is moved. -/
lemma Movable.append {m : NodeId} {ms : List NodeId} (h : t.Movable p (m :: ms)) :
    (t.append p m).Movable p ms where
  parent_lt := by
    rw [size_append]
    exact h.parent_lt
  lt x hx := by
    rw [size_append]
    exact h.lt x (List.mem_cons_of_mem m hx)
  not_list x hx := by
    rw [append_eq, isList_of_label (label_attach _ _ _), isList_of_label (label_detach _ _)]
    exact h.not_list x (List.mem_cons_of_mem m hx)
  not_under x hx hu := by
    have hm : m < (t.detach m).size := by
      rw [size_detach]
      exact h.lt m List.mem_cons_self
    have hpm : ¬ (t.detach m).Under p m := fun hd =>
      h.not_under m List.mem_cons_self (under_detach hd)
    exact h.not_under x (List.mem_cons_of_mem m hx) (under_detach (under_attach hm hpm hu))
  nodup := (List.nodup_cons.mp h.nodup).2

namespace Forest

/-- Nodes that are moved under a parent, one after another, end up there in their order. -/
lemma appendAll {ms : List NodeId} (h : t.Forest) (hms : t.Movable p ms) :
    (ms.foldl (fun t m => t.append p m) t).Forest ∧ ∀ q,
      (ms.foldl (fun t m => t.append p m) t).children q =
        (t.children q).filter (· ∉ ms) ++ if q = p then ms else [] := by
  induction ms generalizing t with
  | nil =>
    refine ⟨h, fun q => ?_⟩
    rw [List.foldl_nil, ite_self, List.append_nil]
    exact (List.filter_eq_self.mpr fun x _ => decide_eq_true List.not_mem_nil).symm
  | cons m ms ih =>
    have hm : m ∉ ms := (List.nodup_cons.mp hms.nodup).1
    have happend := h.append hms.parent_lt (hms.lt m List.mem_cons_self)
      (hms.not_list m List.mem_cons_self) (hms.not_under m List.mem_cons_self)
    obtain ⟨hforest, hchildren⟩ := ih happend hms.append
    refine ⟨hforest, fun q => ?_⟩
    rw [List.foldl_cons, hchildren, h.children_append hms.parent_lt, List.filter_append,
      List.filter_filter]
    have hrest : (t.children q).filter (fun x => decide (x ∉ ms) && decide (x ≠ m)) =
        (t.children q).filter (· ∉ m :: ms) := by
      refine List.filter_congr fun x _ => ?_
      rw [← Bool.decide_and]
      exact decide_eq_decide.mpr (by rw [List.mem_cons, not_or, and_comm])
    by_cases hq : q = p
    · rw [if_pos hq, if_pos hq, if_pos hq, List.filter_singleton, decide_eq_true hm, cond_true,
        List.append_assoc, List.singleton_append, hrest]
    · rw [if_neg hq, if_neg hq, if_neg hq, List.filter_nil, List.append_nil, hrest]

/-- The nodes that adding a child moves: apart from the order not to put a node below itself,
all that a move needs holds by itself. -/
lemma movable (h : t.Forest) (hp : p < t.size) (hc : c < t.size)
    (hfit : ∀ m ∈ t.moved p c, ¬ t.Under p m) : t.Movable p (t.moved p c) := by
  have hkind : t.moved p c = [] ∨ (t.moved p c = t.children c) ∨
      (t.isList c = false ∧ t.moved p c = [c]) := by
    rw [moved]
    by_cases hpc : p = c
    · exact .inl (if_pos hpc)
    · rw [if_neg hpc]
      by_cases hl : t.isList c = true
      · exact .inr (.inl (if_pos hl))
      · exact .inr (.inr ⟨Bool.eq_false_iff.mpr hl, if_neg hl⟩)
  rcases hkind with hnone | hchildren | ⟨hlist, hsingle⟩
  · rw [hnone]
    exact ⟨hp, by simp, by simp, by simp, List.nodup_nil⟩
  · rw [hchildren] at hfit ⊢
    exact
      { parent_lt := hp
        lt := fun m hm => lt_of_parent ((h.mem_children c m).mp hm)
        not_list := fun m hm => h.not_list c m ((h.mem_children c m).mp hm)
        not_under := hfit
        nodup := h.nodup c }
  · rw [hsingle] at hfit ⊢
    exact
      { parent_lt := hp
        lt := fun m hm => List.mem_singleton.mp hm ▸ hc
        not_list := fun m hm => List.mem_singleton.mp hm ▸ hlist
        not_under := hfit
        nodup := List.nodup_singleton c }

/-- Adding a node to another one keeps the arena a forest, if none of the nodes that are moved by
that is above the other one. -/
theorem addChild (h : t.Forest) (hp : p < t.size) (hc : c < t.size)
    (hfit : ∀ m ∈ t.moved p c, ¬ t.Under p m) : (t.addChild p c).Forest := by
  rw [addChild_eq]
  exact (h.appendAll (h.movable hp hc hfit)).1

/-- **What adding a child does to the children of every node**: the nodes that are moved are taken
from where they were, and come last under their new parent, in order. -/
theorem children_addChild (h : t.Forest) (hp : p < t.size) (hc : c < t.size)
    (hfit : ∀ m ∈ t.moved p c, ¬ t.Under p m) (q : NodeId) :
    (t.addChild p c).children q =
      (t.children q).filter (· ∉ t.moved p c) ++ if q = p then t.moved p c else [] := by
  rw [addChild_eq]
  exact (h.appendAll (h.movable hp hc hfit)).2 q

end Forest

end Moving

/-! ## Steps of a builder -/

/-- What a builder may ask an arena for, with any of the nodes that it knows. -/
inductive Step where
  | list
  | token (token : Token)
  | error (first last : Option Token) (text : String)
  | addChild (parent child : NodeId)
  | becomeRoot (newRoot oldRoot : NodeId)
  | ruleResult (root : NodeId)
  | setBounds (id : NodeId) (first last : Option Nat)
  deriving Repr

/-- The arena after a step.  A root that is refused leaves no other arena. -/
def Step.apply : Step → Tree → Tree
  | .list, t => t.newList.2
  | .token leaf, t => (t.newToken leaf).2
  | .error first last text, t => (t.newError first last text).2
  | .addChild parent child, t => t.addChild parent child
  | .becomeRoot newRoot oldRoot, t =>
    match t.becomeRoot newRoot oldRoot with
    | .ok made => made.2
    | .error _ => t
  | .ruleResult root, t => (t.ruleResult root).2
  | .setBounds id first last, t => t.setBounds id first last

/-- The node that `newRoot` stands for as a root, and the arena in which it is one. -/
def rootOf (t : Tree) (newRoot : NodeId) : Except Misuse (NodeId × Tree) :=
  if t.isList newRoot then
    match t.children newRoot with
    | [] => .ok (newRoot, t)
    | [only] => .ok (only, t.detach only)
    | _ => .error .listAsRoot
  else .ok (newRoot, t)

lemma becomeRoot_eq (t : Tree) (newRoot oldRoot : NodeId) :
    t.becomeRoot newRoot oldRoot =
      (t.rootOf newRoot).map fun made => (made.1, made.2.addChild made.1 oldRoot) := by
  rw [becomeRoot, rootOf]
  by_cases hl : t.isList newRoot = true
  · rw [if_pos hl, if_pos hl]
    rcases t.children newRoot with _ | ⟨only, _ | ⟨second, rest⟩⟩ <;> rfl
  · rw [if_neg hl, if_neg hl]
    rfl

/-- The step names nodes of the arena, and puts no node under itself or under a node below it. -/
def Step.Fits : Step → Tree → Prop
  | .list, _ => True
  | .token _, _ => True
  | .error _ _ _, _ => True
  | .addChild parent child, t =>
    parent < t.size ∧ child < t.size ∧ ∀ m ∈ t.moved parent child, ¬ t.Under parent m
  | .becomeRoot newRoot oldRoot, t =>
    newRoot < t.size ∧ oldRoot < t.size ∧ ∀ made, t.rootOf newRoot = .ok made →
      ∀ m ∈ made.2.moved made.1 oldRoot, ¬ made.2.Under made.1 m
  | .ruleResult root, t => root < t.size
  | .setBounds id _ _, t => id < t.size

/-- Each of the steps fits the arena that it meets, which is the one that those before have made. -/
def Fitting : List Step → Tree → Prop
  | [], _ => True
  | step :: rest, t => step.Fits t ∧ Fitting rest (step.apply t)

/-! ## What a step keeps -/

section Steps

variable {t : Tree}

/-- Arenas with the same parents, children and places, and the same lists among the children, are
forests together. -/
lemma Forest.of_alike (h : t.Forest) {t' : Tree} (hparent : t'.parent = t.parent)
    (hchildren : t'.children = t.children)
    (hrest : ∀ p c, t.parent c = some p → t'.place c = t.place c ∧ t'.isList c = t.isList c) :
    t'.Forest where
  mem_children p c := by rw [hparent, hchildren, h.mem_children]
  nodup p := hchildren ▸ h.nodup p
  place p c hc := by
    rw [hparent] at hc
    rw [hchildren, (hrest p c hc).1]
    exact h.place p c hc
  ends := hparent ▸ h.ends
  not_list p c hc := by
    rw [hparent] at hc
    rw [(hrest p c hc).2]
    exact h.not_list p c hc

lemma Forest.empty : Tree.empty.Forest := by
  have hnone : ∀ {p c}, Tree.empty.parent c ≠ some p := fun h => nomatch h
  exact
    { mem_children := fun p c => ⟨(nomatch ·), (nomatch ·)⟩
      nodup := fun p => List.nodup_nil
      place := fun p c h => absurd h hnone
      ends := ⟨fun c => ⟨c, fun p h => absurd h hnone⟩⟩
      not_list := fun p c h => absurd h hnone }

/-- A new node stands alone. -/
lemma Forest.alloc (h : t.Forest) (label : NodeLabel) (first last : Option Nat) :
    (t.alloc (.single label first last)).2.Forest := by
  have hread : ∀ {β : Type} (g : TreeNode → β), g (.single label first last) = g default →
      ∀ id, g ((t.alloc (.single label first last)).2.node id) = g (t.node id) := by
    intro β g hg id
    rw [node_alloc]
    by_cases hid : id = t.size
    · rw [if_pos hid, hg, hid, node_of_size_le (Nat.le_refl _)]
    · rw [if_neg hid]
  refine h.of_alike (funext (hread TreeNode.parent rfl)) (funext (hread TreeNode.children rfl)) ?_
  intro p c hc
  refine ⟨hread TreeNode.childIndex rfl c, ?_⟩
  rw [isList, isList, Tree.label, node_alloc, if_neg (Nat.ne_of_lt (lt_of_parent hc)), Tree.label]

lemma Forest.setBounds (h : t.Forest) (id : NodeId) (first last : Option Nat) :
    (t.setBounds id first last).Forest := by
  refine h.of_alike (funext (read_modify t id TreeNode.parent (by intro; rfl)))
    (funext (read_modify t id TreeNode.children (by intro; rfl))) fun p c _ => ⟨?_, ?_⟩
  · exact read_modify t id TreeNode.childIndex (by intro; rfl) c
  · exact read_modify t id (fun n => n.label.isList) (by intro; rfl) c

lemma Forest.rootOf (h : t.Forest) {newRoot : NodeId} (hnew : newRoot < t.size)
    {made : NodeId × Tree} (hmade : t.rootOf newRoot = .ok made) :
    made.2.Forest ∧ made.1 < made.2.size ∧ made.2.size = t.size := by
  rw [Tree.rootOf] at hmade
  by_cases hl : t.isList newRoot = true
  · rw [if_pos hl] at hmade
    match hc : t.children newRoot, hmade with
    | [], rfl => exact ⟨h, hnew, rfl⟩
    | [only], rfl =>
      have honly : t.parent only = some newRoot :=
        (h.mem_children newRoot only).mp (hc ▸ List.mem_singleton_self only)
      exact ⟨h.detach only, by rw [size_detach]; exact lt_of_parent honly, size_detach t only⟩
  · rw [if_neg hl] at hmade
    cases hmade
    exact ⟨h, hnew, rfl⟩

/-- Putting a node over another one keeps the arena a forest, if that fits and is not refused. -/
theorem Forest.becomeRoot (h : t.Forest) {newRoot oldRoot : NodeId}
    (hfit : (Step.becomeRoot newRoot oldRoot).Fits t) {made : NodeId × Tree}
    (hmade : t.becomeRoot newRoot oldRoot = .ok made) : made.2.Forest := by
  obtain ⟨hnew, hold, hunder⟩ := hfit
  rw [becomeRoot_eq] at hmade
  cases hroot : t.rootOf newRoot with
  | error e =>
    rw [hroot] at hmade
    cases hmade
  | ok root =>
    rw [hroot] at hmade
    cases hmade
    obtain ⟨hforest, hlt, hsize⟩ := h.rootOf hnew hroot
    exact hforest.addChild hlt (hsize ▸ hold) (hunder root hroot)

lemma Forest.ruleResult (h : t.Forest) (root : NodeId) : (t.ruleResult root).2.Forest := by
  rw [Tree.ruleResult]
  by_cases hl : t.isList root = true
  · rw [if_pos hl]
    rcases t.children root with _ | ⟨only, _ | ⟨second, rest⟩⟩
    · exact h
    · exact h.detach only
    · exact h
  · rw [if_neg hl]
    exact h

/-- **A step that fits keeps the arena a forest**, whichever of the steps it is. -/
theorem Forest.step (h : t.Forest) {step : Step} (hfit : step.Fits t) : (step.apply t).Forest := by
  cases step with
  | list => exact h.alloc .list none none
  | token leaf => exact h.alloc (.token leaf) leaf.index leaf.index
  | error first last text =>
    exact h.alloc (.error text) (first.bind Token.index) (last.bind Token.index)
  | addChild parent child => exact h.addChild hfit.1 hfit.2.1 hfit.2.2
  | becomeRoot newRoot oldRoot =>
    rw [Step.apply]
    cases hmade : t.becomeRoot newRoot oldRoot with
    | ok made => exact h.becomeRoot hfit hmade
    | error e => exact h
  | ruleResult root => exact h.ruleResult root
  | setBounds id first last => exact h.setBounds id first last

/-- A root is refused exactly if it is a list of several nodes. -/
lemma becomeRoot_eq_error_iff {newRoot oldRoot : NodeId} :
    (∃ e, t.becomeRoot newRoot oldRoot = .error e) ↔
      t.isList newRoot = true ∧ 2 ≤ (t.children newRoot).length := by
  rw [Tree.becomeRoot]
  by_cases hl : t.isList newRoot = true
  · rw [if_pos hl]
    rcases t.children newRoot with _ | ⟨only, _ | ⟨second, rest⟩⟩
    · exact ⟨fun ⟨_, he⟩ => (nomatch he), fun hlen => absurd hlen.2 (by simp)⟩
    · exact ⟨fun ⟨_, he⟩ => (nomatch he), fun hlen => absurd hlen.2 (by simp)⟩
    · exact ⟨fun _ => ⟨hl, by rw [List.length_cons, List.length_cons]; omega⟩,
        fun _ => ⟨.listAsRoot, rfl⟩⟩
  · rw [if_neg hl]
    exact ⟨fun ⟨_, he⟩ => (nomatch he), fun hlen => absurd hlen.1 hl⟩

lemma Forest.steps {steps : List Step} (h : t.Forest) (hfit : Fitting steps t) :
    (steps.foldl (fun t step => step.apply t) t).Forest := by
  induction steps generalizing t with
  | nil => exact h
  | cons step rest ih => exact ih (h.step hfit.1) hfit.2

end Steps

/-- **The arena stays a forest.**  The steps are those that build trees, from the empty arena
on.  Each of them fits the arena that it meets (`Fitting`): it names nodes that exist, and puts
no node under itself or under a node below it.

After any such steps parents, children and places agree, following parents ends, and no list is
a child.  In such an arena a child that is added (of a list, each of its children) is taken from
where it was and comes last under its new parent, in order, and nothing else moves.  And a root
that is refused, which happens to a list of several nodes only, changes nothing. -/
theorem forest_of_steps {steps : List Step} (h : Fitting steps Tree.empty) :
    let t := steps.foldl (fun t step => step.apply t) Tree.empty
    t.Forest ∧
      (∀ parent child, (Step.addChild parent child).Fits t → ∀ q,
        ((Step.addChild parent child).apply t).children q =
          (t.children q).filter (· ∉ t.moved parent child) ++
            if q = parent then t.moved parent child else []) ∧
      ∀ newRoot oldRoot, (∃ e, t.becomeRoot newRoot oldRoot = .error e) →
        (Step.becomeRoot newRoot oldRoot).apply t = t ∧
          t.isList newRoot = true ∧ 2 ≤ (t.children newRoot).length := by
  intro t
  have hforest : t.Forest := Forest.empty.steps h
  refine ⟨hforest, ?_, ?_⟩
  · intro parent child hfit q
    exact hforest.children_addChild hfit.1 hfit.2.1 hfit.2.2 q
  · intro newRoot oldRoot hrefused
    refine ⟨?_, becomeRoot_eq_error_iff.mp hrefused⟩
    obtain ⟨e, he⟩ := hrefused
    rw [Step.apply, he]

/-- Two leaves go into a list and the list under `3`; the first leaf goes from there to `4`, which
goes under `3` and then takes the other leaf too; at last `3` becomes a root by way of a list. -/
def regrouping : List Step :=
  let leaf := Step.token (.ofText 4 "x")
  [.list, leaf, leaf, .addChild 0 1, .addChild 0 2, leaf, .addChild 3 0, leaf, .addChild 4 1,
    .addChild 3 4, .addChild 4 2, .list, .addChild 5 3, .becomeRoot 5 4]

lemma not_under_of_root {t : Tree} {x m : NodeId} (hroot : t.parent x = none) (hm : m ≠ x) :
    ¬ t.Under x m := by
  intro h
  rcases h.cases_head with hxm | ⟨y, hy, _⟩
  · exact hm hxm.symm
  · rw [hroot] at hy
    cases hy

/-- A root may be given whatever it is not itself part of. -/
lemma movable_of_root {t : Tree} {p c : NodeId} (hroot : t.parent p = none)
    (hp : p ∉ t.moved p c) : ∀ m ∈ t.moved p c, ¬ t.Under p m := by
  intro m hm
  apply not_under_of_root hroot
  exact fun hmp => hp (hmp ▸ hm)

/-- A child of a root may be given whatever neither of the two is part of. -/
lemma movable_of_child {t : Tree} {p q c : NodeId} (hparent : t.parent p = some q)
    (hroot : t.parent q = none) (hp : p ∉ t.moved p c) (hq : q ∉ t.moved p c) :
    ∀ m ∈ t.moved p c, ¬ t.Under p m := by
  intro m hm h
  rcases h.cases_head with hpm | ⟨y, hy, hym⟩
  · exact hp (hpm ▸ hm)
  · rw [hparent] at hy
    cases hy
    exact not_under_of_root hroot (fun hmq => hq (hmq ▸ hm)) hym

theorem forest_of_steps_regrouping :
    Fitting regrouping Tree.empty ∧
      let t := regrouping.foldl (fun t step => step.apply t) Tree.empty
      t.Forest ∧ t.children 3 = [4] ∧ t.children 4 = [1, 2] := by
  have hfit : Fitting regrouping Tree.empty := by
    refine ⟨trivial, trivial, trivial, ⟨by decide, by decide, movable_of_root ?_ ?_⟩,
      ⟨by decide, by decide, movable_of_root ?_ ?_⟩, trivial,
      ⟨by decide, by decide, movable_of_root ?_ ?_⟩, trivial,
      ⟨by decide, by decide, movable_of_root ?_ ?_⟩,
      ⟨by decide, by decide, movable_of_root ?_ ?_⟩,
      ⟨by decide, by decide, movable_of_child (q := 3) ?_ ?_ ?_ ?_⟩, trivial,
      ⟨by decide, by decide, movable_of_root ?_ ?_⟩, ⟨by decide, by decide, ?_⟩, trivial⟩
    any_goals decide
    intro made hmade
    cases hmade
    exact movable_of_root (by decide) (by decide)
  exact ⟨hfit, (forest_of_steps hfit).1, by decide, by decide⟩

end Lookahead.Tree
