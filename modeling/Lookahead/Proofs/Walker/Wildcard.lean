import Lookahead.Proofs.Action
import Lookahead.Proofs.Stream.Brackets
import Lookahead.Proofs.Stream.Nodes
import Lookahead.Walker

/-!
# The wildcard takes one subtree

A walker sees types and not nodes, and `matchAny` counts markers to find where a subtree ends.
Over units that are bracketed the count comes back to where it was (`Passes.of_bracketed`), so the
loop stops behind the `up` that belongs to the `down` it started at.  That is the end of the
subtree, and `matchAny_takes_subtree` says so for every node in the stream of an acyclic tree.  The
count is only right as long as no token has the type of a marker.
-/

namespace Lookahead

open Action

/-- The node has neither the type of a marker nor that of the end of input. -/
def NodeLabel.Unmarked (label : NodeLabel) : Prop :=
  label.type ≠ .eof ∧ label.type ≠ .down ∧ label.type ≠ .up

instance (label : NodeLabel) : Decidable label.Unmarked := inferInstanceAs (Decidable (_ ∧ _ ∧ _))

/-- No token of the tree has the type of a marker, or that of the end of input. -/
def Tree.Unmarked (t : Tree) : Prop :=
  ∀ id token, t.label id = .token token →
    token.type ≠ .eof ∧ token.type ≠ .down ∧ token.type ≠ .up

lemma Tree.Unmarked.label {t : Tree} (h : t.Unmarked) (id : NodeId) : (t.label id).Unmarked := by
  have hinvalid : NodeLabel.list.Unmarked := by decide
  cases hlabel : t.label id with
  | list | error => exact hinvalid
  | token token => exact h id token hlabel

lemma Tree.Unmarked.eq_down {t : Tree} (h : t.Unmarked) {us : List NodeUnit} (hus : t.Spliced us)
    {unit : NodeUnit} (hunit : unit ∈ us) (htype : unit.type = .down) : unit = .down := by
  cases unit with
  | node id label =>
    rw [hus.label_eq hunit] at htype
    exact absurd htype (h.label id).2.1
  | down => rfl
  | up => cases htype

/-- Where no `down` comes next, the next type is not that of `down`. -/
lemma Tree.Unmarked.next_ne_down {t : Tree} (h : t.Unmarked) {us rest : List NodeUnit}
    (hus : t.Spliced us) (hrest : rest ⊆ us) (hhead : rest.head? ≠ some .down) :
    (rest.head?.map NodeUnit.type).getD .eof ≠ .down := by
  cases rest with
  | nil => decide
  | cons unit rest =>
    intro htype
    exact hhead (congrArg some (h.eq_down hus (hrest List.mem_cons_self) htype))

namespace NodeStream

variable {s : NodeStream} {unit : NodeUnit} {rest : List NodeUnit}

/-- The units from the cursor on. -/
def ahead (s : NodeStream) : List NodeUnit := s.units.toList.drop s.place

/-- The stream `n` units further on. -/
def forward (s : NodeStream) (n : Nat) : NodeStream := { s with place := s.place + n }

lemma forward_forward (s : NodeStream) (m n : Nat) :
    (s.forward m).forward n = s.forward (m + n) := by
  simp [forward, Nat.add_assoc]

lemma ahead_forward {passed : List NodeUnit} (h : s.ahead = passed ++ rest) :
    (s.forward passed.length).ahead = rest := by
  show s.units.toList.drop (s.place + passed.length) = rest
  rw [← List.drop_drop, show s.units.toList.drop s.place = passed ++ rest from h,
    List.drop_left]

lemma ahead_forward_one (h : s.ahead = unit :: rest) : (s.forward 1).ahead = rest :=
  ahead_forward (show s.ahead = [unit] ++ rest from h)

lemma head?_ahead (s : NodeStream) : s.ahead.head? = s.units[s.place]? := by
  rw [ahead, List.head?_drop, Array.getElem?_toList]

lemma lookahead_one (s : NodeStream) :
    s.lookahead 1 = (s.ahead.head?.map NodeUnit.type).getD .eof := by
  rw [head?_ahead]
  cases h : s.units[s.place]? <;> simp [lookahead, unitAt, h]

lemma lookahead_of_ahead (h : s.ahead = unit :: rest) : s.lookahead 1 = unit.type := by
  rw [lookahead_one, h]
  rfl

lemma nodeAt_one (s : NodeStream) : s.nodeAt 1 = s.ahead.head?.bind NodeUnit.node? := by
  rw [head?_ahead]
  simp [nodeAt, unitAt]

lemma consume_eq_forward (h : s.ahead = unit :: rest) : Cursor.consume s = s.forward 1 := by
  have hlt : s.place < s.units.size := by
    apply Nat.lt_of_not_le
    intro hle
    rw [ahead, List.drop_eq_nil_of_le (by simpa using hle)] at h
    cases h
  exact if_pos hlt

end NodeStream

namespace Walker

open NodeStream

/-! ## Counting markers -/

/-- At level `l` the loop passes over the units, and behind them it is at level `l'`. -/
def Passes (l l' : Nat) (us : List NodeUnit) : Prop :=
  ∀ (fuel : Nat) (s : NodeStream) (rest : List NodeUnit), s.ahead = us ++ rest →
    skipLevels (us.length + fuel) l s = skipLevels fuel l' (s.forward us.length)

namespace Passes

variable {l l' l'' : Nat} {us vs : List NodeUnit}

lemma nil (l : Nat) : Passes l l [] := by
  intro fuel s rest _
  rw [List.length_nil, Nat.zero_add]
  rfl

lemma append (hus : Passes l l' us) (hvs : Passes l' l'' vs) : Passes l l'' (us ++ vs) := by
  intro fuel s rest hs
  rw [List.append_assoc] at hs
  rw [List.length_append, Nat.add_assoc, hus _ s _ hs, hvs fuel _ rest (ahead_forward hs),
    forward_forward]

/-- One turn of the loop. -/
lemma of_step {unit : NodeUnit} (h : ∀ (fuel : Nat) (s : NodeStream),
      s.lookahead 1 = unit.type → Cursor.consume s = s.forward 1 →
        skipLevels (fuel + 1) l s = skipLevels fuel l' (s.forward 1)) : Passes l l' [unit] := by
  intro fuel s rest hs
  rw [List.length_singleton, Nat.add_comm]
  exact h fuel s (lookahead_of_ahead hs) (consume_eq_forward hs)

lemma down (l : Nat) : Passes (l + 1) (l + 2) [.down] := by
  refine of_step fun fuel s htype hnext => ?_
  rw [skipLevels, htype, hnext]
  rfl

lemma up (l : Nat) : Passes (l + 1) l [.up] := by
  refine of_step fun fuel s htype hnext => ?_
  rw [skipLevels, htype, hnext]
  rfl

lemma node (l : Nat) (id : NodeId) {label : NodeLabel} (hlabel : label.Unmarked) :
    Passes (l + 1) (l + 1) [.node id label] := by
  refine of_step fun fuel s htype hnext => ?_
  obtain ⟨heof, hdown, hup⟩ := hlabel
  simp only [skipLevels, htype, hnext, NodeUnit.type, if_neg hdown, if_neg hup, if_neg heof]

/-- Behind bracketed units the level is what it was in front of them. -/
lemma of_bracketed (h : Bracketed us) (hus : ∀ id label, .node id label ∈ us → label.Unmarked)
    (l : Nat) : Passes (l + 1) (l + 1) us := by
  induction h generalizing l with
  | nil => exact nil _
  | @leaf id label rest _ ih =>
    have hrest := ih (fun n label hn => hus n label (by simp [hn])) l
    exact (node l id (hus id label (by simp))).append hrest
  | @inner id label below rest _ _ ihbelow ih =>
    -- the units below the node are passed one level higher
    have hbelow := ihbelow (fun n label hn => hus n label (by simp [hn])) (l + 1)
    have hrest := ih (fun n label hn => hus n label (by simp [hn])) l
    have hinner := (down l).append (hbelow.append ((up (l + 1)).append hrest))
    exact (node l id (hus id label (by simp))).append hinner

end Passes

lemma skipLevels_zero (fuel : Nat) (s : NodeStream) : skipLevels fuel 0 s = s := by
  cases fuel <;> rfl

/-! ## Matching -/

variable {w : Walker}

lemma lookahead_apply (w : Walker) :
    Recognizer.lookahead 1 w = some (.ok (w.input.lookahead 1), w) := rfl

/-- The walker behind the unit that it takes. -/
def taken (w : Walker) : Walker :=
  { w with
    input := Cursor.consume w.input
    state := { w.state with recovering := false, failed := false } }

lemma takeUnit_apply (w : Walker) :
    takeUnit w = some (.ok (w.input.nodeAt 1), taken w) := rfl

/-- At a node, `matchAny` takes it, and passes over its children if it has any. -/
lemma matchAny_at_node {id : NodeId} {label : NodeLabel} {back : List NodeUnit}
    (h : w.input.ahead = .node id label :: back) (hlabel : label.Unmarked) :
    ∃ w', matchAny w = some (.ok (some (id, label)), w') ∧
      w'.input = if (w.input.forward 1).lookahead 1 = .down then
        skipLevels w.input.units.size 1 (Cursor.consume (w.input.forward 1))
      else w.input.forward 1 := by
  have htype : w.input.lookahead 1 = label.type := lookahead_of_ahead h
  have hnode : w.input.nodeAt 1 = some (id, label) := by rw [nodeAt_one, h]; rfl
  have htaken : (taken w).input = w.input.forward 1 := consume_eq_forward h
  have hunmarked : ¬ (label.type = .eof ∨ label.type = .down ∨ label.type = .up) := by
    simpa only [not_or] using (show _ ∧ _ ∧ _ from hlabel)
  unfold matchAny
  rw [bind_of_ok (lookahead_apply w), htype, if_neg hunmarked, bind_of_ok (takeUnit_apply w),
    bind_of_ok (lookahead_apply _), hnode, htaken]
  split
  · refine ⟨_, rfl, ?_⟩
    show skipLevels (taken w).input.units.size 1 (Cursor.consume (taken w).input) = _
    rw [htaken]
    rfl
  · exact ⟨_, rfl, htaken⟩

/-- At a marker and at the end of input, `matchAny` fails and stays where it is. -/
lemma matchAny_at_marker
    (h : w.input.lookahead 1 = .eof ∨ w.input.lookahead 1 = .down ∨ w.input.lookahead 1 = .up) :
    ∃ fault w', matchAny w = some (.error fault, w') ∧ w'.input = w.input ∧
      (fault = .backtracking ∨ ∃ f, fault = .failed f ∧ f.kind = .mismatchedNotSet) := by
  unfold matchAny
  rw [bind_of_ok (lookahead_apply w), if_pos h]
  unfold Recognizer.fail
  rw [bind_of_ok (Recognizer.readState_apply _ _)]
  split
  · exact ⟨_, _, rfl, rfl, .inl rfl⟩
  · exact ⟨_, _, rfl, rfl, .inr ⟨_, rfl, rfl⟩⟩

/-- Passing over the children of a node ends behind the `up` that belongs to it. -/
lemma skipLevels_below {t : Tree} (hacyclic : t.Acyclic) (hunmarked : t.Unmarked) {id : NodeId}
    {s : NodeStream} {rest : List NodeUnit} (h : s.ahead = t.unitsBelow id ++ [.up] ++ rest) :
    skipLevels s.units.size 1 s = s.forward (t.unitsBelow id ++ [NodeUnit.up]).length := by
  have hlabels : ∀ n label, .node n label ∈ t.unitsBelow id → label.Unmarked := by
    intro n label hn
    rw [(hacyclic.spliced_below id).label_eq hn]
    exact hunmarked.label n
  have hpasses : Passes 1 0 (t.unitsBelow id ++ [.up]) :=
    (Passes.of_bracketed (t.bracketed_unitsBelow id) hlabels 0).append (.up 0)
  -- the stream has units enough for the loop to get to the marker
  have hle : (t.unitsBelow id ++ [NodeUnit.up]).length ≤ s.units.size := by
    have hlength := congrArg List.length h
    simp only [ahead, List.length_drop, Array.length_toList, List.length_append] at hlength ⊢
    omega
  obtain ⟨fuel, hfuel⟩ := Nat.exists_eq_add_of_le hle
  rw [hfuel, hpasses fuel s rest h, skipLevels_zero]

/-- In front of a subtree, `matchAny` takes its node and goes on to behind its last unit. -/
lemma matchAny_at_subtree {t : Tree} (hacyclic : t.Acyclic) (hunmarked : t.Unmarked) {id : NodeId}
    (hlist : (t.label id).isList = false) {rest : List NodeUnit}
    (h : w.input.ahead = (t.shape id).units ++ rest)
    (hnext : (rest.head?.map NodeUnit.type).getD .eof ≠ .down) :
    ∃ w', matchAny w = some (.ok (some (id, t.label id)), w') ∧
      w'.input = w.input.forward (t.shape id).units.length := by
  obtain hunits | hunits := hacyclic.units_cases hlist
  · rw [hunits] at h
    obtain ⟨w', hrun, hinput⟩ := matchAny_at_node h (hunmarked.label id)
    have hbehind : (w.input.forward 1).ahead = rest := ahead_forward_one h
    rw [lookahead_one, hbehind, if_neg hnext] at hinput
    exact ⟨w', hrun, by rw [hinput, hunits]; rfl⟩
  · rw [hunits] at h
    obtain ⟨w', hrun, hinput⟩ := matchAny_at_node h (hunmarked.label id)
    have hdown : (w.input.forward 1).ahead = .down :: (t.unitsBelow id ++ [.up] ++ rest) :=
      ahead_forward_one h
    have hbelow : (w.input.forward 2).ahead = t.unitsBelow id ++ [.up] ++ rest :=
      ahead_forward_one hdown
    have hpassed : skipLevels w.input.units.size 1 (w.input.forward 2) =
        (w.input.forward 2).forward (t.unitsBelow id ++ [NodeUnit.up]).length :=
      skipLevels_below hacyclic hunmarked hbelow
    have htype : (w.input.forward 1).lookahead 1 = .down := lookahead_of_ahead hdown
    rw [if_pos htype, consume_eq_forward hdown, forward_forward, hpassed, forward_forward,
      Nat.add_comm] at hinput
    exact ⟨w', hrun, by rw [hinput, hunits]; rfl⟩

/-- **The wildcard takes one subtree.**  The tree is acyclic, that is, following children from a
node never leads back to it, and no token of it has the type of one of the markers that the
stream puts in.

Its stream is bracketed: in front of every `down` stands a node, and behind it the `up` that
matches it.  On the unit of a node, be it the root or not, `matchAny` returns that node and goes
on to behind the last unit of its subtree, with lists and error nodes in it as with others.  On
a marker and at the end of input it fails, and the cursor stays. -/
theorem matchAny_takes_subtree {t : Tree} (hacyclic : t.Acyclic) (hunmarked : t.Unmarked)
    (root : NodeId) (name : String) :
    let units := (NodeStream.ofTree t root name).units
    (Bracketed units.toList ∧
      ∀ front back, units.toList = front ++ .down :: back →
        ∃ before id label below rest, front = before ++ [.node id label] ∧ Bracketed below ∧
          back = below ++ .up :: rest) ∧
    ∀ w : Walker, w.input.units = units →
      (∀ id label, units[w.input.place]? = some (.node id label) →
        label = t.label id ∧
        (∃ rest, units.toList.drop w.input.place = (t.shape id).units ++ rest) ∧
        ∃ w', matchAny w = some (.ok (some (id, label)), w') ∧
          w'.input =
            { w.input with place := w.input.place + (t.shape id).units.length }) ∧
      ((∀ id label, units[w.input.place]? ≠ some (.node id label)) →
        ∃ fault w', matchAny w = some (.error fault, w') ∧ w'.input = w.input ∧
          (fault = .backtracking ∨ ∃ f, fault = .failed f ∧ f.kind = .mismatchedNotSet)) := by
  have hbracketed := (t.shape root).bracketed
  refine ⟨⟨hbracketed, fun front back => hbracketed.around_down⟩, fun w hw => ⟨?_, ?_⟩⟩
  · intro id label hid
    -- the stream from the cursor on is the subtree and something that starts with no `down`
    have hahead : w.input.ahead.head? = some (.node id label) := by rw [head?_ahead, hw, hid]
    obtain ⟨back, hback⟩ := List.head?_eq_some_iff.1 hahead
    have hsplit : (t.shape root).units =
        (t.shape root).units.take w.input.place ++ .node id label :: back := by
      rw [← hback, ahead, hw]
      exact (List.take_append_drop _ _).symm
    have hspliced := hacyclic.spliced root
    obtain ⟨rfl, hlist, rest, hrest, hdown⟩ := hspliced _ id label back hsplit
    have hsub : rest ⊆ (t.shape root).units := by
      intro unit hunit
      rw [hsplit, hrest]
      simp [hunit]
    have hnext := hunmarked.next_ne_down hspliced hsub hdown
    obtain ⟨w', hrun, hinput⟩ :=
      matchAny_at_subtree hacyclic hunmarked hlist (hback.trans hrest) hnext
    refine ⟨rfl, ⟨rest, ?_⟩, w', hrun, hinput⟩
    rw [← hrest, ← hback, ahead, hw]
  · intro hmarker
    apply matchAny_at_marker
    rw [lookahead_one, head?_ahead, hw]
    match hunit : (NodeStream.ofTree t root name).units[w.input.place]? with
    | none => exact .inl rfl
    | some .down => exact .inr (.inl rfl)
    | some .up => exact .inr (.inr rfl)
    | some (.node id label) => exact absurd hunit (hmarker id label)

/-- A node whose children are a list with a node in it, an empty list and an error node.  The node
in the list has another empty list as its only child. -/
def thicket : Tree :=
  .ofPairs [.token (.ofText 5 "a"), .list, .list, .error "?", .token (.ofText 6 "b"), .list]
    [(0, 1), (0, 2), (0, 3), (1, 4), (4, 5)]

lemma acyclic_thicket : thicket.Acyclic := Tree.acyclic_of_lt (by decide)

lemma unmarked_thicket : thicket.Unmarked := by
  intro id token hlabel
  have hlabels : ∀ id < 6, (thicket.label id).Unmarked := by decide
  by_cases hid : id < 6
  · have h := hlabels id hid
    rw [hlabel] at h
    exact h
  · rw [Tree.label, Tree.node_of_size_le (Nat.le_of_not_lt hid)] at hlabel
    cases hlabel

/-- The wildcard at the inner node, with the markers around its empty list, ends at the error node;
at the marker behind that it fails. -/
theorem matchAny_takes_subtree_thicket :
    let walker (place : Nat) : Walker :=
      .ofStream { NodeStream.ofTree thicket 0 "<tree>" with place } .standard (.tokens #[])
    thicket.Acyclic ∧ thicket.Unmarked ∧
      (∃ w', matchAny (walker 2) = some (.ok (some (4, .token (.ofText 6 "b"))), w') ∧
        w'.input.place = 5) ∧
      ∃ fault w', matchAny (walker 6) = some (.error fault, w') ∧ w'.input.place = 6 := by
  intro walker
  obtain ⟨-, hmatch⟩ := matchAny_takes_subtree acyclic_thicket unmarked_thicket 0 "<tree>"
  refine ⟨acyclic_thicket, unmarked_thicket, ?_, ?_⟩
  · have hnode : (NodeStream.ofTree thicket 0 "<tree>").units[2]? =
        some (.node 4 (.token (.ofText 6 "b"))) := by decide
    obtain ⟨-, -, w', hrun, hinput⟩ := (hmatch (walker 2) rfl).1 _ _ hnode
    refine ⟨w', hrun, ?_⟩
    rw [hinput]
    rfl
  · have hup : (NodeStream.ofTree thicket 0 "<tree>").units[6]? = some .up := by decide
    have hmarker : ∀ id label,
        (NodeStream.ofTree thicket 0 "<tree>").units[6]? ≠ some (.node id label) := by
      intro id label
      rw [hup]
      simp
    obtain ⟨fault, w', hrun, hinput, -⟩ := (hmatch (walker 6) rfl).2 hmarker
    refine ⟨fault, w', hrun, ?_⟩
    rw [hinput]
    rfl

end Walker

end Lookahead
