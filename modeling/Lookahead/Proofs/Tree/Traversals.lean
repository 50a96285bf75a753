import Lookahead.Proofs.Stream.Brackets
import Lookahead.Tree.GreenBuilder

/-!
# Three ways through a tree

The node stream, the green tree and the list notation each go through a tree on their own, and each
decides for itself what a list, a node without children and a node with children come to.  They are
compared by what a reader of the stream makes of its units (`Visit`): a node with a `down` behind it
is entered, one without is a leaf, and an `up` leaves the node entered last.  Told to a builder, the
visits are the calls that export a green tree; printed, they are the list notation, except that a
list without children, which adds nothing to the stream, is written as a node there.
-/

namespace Lookahead

/-! ## Green trees as a row of calls and as a text -/

namespace Green

lemma callsAll_eq (gs : List Green) : callsAll gs = gs.flatMap calls :=
  eq_flatMap rfl (fun _ _ => rfl) gs

mutual

/-- The text of a green tree: its tokens in a row. -/
def text : Green → String
  | token _ text => text
  | node _ children => textAll children

/-- The text of several green trees. -/
def textAll : List Green → String
  | [] => ""
  | g :: rest => text g ++ textAll rest

end

end Green

/-! ## Reading units -/

/-- What a reader of a node stream comes across, when it takes markers for what they mean. -/
inductive Visit where
  /-- A node, and after it those below it. -/
  | enter (label : NodeLabel)
  /-- A node with nothing below it. -/
  | leaf (label : NodeLabel)
  /-- The end of the node that was entered last. -/
  | leave
  deriving DecidableEq, Repr

namespace Visit

/-- Read units: a node is entered if `down` stands behind it, and `up` leaves it. -/
def ofUnits : List NodeUnit → List Visit
  | [] => []
  | .node _ label :: .down :: rest => enter label :: ofUnits rest
  | .node _ label :: rest => leaf label :: ofUnits rest
  | .down :: rest => ofUnits rest
  | .up :: rest => leave :: ofUnits rest

/-- What a builder of green trees is told on a visit. -/
def calls (kindOf : TokenType → Nat) : Visit → List GreenCall
  | enter label =>
    [.startNode (kindOf label.type), .token (kindOf label.type) (Green.ownText label)]
  | leaf label => [.token (kindOf label.type) (Green.ownText label)]
  | leave => [.finishNode]

/-- A visit in print. -/
def bare : Visit → String
  | enter label => "(" ++ label.text
  | leaf label => label.text
  | leave => ")"

/-- A visit in print, behind another one. -/
def spaced : Visit → String
  | leave => ")"
  | v => " " ++ v.bare

/-- Visits in print: a space in front of each node but the first. -/
def print : List Visit → String
  | [] => ""
  | v :: rest => v.bare ++ String.join (rest.map spaced)

lemma spaced_of_ne_leave {v : Visit} (h : v ≠ leave) : v.spaced = " " ++ v.bare := by
  cases v with
  | enter | leaf => rfl
  | leave => exact absurd rfl h

variable {us vs : List NodeUnit}

lemma ofUnits_leaf (id : NodeId) (label : NodeLabel) (h : us.head? ≠ some .down) :
    ofUnits (.node id label :: us) = leaf label :: ofUnits us := by
  cases us with
  | nil => rfl
  | cons unit rest =>
    cases unit with
    | node | up => rfl
    | down => simp at h

/-- Bracketed units are read alike whatever comes behind them. -/
lemma ofUnits_append (hus : Bracketed us) (hvs : vs.head? ≠ some .down) :
    ofUnits (us ++ vs) = ofUnits us ++ ofUnits vs := by
  induction hus generalizing vs with
  | nil => rfl
  | @leaf id label rest hrest ih =>
    have hbehind := head?_append_ne_down hrest.head_ne_down hvs
    rw [List.cons_append, ofUnits_leaf id label hbehind, ofUnits_leaf id label hrest.head_ne_down,
      ih hvs, List.cons_append]
  | @inner id label below rest _ _ ihbelow ih =>
    have hinner (us : List NodeUnit) :
        ofUnits (.node id label :: .down :: (below ++ .up :: us)) =
          enter label :: (ofUnits below ++ leave :: ofUnits us) := by
      rw [ofUnits, ihbelow (by simp), ofUnits]
    simp only [List.cons_append, List.append_assoc, hinner, ih hvs]

lemma ofUnits_flatMap {α : Type} {f : α → List NodeUnit} {as : List α}
    (h : ∀ a ∈ as, Bracketed (f a)) :
    ofUnits (as.flatMap f) = as.flatMap fun a => ofUnits (f a) := by
  induction as with
  | nil => rfl
  | cons a rest ih =>
    have hrest : ∀ b ∈ rest, Bracketed (f b) := fun b hb => h b (List.mem_cons_of_mem a hb)
    rw [List.flatMap_cons, List.flatMap_cons, ofUnits_append (h a List.mem_cons_self)
      (Bracketed.flatMap hrest).head_ne_down, ih hrest]

/-- A reader of bracketed units does not start by leaving a node. -/
lemma head_ne_leave (h : Bracketed us) : (ofUnits us).head? ≠ some leave := by
  cases h with
  | nil => simp [ofUnits]
  | leaf id label hrest => simp [ofUnits_leaf id label hrest.head_ne_down]
  | inner => simp [ofUnits]

end Visit

/-! ## The visits of a shape -/

namespace Shape

variable {label : NodeLabel} {children : List Shape}

/-- What a reader of the shape's units comes across, in order. -/
def visits (s : Shape) : List Visit := Visit.ofUnits s.units

lemma visits_below (children : List Shape) :
    Visit.ofUnits (children.flatMap units) = children.flatMap visits :=
  Visit.ofUnits_flatMap fun s _ => s.bracketed

lemma visits_list (id : NodeId) (h : label.isList = true) :
    (node id label children).visits = children.flatMap visits := by
  rw [visits, units_list id h, visits_below]

lemma visits_leaf (id : NodeId) (h : label.isList = false) :
    (node id label []).visits = [.leaf label] := by
  rw [visits, units_leaf id h]
  rfl

lemma visits_inner (id : NodeId) (h : label.isList = false) (hchildren : children ≠ []) :
    (node id label children).visits =
      .enter label :: (children.flatMap visits ++ [.leave]) := by
  have hbelow : Bracketed (children.flatMap units) := .flatMap fun s _ => s.bracketed
  rw [visits, units_inner id h hchildren, Visit.ofUnits, Visit.ofUnits_append hbelow (by simp),
    visits_below]
  rfl

/-! ## Calls -/

variable (kindOf : TokenType → Nat)

lemma callsAll_eq (children : List Shape) :
    callsAll kindOf children = children.flatMap (calls kindOf) :=
  eq_flatMap rfl (fun _ _ => rfl) children

lemma greensAll_eq (children : List Shape) :
    greensAll kindOf children = children.flatMap (greens kindOf) :=
  eq_flatMap rfl (fun _ _ => rfl) children

/-- The calls for a shape are what a reader of its units tells a builder, visit by visit. -/
theorem calls_eq (s : Shape) : s.calls kindOf = s.visits.flatMap (Visit.calls kindOf) := by
  have hbelow (children : List Shape)
      (ih : ∀ c ∈ children, c.calls kindOf = c.visits.flatMap (Visit.calls kindOf)) :
      callsAll kindOf children = (children.flatMap visits).flatMap (Visit.calls kindOf) := by
    rw [callsAll_eq, List.flatMap_assoc]
    exact List.flatMap_congr ih
  induction s using Shape.induct_kinds with
  | list id label children hlist ih =>
    rw [visits_list id hlist, ← hbelow children ih]
    cases children <;> simp [calls, hlist]
  | leaf id label hlist =>
    rw [visits_leaf id hlist]
    simp [calls, hlist, Visit.calls]
  | inner id label child rest hlist ih =>
    rw [visits_inner id hlist (List.cons_ne_nil child rest), List.flatMap_cons,
      List.flatMap_append, ← hbelow _ ih]
    simp [calls, hlist, Visit.calls]

/-- The calls for a shape describe the green trees that it becomes, and nothing besides. -/
theorem callsAll_greens (s : Shape) : Green.callsAll (s.greens kindOf) = s.calls kindOf := by
  have hbelow (children : List Shape)
      (ih : ∀ c ∈ children, Green.callsAll (c.greens kindOf) = c.calls kindOf) :
      Green.callsAll (greensAll kindOf children) = callsAll kindOf children := by
    simp only [Green.callsAll_eq] at ih ⊢
    rw [greensAll_eq, callsAll_eq, List.flatMap_assoc]
    exact List.flatMap_congr ih
  induction s using Shape.induct_kinds with
  | list id label children hlist ih =>
    cases children <;> simp [greens, calls, hlist, hbelow _ ih]
  | leaf id label hlist => simp [greens, calls, hlist, Green.callsAll, Green.calls]
  | inner id label child rest hlist ih =>
    simp [greens, calls, hlist, Green.callsAll, Green.calls, hbelow _ ih]

end Shape

/-! ## The text -/

namespace NodeUnit

/-- The texts of the nodes among some units, in a row. -/
def ownTexts (us : List NodeUnit) : String :=
  String.join ((us.filterMap node?).map fun (_, label) => Green.ownText label)

@[simp] lemma ownTexts_nil : ownTexts [] = "" := rfl

@[simp] lemma ownTexts_node (id : NodeId) (label : NodeLabel) (us : List NodeUnit) :
    ownTexts (.node id label :: us) = Green.ownText label ++ ownTexts us := by
  simp [ownTexts, node?]

@[simp] lemma ownTexts_down (us : List NodeUnit) : ownTexts (.down :: us) = ownTexts us := rfl

@[simp] lemma ownTexts_up (us : List NodeUnit) : ownTexts (.up :: us) = ownTexts us := rfl

@[simp] lemma ownTexts_append (us vs : List NodeUnit) :
    ownTexts (us ++ vs) = ownTexts us ++ ownTexts vs := by
  simp [ownTexts]

end NodeUnit

namespace Green

lemma textAll_append (gs hs : List Green) : textAll (gs ++ hs) = textAll gs ++ textAll hs := by
  induction gs with
  | nil => simp [textAll]
  | cons g rest ih => rw [List.cons_append, textAll, ih, textAll, String.append_assoc]

end Green

/-- The green trees of a shape have the texts of the nodes in its stream, in their order. -/
theorem Shape.textAll_greens (kindOf : TokenType → Nat) (s : Shape) :
    Green.textAll (s.greens kindOf) = NodeUnit.ownTexts s.units := by
  have hbelow (children : List Shape)
      (ih : ∀ c ∈ children, Green.textAll (c.greens kindOf) = NodeUnit.ownTexts c.units) :
      Green.textAll (greensAll kindOf children) = NodeUnit.ownTexts (children.flatMap units) := by
    induction children with
    | nil => rfl
    | cons c rest ihrest =>
      have hrest := ihrest fun d hd => ih d (List.mem_cons_of_mem c hd)
      rw [greensAll, Green.textAll_append, hrest, ih c List.mem_cons_self, List.flatMap_cons,
        NodeUnit.ownTexts_append]
  induction s using Shape.induct_kinds with
  | list id label children hlist ih =>
    rw [units_list id hlist, ← hbelow children ih]
    cases children <;> simp [greens, hlist]
  | leaf id label hlist =>
    rw [units_leaf id hlist]
    simp [greens, hlist, Green.textAll, Green.text]
  | inner id label child rest hlist ih =>
    rw [units_inner id hlist (List.cons_ne_nil child rest)]
    simp [greens, hlist, Green.textAll, Green.text, hbelow _ ih]

/-! ## The list notation -/

lemma NodeLabel.eq_list_of_isList {label : NodeLabel} (h : label.isList = true) :
    label = .list := by
  cases label with
  | list => rfl
  | token | error => cases h

namespace Shape

variable {label : NodeLabel} {children : List Shape}

lemma renderAll_eq (children : List Shape) : renderAll children = children.map render := by
  induction children with
  | nil => rfl
  | cons s rest ih => rw [renderAll, ih, List.map_cons]

lemma render_list (id : NodeId) (h : label.isList = true) (hchildren : children ≠ []) :
    (node id label children).render = String.intercalate " " (children.map render) := by
  obtain ⟨child, rest, rfl⟩ := List.exists_cons_of_ne_nil hchildren
  simp [render, h, renderAll_eq]

lemma render_inner (id : NodeId) (h : label.isList = false) (hchildren : children ≠ []) :
    (node id label children).render =
      "(" ++ label.text ++ (" " ++ String.intercalate " " (children.map render)) ++ ")" := by
  obtain ⟨child, rest, rfl⟩ := List.exists_cons_of_ne_nil hchildren
  simp [render, h, renderAll_eq, String.append_assoc, toString]

end Shape

/-- A space in front of each of several texts. -/
lemma space_intercalate {ss : List String} (h : ss ≠ []) :
    " " ++ String.intercalate " " ss = String.join (ss.map (" " ++ ·)) := by
  induction ss with
  | nil => exact absurd rfl h
  | cons s rest ih =>
    by_cases hrest : rest = []
    · simp [hrest]
    · rw [String.intercalate_cons_of_ne_nil hrest, List.map_cons, String.join_cons, ← ih hrest]
      simp only [String.append_assoc]

lemma join_flatMap {α : Type} (f : α → List String) (as : List α) :
    String.join (as.flatMap f) = String.join (as.map fun a => String.join (f a)) := by
  induction as with
  | nil => rfl
  | cons a rest ih => simp [ih]

namespace Tree

variable {t : Tree}

/-- Where no list is without children, the list notation with a space in front is the visits, each
in print behind another one. -/
lemma Acyclic.space_render (h : t.Acyclic) (id : NodeId)
    (hlists : ∀ n, t.Below id n → t.label n = .list → t.children n ≠ []) :
    " " ++ t.render id = String.join ((t.shape id).visits.map Visit.spaced) := by
  induction id using h.induct with
  | step id ih =>
    have hbelow (hchildren : t.children id ≠ []) :
        " " ++ String.intercalate " " (((t.children id).map t.shape).map Shape.render) =
          String.join ((((t.children id).map t.shape).flatMap Shape.visits).map Visit.spaced) := by
      rw [space_intercalate (by simpa using hchildren), List.map_flatMap, join_flatMap,
        List.map_map, List.map_map, List.map_map]
      exact congrArg String.join (List.map_congr_left fun c hc =>
        ih c hc fun n hn => hlists n (hn.head hc))
    rw [render, shape_eq h]
    cases hlist : (t.label id).isList with
    | true =>
      have hchildren : t.children id ≠ [] := hlists id .refl (NodeLabel.eq_list_of_isList hlist)
      rw [Shape.render_list id hlist (by simpa using hchildren), Shape.visits_list id hlist,
        hbelow hchildren]
    | false =>
      by_cases hchildren : t.children id = []
      · rw [hchildren, List.map_nil, Shape.visits_leaf id hlist]
        simp [Shape.render, Visit.spaced, Visit.bare]
      · rw [Shape.render_inner id hlist (by simpa using hchildren),
          Shape.visits_inner id hlist (by simpa using hchildren), hbelow hchildren]
        simp [Visit.spaced, Visit.bare, String.append_assoc]

/-- Where no list is without children, the list notation is the visits in print. -/
theorem Acyclic.render_eq (h : t.Acyclic) (root : NodeId)
    (hlists : ∀ n, t.Below root n → t.label n = .list → t.children n ≠ []) :
    t.render root = Visit.print (t.shape root).visits := by
  have hspace := h.space_render root hlists
  have hhead : (t.shape root).visits.head? ≠ some .leave :=
    Visit.head_ne_leave (t.shape root).bracketed
  cases hvisits : (t.shape root).visits with
  | nil =>
    rw [hvisits] at hspace
    simpa using congrArg String.length hspace
  | cons v rest =>
    rw [hvisits] at hspace hhead
    rw [List.map_cons, String.join_cons, Visit.spaced_of_ne_leave (by simpa using hhead),
      String.append_assoc] at hspace
    exact (String.append_right_inj " ").1 hspace

end Tree

/-! ## Building -/

namespace GreenBuilder

/-- One call to a builder that keeps a stack of the open nodes, each with what was finished before
it was started, and beside it what was finished since the last start. -/
def stackCall :
    List (Nat × List Green) × List Green → GreenCall →
      Option (List (Nat × List Green) × List Green)
  | (opened, done), .startNode kind => some ((kind, done) :: opened, [])
  | (opened, done), .token kind text => some (opened, done ++ [.token kind text])
  | ((kind, before) :: opened, done), .finishNode => some (opened, before ++ [.node kind done])
  | ([], _), .finishNode => none

/-- A builder that keeps the open nodes on a stack. -/
def stacking : GreenBuilder where
  State := List (Nat × List Green) × List Green
  start := ([], [])
  call := stackCall
  finish
    | ([], [.node kind children]) => some (.node kind children)
    | _ => none

mutual

/-- The calls that describe a tree add it to what is finished. -/
lemma foldlM_calls : ∀ (g : Green) (opened : List (Nat × List Green)) (done : List Green)
    (calls : List GreenCall), (g.calls ++ calls).foldlM stackCall (opened, done) =
      calls.foldlM stackCall (opened, done ++ [g])
  | .token kind text, opened, done, calls => rfl
  | .node kind children, opened, done, calls => by
    calc ((Green.node kind children).calls ++ calls).foldlM stackCall (opened, done)
        = (Green.callsAll children ++ .finishNode :: calls).foldlM stackCall
            ((kind, done) :: opened, []) := by simp [Green.calls, stackCall]
      _ = (.finishNode :: calls).foldlM stackCall ((kind, done) :: opened, [] ++ children) :=
        foldlM_callsAll children _ _ _
      _ = calls.foldlM stackCall (opened, done ++ [.node kind children]) := rfl

lemma foldlM_callsAll : ∀ (gs : List Green) (opened : List (Nat × List Green)) (done : List Green)
    (calls : List GreenCall), (Green.callsAll gs ++ calls).foldlM stackCall (opened, done) =
      calls.foldlM stackCall (opened, done ++ gs)
  | [], opened, done, calls => by rw [List.append_nil]; rfl
  | g :: rest, opened, done, calls => by
    rw [Green.callsAll, List.append_assoc, foldlM_calls g, foldlM_callsAll rest, List.append_assoc,
      List.singleton_append]

end

/-- A builder that keeps the open nodes on a stack nests what it is told, so that there is one. -/
theorem nests_stacking : stacking.Nests := by
  intro kind children
  have hrun := foldlM_calls (.node kind children) [] [] []
  rw [List.append_nil] at hrun
  show ((Green.node kind children).calls.foldlM stackCall ([], [])).bind stacking.finish = _
  rw [hrun]
  rfl

end GreenBuilder

namespace Tree

/-- **The three traversals agree.**  The tree is acyclic, and `B` is any builder of green trees
that nests what it is told (`GreenBuilder.Nests`), which is all that is asked of one.

Read with a node entered where `down` stands behind it, the stream of the tree gives the calls
that describe its green tree, but for those of the root node.  The builder makes the green tree
of them, whose text is that of the nodes in the stream, in their order; for an error node this
is the text that was skipped.  If no list in the tree is without children, the list notation is
the same visits in print: nodes one space apart, with a parenthesis in front of each that is
entered and one where it is left. -/
theorem traversals_agree {t : Tree} (hacyclic : t.Acyclic) (root : NodeId) (name : String)
    (rootKind : Nat) (kindOf : TokenType → Nat) {B : GreenBuilder} (hnests : B.Nests) :
    let units := (NodeStream.ofTree t root name).units.toList
    let visits := Visit.ofUnits units
    t.greenCalls root rootKind kindOf =
        .startNode rootKind :: visits.flatMap (Visit.calls kindOf) ++ [.finishNode] ∧
      t.buildGreen B root rootKind kindOf = some (t.green root rootKind kindOf) ∧
      (t.green root rootKind kindOf).text =
        String.join ((units.filterMap NodeUnit.node?).map fun (_, label) =>
          Green.ownText label) ∧
      ((∀ id, t.Below root id → t.label id = .list → t.children id ≠ []) →
        t.render root = Visit.print visits) := by
  refine ⟨?_, ?_, ?_, hacyclic.render_eq root⟩
  · rw [greenCalls, Shape.calls_eq]
    rfl
  · rw [buildGreen, greenCalls, ← Shape.callsAll_greens]
    exact hnests rootKind _
  · exact (t.shape root).textAll_greens kindOf

/-- A node whose only child is a list, in which are a leaf and another list with an error node. -/
def hedge : Tree :=
  .ofPairs [.token (.ofText 6 "+"), .list, .token (.ofText 5 "1"), .list, .error "?"]
    [(0, 1), (1, 2), (1, 3), (3, 4)]

lemma acyclic_hedge : hedge.Acyclic := acyclic_of_lt (by decide)

lemma children_hedge_ne_nil {id : NodeId} (hid : hedge.Below 0 id)
    (hlist : hedge.label id = .list) : hedge.children id ≠ [] := by
  have hlt : id < 5 := by
    cases hid with
    | refl => decide
    | tail _ hc =>
      have hchildren : ∀ p < 5, ∀ c ∈ hedge.children p, c < 5 := by decide
      exact hchildren _ (lt_of_mem_children hc) id hc
  have hlists : ∀ id < 5, hedge.label id = .list → hedge.children id ≠ [] := by decide
  exact hlists id hlt hlist

/-- The lists leave no trace in the calls, in the text and in the list notation. -/
theorem traversals_agree_hedge :
    hedge.Acyclic ∧ GreenBuilder.stacking.Nests ∧
      (∀ id, hedge.Below 0 id → hedge.label id = .list → hedge.children id ≠ []) ∧
      hedge.buildGreen .stacking 0 1000 Green.kindOf =
        some (.node 1000 [.node 6 [.token 6 "+", .token 5 "1", .token 0 "?"]]) ∧
      (hedge.green 0 1000 Green.kindOf).text = "+1?" ∧
      hedge.render 0 = "(+ 1 <error: ?>)" := by
  obtain ⟨-, hbuild, htext, hrender⟩ := traversals_agree acyclic_hedge 0 "<tree>" 1000
    Green.kindOf GreenBuilder.nests_stacking
  refine ⟨acyclic_hedge, GreenBuilder.nests_stacking, fun _ => children_hedge_ne_nil, ?_, ?_, ?_⟩
  · rw [hbuild]
    rfl
  · rw [htext]
    rfl
  · rw [hrender fun _ => children_hedge_ne_nil]
    rfl

/-- A list without children is seen in the list notation, and there only. -/
example :
    let t := ofPairs [.token (.ofText 5 "a"), .list] [(0, 1)]
    t.render 0 = "(a nil)" ∧ Visit.print (t.shape 0).visits = "(a)" := ⟨rfl, rfl⟩

end Tree

end Lookahead
