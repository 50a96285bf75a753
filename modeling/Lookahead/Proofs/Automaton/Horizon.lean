import Lookahead.Proofs.Automaton.Closed
import Lookahead.Proofs.Automaton.HopBound
import Lookahead.Proofs.Automaton.Start

/-!
# How far a prediction sees

A prediction consumes no more units than its options allow.  It may look at one more: a special
state that it comes to with the last of them consumed has edges for the type of the next unit, and
the bound is asked only after it.  Beyond that nothing is seen (`predict_horizon`).

The automata are `Plain`, without predicates to ask and alternatives to try.  What they decide is
told by the types of the units ahead, whatever the hooks are (`predict_of_plain`), and two outlooks
on the `SameHorizon` make the same moves wherever a decision comes.
-/

namespace Lookahead

open Action Cursor
open Cursor.View (Ready)

/-! ## Plain automata -/

namespace SpecialState

/-- A special state that asks no predicates and tries no alternatives, so that it decides by the
unit ahead alone. -/
structure Plain (s : SpecialState) : Prop where
  ungated : ∀ e ∈ s.edges, e.predicate = none
  simulate_eq : s.simulate = []

/-- Where a plain special state leads with a unit of some type ahead: along the first edge for the
type, or else to its last resort. -/
def leads (s : SpecialState) (type : TokenType) : Option Nat :=
  ((s.edges.find? fun e => (e.type.map (· == type)).getD true).map PredicatedEdge.target).or
    s.fallback

lemma target_of_leads {s : SpecialState} {type : TokenType} {t : Nat} (h : s.leads type = some t) :
    (∃ e ∈ s.edges, e.target = t) ∨ s.fallback = some t := by
  rcases Option.or_eq_some_iff.1 h with h | ⟨-, h⟩
  · obtain ⟨e, he, rfl⟩ := Option.map_eq_some_iff.1 h
    exact .inl ⟨e, List.mem_of_find?_eq_some he, rfl⟩
  · exact .inr h

end SpecialState

/-- An automaton with plain special states only. -/
def Automaton.Plain (a : Automaton) : Prop := ∀ s ∈ a.specials, s.Plain

lemma Automaton.Plain.special {a : Automaton} (ha : a.Plain) {i : Nat} {special : SpecialState}
    (h : a.special i = some special) : special.Plain :=
  ha special (Array.mem_of_getElem? h)

namespace Outlook

variable {w w' : Outlook} {a : Automaton} {k s t : Nat} {m : Move} {v : Verdict}
  {special : SpecialState} {type : TokenType}

/-- Without predicates, an edge applies if it is for the type. -/
lemma findSome?_edge (w : Outlook) (type : TokenType) {edges : List PredicatedEdge}
    (h : ∀ e ∈ edges, e.predicate = none) :
    edges.findSome? (w.edge type) =
      (edges.find? fun e => (e.type.map (· == type)).getD true).map fun e => .ok e.target := by
  induction edges with
  | nil => rfl
  | cons e rest ih =>
    rw [List.findSome?_cons, List.find?_cons, edge, h e List.mem_cons_self]
    by_cases htype : (e.type.map (· == type)).getD true = true
    · simp [htype]
    · simp [htype, ih fun e he => h e (List.mem_cons_of_mem _ he)]

lemma resolves_leads (w : Outlook) (type : TokenType) (h : special.Plain) :
    w.Resolves type special (.ok (((special.leads type).map .state).getD .stuck)) := by
  have hedges := w.findSome?_edge type h.ungated
  unfold SpecialState.leads
  cases hfind : special.edges.find? fun e => (e.type.map (· == type)).getD true with
  | some e =>
    rw [hfind] at hedges
    exact .edge hedges
  | none =>
    rw [hfind] at hedges
    exact .lastResort hedges fun _ => .none fun m hm => by simp [h.simulate_eq] at hm

lemma resolves_iff (h : special.Plain) {o : Except Fault Recognizer.Resolution} :
    w.Resolves type special o ↔ o = .ok (((special.leads type).map .state).getD .stuck) := by
  constructor
  · exact fun ho => ho.unique (resolves_leads w type h)
  · rintro rfl
    exact resolves_leads w type h

/-- A plain special state lets the decision go on where it leads, or finds no way on. -/
lemma moveOf_of_resolves (h : special.Plain) {o : Except Fault Recognizer.Resolution}
    (ho : w.Resolves type special o) :
    moveOf s o = (special.leads type).elim (.stop (.noViable s)) .hop := by
  obtain rfl := (resolves_iff h).1 ho
  cases special.leads type <;> rfl

/-! ## Two outlooks -/

/-- The decision comes to state `s` with `k` units consumed. -/
inductive Comes (w : Outlook) (a : Automaton) : (k s : Nat) → Prop
  | start : Comes w a 0 0
  | hop {k s t : Nat} (h : Comes w a k s) (ht : w.Moves a k s (.hop t)) : Comes w a k t
  | consume {k s t : Nat} (h : Comes w a k s) (ht : w.Moves a k s (.consume t)) :
      Comes w a (k + 1) t

/-- The same units may be consumed, and they are of the same types.  The next unit need not be, if
the special states that the decision comes to with all of them consumed lead to the same states. -/
structure SameHorizon (w w' : Outlook) (a : Automaton) : Prop where
  maxLookahead_eq : w'.maxLookahead = w.maxLookahead
  unit_eq : ∀ k < w.maxLookahead, w'.unit k = w.unit k
  leads_eq : ∀ s special, w.Comes a w.maxLookahead s → a.specialAt s = some special →
    special.leads (w'.unit w.maxLookahead) = special.leads (w.unit w.maxLookahead)

/-- One unit more is enough. -/
lemma sameHorizon_of_unit_eq (hmax : w'.maxLookahead = w.maxLookahead)
    (h : ∀ k ≤ w.maxLookahead, w'.unit k = w.unit k) : w.SameHorizon w' a where
  maxLookahead_eq := hmax
  unit_eq k hk := h k (Nat.le_of_lt hk)
  leads_eq s special _ _ := by rw [h _ (Nat.le_refl _)]

lemma Moves.lt_maxLookahead (h : w.Moves a k s (.consume t)) :
    k < w.maxLookahead ∧ t < a.stateCount := by
  generalize hm : Move.consume t = m at h
  cases h with
  | @special state i special o h hi hspecial ho => rcases o with _ | (_ | _ | _) <;> cases hm
  | step h hi hn hk ht hsize =>
    obtain rfl := Move.consume.inj hm
    exact ⟨hk, hsize⟩
  | _ => cases hm

lemma Comes.le_maxLookahead (h : w.Comes a k s) : k ≤ w.maxLookahead := by
  induction h with
  | start => exact Nat.zero_le _
  | hop _ _ ih => exact ih
  | consume _ ht _ => exact ht.lt_maxLookahead.1

variable (ha : a.Plain)

include ha

/-- On the same horizon the same happens wherever the decision comes. -/
lemma SameHorizon.moves (h : w.SameHorizon w' a) (hs : w.Comes a k s) (hm : w.Moves a k s m) :
    w'.Moves a k s m := by
  cases hm with
  | missing h => exact .missing h
  | unknown h hi hnone => exact .unknown h hi hnone
  | @special state i special o hstate hi hspecial ho =>
    refine .special hstate hi hspecial ?_
    rw [resolves_iff (ha.special hspecial)] at ho ⊢
    rcases Nat.lt_or_eq_of_le hs.le_maxLookahead with hk | rfl
    · rwa [h.unit_eq k hk]
    · have hat : a.specialAt s = some special := by simp [Automaton.specialAt, hstate, hi, hspecial]
      rwa [h.leads_eq s special hs hat]
  | accept h hi hn => exact .accept h hi hn
  | cut hstate hi hn hk => exact .cut hstate hi hn (h.maxLookahead_eq ▸ hk)
  | step hstate hi hn hk ht hsize =>
    exact .step hstate hi hn (h.maxLookahead_eq ▸ hk) (h.unit_eq k hk ▸ ht) hsize
  | dead hstate hi hn hk ht =>
    exact .dead hstate hi hn (h.maxLookahead_eq ▸ hk) (h.unit_eq k hk ▸ ht)

/-- Nothing else can happen on the second outlook, because something happens on the first. -/
lemma SameHorizon.comes_back (h : w.SameHorizon w' a) (hs : w'.Comes a k s) : w.Comes a k s := by
  have hback {k s : Nat} {m : Move} (hs : w.Comes a k s) (hm : w'.Moves a k s m) :
      w.Moves a k s m := by
    obtain ⟨m', hm'⟩ := exists_moves w a k s
    obtain rfl := (h.moves ha hs hm').unique hm
    exact hm'
  induction hs with
  | start => exact .start
  | hop _ ht ih => exact ih.hop (hback ih ht)
  | consume _ ht ih => exact ih.consume (hback ih ht)

lemma SameHorizon.symm (h : w.SameHorizon w' a) : w'.SameHorizon w a where
  maxLookahead_eq := h.maxLookahead_eq.symm
  unit_eq k hk := (h.unit_eq k (h.maxLookahead_eq ▸ hk)).symm
  leads_eq s special hs hspecial := by
    rw [h.maxLookahead_eq] at hs ⊢
    exact (h.leads_eq s special (h.comes_back ha hs) hspecial).symm

lemma SameHorizon.finds (h : w.SameHorizon w' a) (hs : w.Comes a k s) (hv : w.Finds a k s v) :
    w'.Finds a k s v := by
  induction hv with
  | stop hm => exact .stop (h.moves ha hs hm)
  | hop hm _ ih => exact .hop (h.moves ha hs hm) (ih (hs.hop hm))
  | consume hm _ ih => exact .consume (h.moves ha hs hm) (ih (hs.consume hm))

variable (hclosed : a.Closed)

include hclosed

/-- A decision comes to states of the automaton only. -/
lemma Comes.lt_stateCount (hs : w.Comes a k s) : s < a.stateCount := by
  induction hs with
  | start => exact hclosed.nonempty
  | @hop k s t _ ht _ =>
    generalize hm : Move.hop t = m at ht
    cases ht with
    | @special state i special o hstate hi hspecial ho =>
      rw [moveOf_of_resolves (ha.special hspecial) ho] at hm
      have hmem : special ∈ a.specials := Array.mem_of_getElem? hspecial
      cases hleads : special.leads (w.unit k) with
      | none =>
        rw [hleads] at hm
        cases hm
      | some u =>
        rw [hleads] at hm
        obtain rfl := Move.hop.inj hm
        rcases SpecialState.target_of_leads hleads with ⟨e, he, rfl⟩ | hlast
        · exact hclosed.predicated special hmem e he
        · exact hclosed.fallback special hmem t hlast
    | _ => cases hm
  | consume _ ht _ => exact ht.lt_maxLookahead.2

/-- Nothing is raised. -/
lemma Finds.decided (hs : w.Comes a k s) (hv : w.Finds a k s v) :
    (∃ n, v = .alternative n) ∨ ∃ t, v = .noViable t := by
  induction hv with
  | @stop k s v hm =>
    have hlt := hs.lt_stateCount ha hclosed
    generalize hstop : Move.stop v = m at hm
    cases hm with
    | missing h => exact absurd (Array.getElem?_eq_none_iff.1 h) (Nat.not_le.2 hlt)
    | @special state i special o hstate hi hspecial ho =>
      rw [moveOf_of_resolves (ha.special hspecial) ho] at hstop
      cases hleads : special.leads (w.unit k) with
      | some u =>
        rw [hleads] at hstop
        cases hstop
      | none =>
        rw [hleads] at hstop
        exact .inr ⟨s, Move.stop.inj hstop⟩
    | accept => exact .inl ⟨_, Move.stop.inj hstop⟩
    | unknown | cut | dead => exact .inr ⟨_, Move.stop.inj hstop⟩
    | step => cases hstop
  | hop hm _ ih => exact ih (hs.hop hm)
  | consume hm _ ih => exact ih (hs.consume hm)

end Outlook

/-! ## Two predictions -/

/-- Hooks that only give up. -/
def Hooks.mute {S X : Type} : Hooks S X where
  predicate _ := .fault .backtracking
  speculate _ _ := .fault .backtracking

namespace Recognizer

variable {S S' X X' : Type} [Cursor S] [Cursor S']

lemma firstOpen_of_ungated {hooks hooks' : Hooks S X} {start : Nat} {type : TokenType}
    {edges : List PredicatedEdge} (h : ∀ e ∈ edges, e.predicate = none) :
    firstOpen hooks' start type edges = firstOpen hooks start type edges := by
  induction edges with
  | nil => rfl
  | cons e rest ih =>
    rw [firstOpen, firstOpen, isOpen, isOpen, h e List.mem_cons_self,
      ih fun e he => h e (List.mem_cons_of_mem _ he)]

/-- A plain automaton does not call hooks. -/
lemma predict_of_plain {a : Automaton} (ha : a.Plain) (hooks hooks' : Hooks S X) :
    predict hooks' a = predict hooks a := by
  refine predict_of_counterpart fun start => ⟨rfl, rfl, rfl, rfl, fun i => ?_⟩
  cases hi : a.special i with
  | none => exact .none
  | some special =>
    obtain ⟨hungated, hnone⟩ := ha.special hi
    refine .some ?_
    rw [resolve, resolve, hnone]
    refine bind_congr fun type => ?_
    rw [firstOpen_of_ungated hungated]
    rfl

variable [View S] [View S'] [Savable S] [Savable S']

/-- What is ahead of a prediction that calls no hooks. As none is called, it does not matter what
they would come to. -/
def ahead (r : Recognizer S X) : Outlook where
  unit k := View.typeAt (View.input (begun false r).input) ((begun false r).placeAhead k)
  predicate _ := .error .backtracking
  parse _ := .error .backtracking
  speculates := r.state.backtracking < r.state.options.maxSpeculationDepth
  tryAll := r.state.options.reportAmbiguities
  maxLookahead := r.state.options.maxLookahead

lemma describes_ahead (r : Recognizer S X) (decision : Nat) :
    r.ahead.Describes .mute decision (begun false r) where
  unit_eq _ := rfl
  speculates_iff := decide_eq_true_iff
  tryAll_eq := rfl
  maxLookahead_eq := rfl
  predicate _ r' _ _ _ := ⟨r', rfl, Reaches.refl _, rfl, rfl⟩
  speculate _ r' _ _ _ := ⟨r', rfl, refl_of Tame r', rfl⟩

variable {a : Automaton} {r : Recognizer S X} {r' : Recognizer S' X'}

/-- A plain automaton predicts what follows from the types of the units ahead. -/
lemma predict_decides (ha : a.Plain) (hr : Reached r.input) (hooks : Hooks S X) :
    ∃ o x, predict hooks a r = some (o, x) ∧
      ((∃ v, r.ahead.Finds a 0 0 v ∧ v.Says a r.state.backtracking o) ∨
        (∀ v, ¬ r.ahead.Finds a 0 0 v) ∧
          ∃ s, (Verdict.noViable s).Says a r.state.backtracking o) := by
  have hready : Ready (begun false r).input := ready_begun hr
  have htame : (Hooks.mute : Hooks S X).Tame := ⟨fun _ => Within.fault _, fun _ _ => Within.fault _⟩
  have hhere : At (begun false r) ((begun false r).placeAhead 0) (begun false r) :=
    ⟨hready, rfl, rfl, rfl, rfl⟩
  have hwalk : Decides r.ahead (begun false r) a 0 0
      (walk .mute a r.startOf r.state.options.maxLookahead 0) :=
    decides_walk (describes_ahead r a.decision) hready _ (Nat.zero_add _)
  rw [predict_of_plain ha .mute hooks]
  rcases hwalk with ⟨v, hv, hmeets⟩ | ⟨hnone, s, hmeets⟩
  · obtain ⟨o, r₁, hrun, hfit⟩ := hmeets _ hhere
    obtain ⟨i, -, hpredict⟩ := predict_of_walk hrun hr (tame_walkOf htame hrun)
    exact ⟨o, _, hpredict, .inl ⟨v, hv, hfit⟩⟩
  · obtain ⟨o, r₁, hrun, hfit⟩ := hmeets _ hhere
    obtain ⟨i, -, hpredict⟩ := predict_of_walk hrun hr (tame_walkOf htame hrun)
    exact ⟨o, _, hpredict, .inr ⟨hnone, s, hfit⟩⟩

/-- **A prediction sees the units that it may consume, and the one behind them through special
states only.**  The automaton is accepted and asks nothing but types: it has neither gated edges
nor alternatives to try (`Plain`).  The two recognizers need not be of one kind; they have the
same bound on lookahead, and units of the same types within it.  The special states that the
decision comes to with all of those units consumed lead to the same states on both, for one
because the next unit is of the same type or because no edge asks for it (`SameHorizon`).

Then either both predictions have the same alternative, or no alternative is viable on either.
Where special states tell the next units apart, the bound is passed by one. -/
theorem predict_horizon (haccepted : a.Accepted) (ha : a.Plain) (hr : Reached r.input)
    (hr' : Reached r'.input) (hooks : Hooks S X) (hooks' : Hooks S' X')
    (h : r.ahead.SameHorizon r'.ahead a) :
    ∃ o x o' x', predict hooks a r = some (o, x) ∧ predict hooks' a r' = some (o', x') ∧
      ((∃ n, o = .ok n ∧ o' = .ok n) ∨
        (∃ s, (Verdict.noViable s).Says a r.state.backtracking o) ∧
          ∃ s, (Verdict.noViable s).Says a r'.state.backtracking o') := by
  obtain ⟨o, x, hrun, hdecides⟩ := predict_decides ha hr hooks
  obtain ⟨o', x', hrun', hdecides'⟩ := predict_decides ha hr' hooks'
  refine ⟨o, x, o', x', hrun, hrun', ?_⟩
  rcases hdecides with ⟨v, hv, hfit⟩ | ⟨hnone, hfit⟩
  · have hv' := h.finds ha .start hv
    rcases hdecides' with ⟨v', hfinds', hfit'⟩ | ⟨hnone', -⟩
    · obtain rfl := hfinds'.unique hv'
      rcases hv.decided ha haccepted.closed .start with ⟨n, rfl⟩ | ⟨s, rfl⟩
      · exact .inl ⟨n, hfit, hfit'⟩
      · exact .inr ⟨⟨s, hfit⟩, s, hfit'⟩
    · exact absurd hv' (hnone' v)
  · rcases hdecides' with ⟨v', hfinds', -⟩ | ⟨-, hfit'⟩
    · exact absurd ((h.symm ha).finds ha .start hfinds') (hnone v')
    · exact .inr ⟨hfit, hfit'⟩

/-- A decision on the second letter, behind an `a`: whether it is a `b`. -/
def secondLetter : Automaton where
  decision := 0
  description := ""
  states := #[⟨none, none, none, none, 97, #[some 1]⟩, ⟨none, some 0, none, none, 0, #[]⟩,
    ⟨some 1, none, none, none, 0, #[]⟩, ⟨some 2, none, none, none, 0, #[]⟩]
  specials := #[⟨[⟨some 98, none, 2⟩], [], some 3⟩]
  alternatives := Automaton.ascending [1, 2]

lemma accepted_secondLetter : secondLetter.Accepted := by
  have hbuilt : Automaton.ofClauses 0 "" [.edge 0 97 1,
      .special 1 ((SpecialState.empty.on (some 98) 2).fallingBack 3), .accept 2 1, .accept 3 2] =
        .ok secondLetter := rfl
  exact .built hbuilt

lemma plain_secondLetter : secondLetter.Plain := by
  intro special h
  obtain rfl : special = ⟨[⟨some 98, none, 2⟩], [], some 3⟩ := by simpa [secondLetter] using h
  exact ⟨by simp, rfl⟩

/-- A recognizer at the start of some letters, which may consume one of them in a prediction. -/
def spelling (letters : String) : Recognizer CharacterStream Unit :=
  .ofInput (.ofString letters "") () { Options.standard with maxLookahead := 1 } .characters

/-- What is behind the second letter is not seen. -/
theorem predict_horizon_letters : ∃ x x',
    predict .none secondLetter (spelling "abc") = some (.ok 1, x) ∧
      predict .none secondLetter (spelling "abd") = some (.ok 1, x') := by
  have hreached (letters : String) : Reached (spelling letters).input := ⟨_, ⟨rfl, rfl⟩, .refl _⟩
  have hunits : ∀ k ≤ 1, (spelling "abd").ahead.unit k = (spelling "abc").ahead.unit k := by
    intro k hk
    rcases Nat.le_one_iff_eq_zero_or_eq_one.1 hk with rfl | rfl
    · rfl
    · rfl
  obtain ⟨o, x, o', x', hrun, hrun', hsame⟩ := predict_horizon accepted_secondLetter
    plain_secondLetter (hreached "abc") (hreached "abd") .none .none
    (Outlook.sameHorizon_of_unit_eq rfl hunits)
  obtain ⟨y, hfound⟩ : ∃ y, predict .none secondLetter (spelling "abc") = some (.ok 1, y) :=
    ⟨_, rfl⟩
  obtain ⟨rfl, rfl⟩ := Prod.mk.inj (Option.some.inj (hrun.symm.trans hfound))
  rcases hsame with ⟨n, hn, rfl⟩ | ⟨⟨s, e, he, -⟩, -⟩
  · obtain rfl := Except.ok.inj hn
    exact ⟨x, x', hrun, hrun'⟩
  · cases he

/-- The second letter is seen, although only the first may be consumed. -/
example : (predict .none secondLetter (spelling "ab")).map Prod.fst = some (.ok 1) ∧
    (predict .none secondLetter (spelling "ac")).map Prod.fst = some (.ok 2) := ⟨rfl, rfl⟩

end Recognizer

end Lookahead
