import Lookahead.Proofs.Automaton.Reference
import Mathlib.Logic.Function.Iterate

/-!
# What a decision will see

An outlook `Describes` a recognizer if it says truly what a decision that starts there will see: the
types of the units ahead, and what each hook comes to when it is called at the start.  The hooks may
do what they want besides, as long as they leave the depth of backtracking and the options alone,
and a speculative parse leaves its mark open.

A special state then comes to what the rules say (`Outlook.Describes.resolve`).
-/

namespace Lookahead

open Action Cursor
open Cursor.View (Ready)

variable {S X α β : Type} [Cursor S] [View S]

namespace Recognizer

/-! ## Where a walk stands -/

/-- The place that is `k` units ahead of the cursor, as often as `consume` would move there. -/
def placeAhead (r : Recognizer S X) (k : Nat) : Nat :=
  (View.after (View.input r.input))^[k] (Cursor.index r.input)

/-- From `r₀` on, the cursor has come to the place `i`, and nothing else has changed that a decision
depends on. -/
structure At (r₀ : Recognizer S X) (i : Nat) (r : Recognizer S X) : Prop where
  ready : Ready r.input
  input_eq : View.input r.input = View.input r₀.input
  index_eq : Cursor.index r.input = i
  backtracking_eq : r.state.backtracking = r₀.state.backtracking
  options_eq : r.state.options = r₀.state.options

/-- The cursor is anywhere. -/
def Somewhere (r₀ r : Recognizer S X) : Prop := ∃ i, At r₀ i r

end Recognizer

open Recognizer

/-- What a decision that starts where `r` is will see: the units ahead, what its hooks come to
there, and the bounds that the options set. The hooks may operate the stream on their way. -/
structure Outlook.Describes (w : Outlook) (hooks : Hooks S X) (decision : Nat)
    (r : Recognizer S X) : Prop where
  unit_eq (k : Nat) : w.unit k = View.typeAt (View.input r.input) (r.placeAhead k)
  speculates_iff :
    w.speculates = true ↔ r.state.backtracking < r.state.options.maxSpeculationDepth
  tryAll_eq : w.tryAll = r.state.options.reportAmbiguities
  maxLookahead_eq : w.maxLookahead = r.state.options.maxLookahead
  predicate (id : Nat) {r' : Recognizer S X} : Ready r'.input →
    View.input r'.input = View.input r.input → Cursor.index r'.input = Cursor.index r.input →
    ∃ r'', hooks.predicate id r' = some (w.predicate id, r'') ∧ Reaches r'.input r''.input ∧
      r''.state.backtracking = r'.state.backtracking ∧ r''.state.options = r'.state.options
  speculate (n : Nat) {r' : Recognizer S X} : Ready r'.input →
    View.input r'.input = View.input r.input → Cursor.index r'.input = Cursor.index r.input →
    ∃ r'', hooks.speculate decision n r' = some (w.parse n, r'') ∧ Recognizer.Tame r' r'' ∧
      r''.state.options = r'.state.options

variable [Lawful S] {w : Outlook} {hooks : Hooks S X} {decision : Nat} {r₀ : Recognizer S X}
  {i : Nat}

namespace Recognizer

lemma At.lookahead {k : Nat} (hw : w.Describes hooks decision r₀) :
    Gives (At r₀ (r₀.placeAhead k)) (lookahead 1) (.ok (w.unit k)) (At r₀ (r₀.placeAhead k)) := by
  intro r hr
  have hland := Lawful.lookahead 1 hr.ready
  refine ⟨{ r with input := (Cursor.lookahead r.input 1).2 }, ?_, hland.ready,
    hland.input_eq.trans hr.input_eq, ?_, hr.backtracking_eq, hr.options_eq⟩
  · rw [lookahead_apply, Lawful.lookahead_one hr.ready, hr.input_eq, hr.index_eq, hw.unit_eq]
  · rw [hland.index_eq, ← Lawful.index_eq, hr.index_eq]

lemma At.consume {k : Nat} :
    Gives (At r₀ (r₀.placeAhead k)) consume (.ok ()) (At r₀ (r₀.placeAhead (k + 1))) := by
  intro r hr
  obtain ⟨p, hland, hplace⟩ := Lawful.consume hr.ready
  refine ⟨_, consume_apply r, hland.ready, hland.input_eq.trans hr.input_eq, ?_,
    hr.backtracking_eq, hr.options_eq⟩
  rw [hland.index_eq, hplace, hr.input_eq, hr.index_eq, placeAhead, placeAhead,
    Function.iterate_succ_apply']

lemma At.stands {r : Recognizer S X} (hr : At r₀ i r) : View.Stands (View.input r₀.input) i := by
  have h := Lawful.stands hr.ready
  rwa [hr.input_eq, hr.index_eq] at h

lemma At.seek (h : View.Stands (View.input r₀.input) i) :
    Gives (Somewhere r₀) (seek i) (.ok ()) (At r₀ i) := by
  rintro r ⟨j, hr⟩
  obtain ⟨p, hland, hplace⟩ := Lawful.seek i hr.ready
  refine ⟨_, seek_apply i r, hland.ready, hland.input_eq.trans hr.input_eq, ?_,
    hr.backtracking_eq, hr.options_eq⟩
  rw [hland.index_eq, hplace (hr.input_eq ▸ h)]

/-- What is done at the start of a decision can be done from anywhere in it. -/
lemma At.visiting {body : Action (Recognizer S X) α} {o : Except Fault α} (hr₀ : Ready r₀.input)
    (hbody : Gives (At r₀ (Cursor.index r₀.input)) body o (Somewhere r₀)) :
    Gives (At r₀ i) (visiting (Cursor.index r₀.input) body) o (At r₀ i) := by
  intro r hr
  have hto : Gives (At r₀ i) (Recognizer.seek (Cursor.index r₀.input)) (.ok ())
      (At r₀ (Cursor.index r₀.input)) :=
    fun r hr => At.seek (Lawful.stands hr₀) r ⟨i, hr⟩
  have hback : Gives (Somewhere r₀) (Recognizer.seek i) (.ok ()) (At r₀ i) := At.seek hr.stands
  have hhere : Gives (At r₀ i) index (.ok i) (At r₀ i) := Gives.read fun r hr => hr.index_eq
  have hall : Gives (At r₀ i) (Recognizer.visiting (Cursor.index r₀.input) body) o (At r₀ i) :=
    hhere.bind (hto.bind (hbody.attempt.bind (hback.bind (Gives.ofExcept o))))
  exact hall r hr

end Recognizer

/-! ## What special states come to -/

namespace Outlook.Describes

open Recognizer (At Somewhere begun cleared ended answer)

lemma evaluates (hw : w.Describes hooks decision r₀) (id : Nat) :
    Gives (At r₀ (Cursor.index r₀.input)) (hooks.predicate id) (w.predicate id) (Somewhere r₀) := by
  intro r hr
  obtain ⟨r', hrun, hreach, hdepth, hoptions⟩ := hw.predicate id hr.ready hr.input_eq hr.index_eq
  obtain ⟨hready, hinput⟩ := hreach.ready hr.ready
  exact ⟨r', hrun, _, hready, hinput.trans hr.input_eq, rfl, hdepth.trans hr.backtracking_eq,
    hoptions.trans hr.options_eq⟩

lemma synpred (hw : w.Describes hooks decision r₀) (n : Nat) :
    Gives (At r₀ (Cursor.index r₀.input)) (synpred (hooks.speculate decision n))
      (answer (w.parse n)) (Somewhere r₀) := by
  intro r hr
  have hbegun := Recognizer.lands_begun true hr.ready
  obtain ⟨r₁, hrun, htame, hoptions⟩ := hw.speculate n hbegun.ready
    (hbegun.input_eq.trans hr.input_eq) ((Recognizer.index_begun true hr.ready).trans hr.index_eq)
  obtain ⟨hunder, hdepth⟩ := htame.under hr.ready
  obtain ⟨i, hback, hsynpred⟩ := Recognizer.synpred_apply hr.ready hrun hunder
  refine ⟨_, hsynpred, _, hback.ready, hback.input_eq.trans hr.input_eq, rfl, ?_,
    hoptions.trans hr.options_eq⟩
  show r₁.state.backtracking - 1 = _
  rw [hdepth, ← hr.backtracking_eq]
  rfl

variable (hw : w.Describes hooks decision r₀) (hr₀ : Ready r₀.input)

include hw hr₀

lemma firstOpen (t : TokenType) (edges : List PredicatedEdge) :
    Gives (At r₀ i) (firstOpen hooks (Cursor.index r₀.input) t edges)
      ((edges.findSome? (w.edge t)).elim (.ok none) (·.map some)) (At r₀ i) := by
  induction edges with
  | nil => exact Gives.pure none
  | cons e rest ih =>
    rw [Recognizer.firstOpen, List.findSome?_cons]
    by_cases htype : (e.type.map (· == t)).getD true = true
    · rw [if_pos htype, Recognizer.isOpen]
      cases hpred : e.predicate with
      | none =>
        have hedge : w.edge t e = some (.ok e.target) := by simp [Outlook.edge, htype, hpred]
        rw [hedge]
        exact (Gives.pure true).bind (Gives.pure _)
      | some id =>
        have heval := Recognizer.At.visiting (i := i) hr₀ (hw.evaluates id)
        cases hid : w.predicate id with
        | error cause =>
          have hedge : w.edge t e = some (.error cause) := by
            simp [Outlook.edge, htype, hpred, hid]
          rw [hid] at heval
          rw [hedge]
          exact heval.bind_error
        | ok b =>
          rw [hid] at heval
          cases b with
          | true =>
            have hedge : w.edge t e = some (.ok e.target) := by
              simp [Outlook.edge, htype, hpred, hid]
            rw [hedge]
            exact heval.bind (Gives.pure _)
          | false =>
            have hedge : w.edge t e = none := by simp [Outlook.edge, htype, hpred, hid]
            rw [hedge]
            exact heval.bind ih
    · have hedge : w.edge t e = none := by simp [Outlook.edge, htype]
      rw [if_neg htype, hedge]
      exact ih

/-- Alternatives that are tried in order come to what the rules say about them. -/
lemma firstParsing (alternatives : List Nat) (hsorted : alternatives.Pairwise (· < ·)) :
    ∃ o, w.Simulates alternatives o ∧
      Gives (At r₀ i)
        (firstParsing hooks decision (Cursor.index r₀.input) w.tryAll alternatives) o
        (At r₀ i) := by
  induction alternatives with
  | nil => exact ⟨_, .none (by simp), Gives.pure none⟩
  | cons n rest ih =>
    obtain ⟨hfirst, hrest⟩ := List.pairwise_cons.1 hsorted
    obtain ⟨o, ho, hgives⟩ := ih hrest
    have htry := Recognizer.At.visiting (i := i) hr₀ (hw.synpred n)
    rw [Recognizer.firstParsing]
    cases hn : answer (w.parse n) with
    | error cause =>
      rw [hn] at htry
      exact ⟨_, .cons_raises hfirst hn, htry.bind_error⟩
    | ok b =>
      rw [hn] at htry
      cases b with
      | false => exact ⟨o, .cons_fails hfirst hn ho, htry.bind hgives⟩
      | true =>
        by_cases hall : w.tryAll = true
        · have hdiscard := hgives.discard
          rw [hall] at hdiscard ⊢
          cases o with
          | error cause =>
            exact ⟨_, .cons_parses_raises hfirst hn hall ho, htry.bind hdiscard.bind_error⟩
          | ok found =>
            exact ⟨_, .cons_parses hfirst hn fun _ => ⟨found, ho⟩,
              htry.bind (hdiscard.bind (Gives.pure _))⟩
        · refine ⟨_, .cons_parses hfirst hn fun h => absurd h hall, ?_⟩
          rw [Bool.eq_false_iff.2 hall]
          exact htry.bind (Gives.pure _)

/-- The alternatives are parsed as the rules say, as long as speculation may go deeper. -/
lemma simulate (a : Automaton) (ha : a.decision = decision) (alternatives : List Nat) :
    ∃ o, (if w.speculates = true then w.Simulates alternatives o else o = .ok none) ∧
      Gives (At r₀ i) (simulate hooks a (Cursor.index r₀.input) alternatives) o (At r₀ i) := by
  have hoptions : Gives (At r₀ i) (readState State.options) (.ok r₀.state.options) (At r₀ i) :=
    Gives.read fun r hr => hr.options_eq
  have hdepth : Gives (At r₀ i) (readState State.backtracking) (.ok r₀.state.backtracking)
      (At r₀ i) := Gives.read fun r hr => hr.backtracking_eq
  unfold Recognizer.simulate
  by_cases hdeep : w.speculates = true
  · have hnot : ¬ r₀.state.options.maxSpeculationDepth ≤ r₀.state.backtracking :=
      Nat.not_le.2 (hw.speculates_iff.1 hdeep)
    obtain ⟨hsorted, hmem⟩ := Automaton.ascending_spec alternatives
    obtain ⟨o, ho, hgives⟩ := hw.firstParsing hr₀ (i := i) _ hsorted
    refine ⟨o, ?_, hoptions.bind (hdepth.bind ?_)⟩
    · rw [if_pos hdeep]
      exact ho.congr hmem
    · rw [if_neg hnot, ha, ← hw.tryAll_eq]
      exact hgives
  · have hstop : r₀.state.options.maxSpeculationDepth ≤ r₀.state.backtracking :=
      Nat.not_lt.1 fun h => hdeep (hw.speculates_iff.2 h)
    refine ⟨.ok none, by rw [if_neg hdeep], hoptions.bind (hdepth.bind ?_)⟩
    rw [if_pos hstop]
    exact Gives.pure none

/-- A special state comes to what the rules say. -/
lemma resolve (a : Automaton) (ha : a.decision = decision) {k : Nat} (special : SpecialState) :
    ∃ o, w.Resolves (w.unit k) special o ∧
      Gives (At r₀ (r₀.placeAhead k)) (resolve hooks a (Cursor.index r₀.input) special) o
        (At r₀ (r₀.placeAhead k)) := by
  have hlook := At.lookahead (k := k) hw
  have hedges := hw.firstOpen hr₀ (i := r₀.placeAhead k) (w.unit k) special.edges
  unfold Recognizer.resolve
  cases hfind : special.edges.findSome? (w.edge (w.unit k)) with
  | some target =>
    rw [hfind] at hedges
    refine ⟨_, .edge hfind, hlook.bind ?_⟩
    cases target with
    | error cause => exact hedges.bind_error
    | ok u => exact hedges.bind (Gives.pure _)
  | none =>
    rw [hfind] at hedges
    obtain ⟨o, ho, hgives⟩ := hw.simulate hr₀ (i := r₀.placeAhead k) a ha special.simulate
    by_cases hempty : special.simulate.isEmpty = true
    · have hnone : w.Simulates special.simulate (.ok none) :=
        .none fun m hm => by simp [List.isEmpty_iff.1 hempty] at hm
      refine ⟨_, .lastResort hfind fun _ => hnone, hlook.bind (hedges.bind ?_)⟩
      rw [if_pos hempty]
      exact Gives.pure _
    · by_cases hdeep : w.speculates = true
      · rw [if_pos hdeep] at ho
        cases o with
        | error cause =>
          refine ⟨_, .raised hfind hdeep ho, hlook.bind (hedges.bind ?_)⟩
          rw [if_neg hempty]
          exact hgives.bind_error
        | ok found =>
          cases found with
          | some n =>
            refine ⟨_, .parsed hfind hdeep ho, hlook.bind (hedges.bind ?_)⟩
            rw [if_neg hempty]
            exact hgives.bind (Gives.pure _)
          | none =>
            refine ⟨_, .lastResort hfind fun _ => ho, hlook.bind (hedges.bind ?_)⟩
            rw [if_neg hempty]
            exact hgives.bind (Gives.pure _)
      · rw [if_neg hdeep] at ho
        subst ho
        refine ⟨_, .lastResort hfind fun h => absurd h hdeep, hlook.bind (hedges.bind ?_)⟩
        rw [if_neg hempty]
        exact hgives.bind (Gives.pure _)

end Outlook.Describes

end Lookahead
