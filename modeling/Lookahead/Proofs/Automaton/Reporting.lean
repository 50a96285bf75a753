import Lookahead.Proofs.Automaton.Ambiguity

/-!
# Reporting ambiguities

A special state that parses alternatives speculatively stops at the first that parses, or goes on to
report what else would have parsed.  Nothing can be told from the prediction about which of the two
it did.

What a hook tries is settled by the start of the decision, so all that the tries leave behind is a
cursor that was moved back, and what comes and goes during speculation (`Sought`).  However many
tries there were, this is the same as after one.  So two runs of which only one reports stay
`Indistinct` for everything that a walk asks, and the rest is a coupling (`Partners.walk`).
-/

namespace Lookahead

open Action Cursor
open Cursor.View (Ready spot)

variable {S X V α : Type} [Cursor S]

/-! ## What cannot be told apart -/

/-- The state, with ambiguities to be reported or not. -/
def State.reporting (b : Bool) (s : State) : State :=
  { s with options := { s.options with reportAmbiguities := b } }

/-- The state without what comes and goes during speculation and without what it keeps to be
quicker. -/
def State.lasting (s : State) : State :=
  { s with recovering := false, failed := false, memo := .empty, followCache := .empty }

/-- What lasts of a state, in a form that is the same whether or not ambiguities are reported. -/
def State.reserved (s : State) : State := (s.reporting false).lasting

/-- A part of the state that does not depend on the reporting. -/
lemma State.eq_of_reserved {β : Type} {s s' : State} (h : s'.reserved = s.reserved) {f : State → β}
    (hf : ∀ s, f s.reserved = f s) : f s' = f s := by
  rw [← hf s', h, hf s]

lemma State.reserved_of_lasting {s s' : State} (h : s'.lasting = s.lasting) :
    s'.reserved = s.reserved := congrArg (State.reporting false) h

namespace Recognizer

/-- The recognizer, with ambiguities to be reported or not. -/
def reporting (b : Bool) (r : Recognizer S X) : Recognizer S X :=
  { r with state := r.state.reporting b }

/-- What is told of a prediction: its result, the record of the last failure, and the
diagnostics. -/
def told (p : Except Fault Nat × Recognizer S X) :
    Except Fault Nat × Option Failure × List Diagnostic :=
  (p.1, p.2.state.lastFailure, p.2.state.diagnostics)

/-- What there is besides the input and the state. -/
def rest (r : Recognizer S X) : X × Array Event × Array Mark := (r.own, r.trace, r.handles)

variable [View S]

/-- The cursors are at one spot of one input, and the rest differs only in what comes and goes
during speculation, in the reporting, and in what is not seen. -/
structure Indistinct (see : X × Array Event × Array Mark → V) (r s : Recognizer S X) : Prop where
  ready : Ready r.input
  ready' : Ready s.input
  input_eq : View.input s.input = View.input r.input
  spot_eq : spot s.input = spot r.input
  state_eq : s.state.reserved = r.state.reserved
  see_eq : see s.rest = see r.rest

end Recognizer

open Recognizer

/-- At one place of an input, predicates do not tell apart what is indistinct, and speculation
leaves nothing behind that lasts or is seen. -/
structure Hooks.Discreet [View S] (hooks : Hooks S X) (start : Nat) (input : View.Input S)
    (see : X × Array Event × Array Mark → V) : Prop where
  predicate (id : Nat) {r s r' : Recognizer S X} {o : Except Fault Bool} : Indistinct see r s →
    View.input r.input = input → Cursor.index r.input = start →
    hooks.predicate id r = some (o, r') →
    ∃ s', hooks.predicate id s = some (o, s') ∧ Indistinct see r' s'
  speculate (decision n : Nat) {r r' : Recognizer S X} {o : Except Fault Unit} : Ready r.input →
    View.input r.input = input → Cursor.index r.input = start → 0 < r.state.backtracking →
    hooks.speculate decision n r = some (o, r') →
    r'.state.lasting = r.state.lasting ∧ see r'.rest = see r.rest

namespace Recognizer

variable [View S] [Determined S] {see : X × Array Event × Array Mark → V} {hooks : Hooks S X}
  {start decision : Nat} {input : View.Input S} {viable : (decision n : Nat) → Bool}
  {r r' s s' : Recognizer S X}

namespace Indistinct

omit [Cursor S] [Determined S] in
lemma symm (h : Indistinct see r s) : Indistinct see s r :=
  ⟨h.ready', h.ready, h.input_eq.symm, h.spot_eq.symm, h.state_eq.symm, h.see_eq.symm⟩

lemma index_eq (h : Indistinct see r s) : Cursor.index s.input = Cursor.index r.input := by
  rw [Lawful.index_eq, Lawful.index_eq, h.spot_eq]

omit [Cursor S] [Determined S] in
/-- Cursors that land at one spot. -/
lemma lands {i j : S} {p : View.Spot S} {ms ms' : MarkStack (View.Spot S)}
    (h : Indistinct see r s) (hi : Lands r.input i p ms) (hj : Lands s.input j p ms') :
    Indistinct see { r with input := i } { s with input := j } :=
  ⟨hi.ready, hj.ready, hj.input_eq.trans (h.input_eq.trans hi.input_eq.symm),
    hj.spot_eq.trans hi.spot_eq.symm, h.state_eq, h.see_eq⟩

omit [Cursor S] [Determined S] in
/-- Reading leaves the cursors where they are. -/
lemma lands_spot {i j : S} (h : Indistinct see r s)
    (hi : Lands r.input i (spot r.input) (View.marks r.input))
    (hj : Lands s.input j (spot s.input) (View.marks s.input)) :
    Indistinct see { r with input := i } { s with input := j } :=
  h.lands hi (h.spot_eq ▸ hj)

omit [Cursor S] [Determined S] in
lemma update {t t' : State} (h : Indistinct see r s) (ht : t'.reserved = t.reserved) :
    Indistinct see { r with state := t } { s with state := t' } :=
  ⟨h.ready, h.ready', h.input_eq, h.spot_eq, ht, h.see_eq⟩

lemma seek (h : Indistinct see r s) (i : Nat) :
    Indistinct see { r with input := Cursor.seek r.input i }
      { s with input := Cursor.seek s.input i } := by
  obtain ⟨p, hp, -⟩ := Lawful.seek i h.ready
  obtain ⟨q, hq, -⟩ := Lawful.seek i h.ready'
  have hspot := Determined.seek_congr i h.ready h.ready' h.input_eq
  rw [hp.spot_eq, hq.spot_eq] at hspot
  exact h.lands hp (hspot ▸ hq)

end Indistinct

/-! ## Side by side -/

/-- Two recognizers in the course of a walk that began at `start`, as a relation for couplings. -/
def Beside (see : X × Array Event × Array Mark → V) (input : View.Input S) (start : Nat) :
    Fault.Relation (Recognizer S X) :=
  fun _ r s => Indistinct see r s ∧ Afield input start r

section

variable {F : Recognizer S X → Prop}

omit [Cursor S] [Determined S] in
/-- What reads the input and leaves it where it is. -/
lemma paired_stepInput {f : S → α × S}
    (hland : ∀ {i : S}, Ready i → Lands i (f i).2 (spot i) (View.marks i))
    (hcongr : ∀ {i j : S}, Ready i → Ready j → View.input j = View.input i → spot j = spot i →
      (f j).1 = (f i).1) :
    Paired (fun _ => True) (Beside see input start) (stepInput f : Action (Recognizer S X) α)
      (stepInput f) := by
  refine Couples.step (fun _ _ => trivial) fun r s ⟨h, hr⟩ => ⟨?_, ?_, ?_⟩
  · exact hcongr h.ready h.ready' h.input_eq h.spot_eq
  · exact h.lands_spot (hland h.ready) (hland h.ready')
  · exact ⟨(hland h.ready).ready, (hland h.ready).input_eq.trans hr.input_eq, hr.stands⟩

lemma paired_consume : Paired (fun _ => True) (Beside see input start)
    (consume : Action (Recognizer S X) Unit) consume := by
  refine Couples.update (fun _ _ => trivial) fun r s ⟨h, hr⟩ => ?_
  obtain ⟨p, hp, -⟩ := Lawful.consume h.ready
  obtain ⟨q, hq, -⟩ := Lawful.consume h.ready'
  have hspot := Determined.consume_congr h.ready h.ready' h.input_eq h.spot_eq
  rw [hp.spot_eq, hq.spot_eq] at hspot
  exact ⟨h.lands hp (hspot ▸ hq), hp.ready, hp.input_eq.trans hr.input_eq, hr.stands⟩

omit [Cursor S] [Determined S] in
lemma paired_fault (e : Fault) : Paired (fun _ => True) (Beside see input start)
    (.fault e : Action (Recognizer S X) α) (.fault e) :=
  Couples.ofExcept (o := .error e) fun _ _ h => h

lemma paired_fail (kind : FailureKind) (expected : Option TokenSet) :
    Paired (fun _ => True) (Beside see input start)
      (fail kind expected : Action (Recognizer S X) α) (fail kind expected) := by
  have hgiveUp : Paired (fun _ => True) (Beside see input start)
      (giveUp : Action (Recognizer S X) α) giveUp := by
    refine Paired.bind (Couples.update (fun _ _ => trivial) fun r s ⟨h, hr⟩ => ?_)
      fun _ => paired_fault _
    exact ⟨h.update h.state_eq, hr.ready, hr.input_eq, hr.stands⟩
  have hrecord : Paired (fun _ => True) (Beside see input start)
      (failureHere kind expected : Action (Recognizer S X) Failure)
      (failureHere kind expected) := by
    refine Paired.bind (paired_stepInput Lawful.symbol Savable.symbol_congr) fun found => ?_
    refine Couples.read_bind (fun r s ⟨h, _⟩ => h.index_eq) fun index => ?_
    refine Couples.step (fun _ _ => trivial) fun r s ⟨h, hr⟩ => ?_
    have hfailure := State.eq_of_reserved h.state_eq
      (f := fun t => Failure.make kind found index expected t.context t.vocabulary) fun _ => rfl
    refine ⟨hfailure, h.update ?_, hr.ready, hr.input_eq, hr.stands⟩
    rw [hfailure]
    exact congrArg (fun t : State => { t with lastFailure := some (Failure.make kind found index
      expected r.state.context r.state.vocabulary) }) h.state_eq
  unfold fail
  refine Couples.read_bind (fun r s ⟨h, _⟩ => ?_) fun depth => .ite hgiveUp ?_
  · exact State.eq_of_reserved (f := State.backtracking) h.state_eq fun _ => rfl
  · exact hrecord.bind fun f => paired_fault _

/-- A visit to the start answers and leaves the same on both sides, and both come back. -/
lemma paired_predicate (htame : hooks.Tame) (hhooks : hooks.Discreet start input see) (id : Nat) :
    Paired (fun _ => True) (Beside see input start)
      (visiting start (hooks.predicate id)) (visiting start (hooks.predicate id)) := by
  refine ⟨fun _ _ _ _ _ => trivial, fun r o r' hrun _ s ⟨h, hr⟩ => ?_⟩
  obtain ⟨r₁, hvisit, rfl⟩ := visiting_eq_some.1 hrun
  obtain ⟨hthere, hindex⟩ := hr.seek
  obtain ⟨s₁, hvisit', h₁⟩ := hhooks.predicate id (h.seek start) hthere.input_eq hindex hvisit
  have hafter := ((htame.operate.predicate id) hvisit hthere.ready).ready hthere.ready
  obtain ⟨p, hland, -⟩ := Lawful.seek (Cursor.index r.input) h₁.ready
  exact ⟨_, visiting_eq_some.2 ⟨s₁, hvisit', rfl⟩, h.index_eq ▸ h₁.seek _, hland.ready,
    hland.input_eq.trans (hafter.2.trans hthere.input_eq), hr.stands⟩

/-! ## What tries leave behind -/

/-- From `r`, the cursor was moved back to where it was, and nothing else was changed but what comes
and goes during speculation, and what is not seen. -/
structure Sought (see : X × Array Event × Array Mark → V) (r r' : Recognizer S X) : Prop where
  ready : Ready r'.input
  input_eq : View.input r'.input = View.input r.input
  spot_eq : spot r'.input = spot (Cursor.seek r.input (Cursor.index r.input))
  state_eq : r'.state.lasting = r.state.lasting
  see_eq : see r'.rest = see r.rest

/-- To have moved back twice is to have moved back. -/
lemma Sought.trans (hr : Ready r.input) (h : Sought see r s) (h' : Sought see s s') :
    Sought see r s' := by
  obtain ⟨p, hland, hplace⟩ := Lawful.seek (Cursor.index r.input) hr
  have hindex : Cursor.index s.input = Cursor.index r.input := by
    rw [Lawful.index_eq, h.spot_eq, hland.spot_eq, hplace (Lawful.stands hr)]
  refine ⟨h'.ready, h'.input_eq.trans h.input_eq, ?_, h'.state_eq.trans h.state_eq,
    h'.see_eq.trans h.see_eq⟩
  rw [h'.spot_eq, hindex]
  exact Determined.seek_congr _ hr h.ready h.input_eq

/-- What was moved back on both sides is as it was on both sides. -/
lemma Indistinct.of_sought (h : Indistinct see r s) (hr : Sought see r r') (hs : Sought see s s') :
    Indistinct see r' s' := by
  refine ⟨hr.ready, hs.ready, hs.input_eq.trans (h.input_eq.trans hr.input_eq.symm), ?_, ?_,
    hs.see_eq.trans (h.see_eq.trans hr.see_eq.symm)⟩
  · rw [hr.spot_eq, hs.spot_eq, h.index_eq]
    exact Determined.seek_congr _ h.ready h.ready' h.input_eq
  · exact (State.reserved_of_lasting hs.state_eq).trans
      (h.state_eq.trans (State.reserved_of_lasting hr.state_eq).symm)

section

variable (htame : hooks.Tame) (htries : hooks.Tries start input viable)
  (hhooks : hooks.Discreet start input see)

include htame htries hhooks

/-- A try moves the cursor back. -/
lemma sought_trying (hr : Afield input start r) (decision n : Nat) :
    ∃ r', trying hooks decision start n r = some (.ok (viable decision n), r') ∧
      Sought see r r' := by
  obtain ⟨o, r₁, i, hrun, hback, htry⟩ := trying_apply htame htries hr decision n
  obtain ⟨hthere, hindex⟩ := hr.seek
  obtain ⟨hmark, hsame⟩ := hthere.begun
  obtain ⟨hstate, hsee⟩ := hhooks.speculate decision n hmark.ready hmark.input_eq
    (hsame.trans hindex) (Nat.succ_pos _) hrun
  have hinput : View.input i = View.input r.input :=
    hback.input_eq.trans (hthere.input_eq.trans hr.input_eq.symm)
  obtain ⟨p, hland, -⟩ := Lawful.seek (Cursor.index r.input) hback.ready
  refine ⟨_, htry, hland.ready, hland.input_eq.trans hinput, ?_, ?_, hsee⟩
  · exact Determined.seek_congr _ hr.ready hback.ready hinput
  · -- the depth that the speculation has added is taken back
    exact congrArg (fun t : State => { t with backtracking := t.backtracking - true.toNat }) hstate

/-- However many alternatives are tried, the cursor was moved back. -/
lemma sought_firstParsing (hr : Afield input start r) (decision : Nat) (tryAll : Bool)
    {ns : List Nat} (hns : ns ≠ []) :
    ∃ r', firstParsing hooks decision start tryAll ns r =
      some (.ok (ns.find? (viable decision)), r') ∧ Sought see r r' := by
  obtain ⟨n, rest, rfl⟩ := List.exists_cons_of_ne_nil hns
  have hfirst : Gives (· = r) (trying hooks decision start n) (.ok (viable decision n))
      (Sought see r) := by
    rintro _ rfl
    exact sought_trying htame htries hhooks hr decision n
  have hrest : Gives (Sought see r) (firstParsing hooks decision start tryAll rest)
      (.ok (rest.find? (viable decision))) (Sought see r) := by
    refine gives_firstParsing (fun m s hs => ?_) tryAll rest
    obtain ⟨s', hrun, hs'⟩ := sought_trying htame htries hhooks
      (⟨hs.ready, hs.input_eq.trans hr.input_eq, hr.stands⟩ : Afield input start s) decision m
    exact ⟨s', hrun, hs.trans hr.ready hs'⟩
  exact gives_firstParsing_cons hfirst hrest r rfl

/-- Whether ambiguities are reported makes no difference to what is found, and none that could be
told by what is left behind. -/
lemma paired_simulate (a : Automaton) (alternatives : List Nat) :
    Paired (fun _ => True) (Beside see input start) (simulate hooks a start alternatives)
      (simulate hooks a start alternatives) := by
  refine ⟨fun _ _ _ _ _ => trivial, fun r o r' hrun _ s ⟨h, hr⟩ => ?_⟩
  have hbound : s.state.options.maxSpeculationDepth ≤ s.state.backtracking ↔
      r.state.options.maxSpeculationDepth ≤ r.state.backtracking :=
    iff_of_eq (State.eq_of_reserved h.state_eq
      (f := fun t => t.options.maxSpeculationDepth ≤ t.backtracking) fun _ => rfl)
  have hs : Afield input start s := ⟨h.ready', h.input_eq.trans hr.input_eq, hr.stands⟩
  simp only [simulate, bind_apply, readState_apply, hbound] at hrun ⊢
  split at hrun
  · rename_i hdeep
    obtain ⟨rfl, rfl⟩ := Prod.mk.inj (Option.some.inj hrun)
    exact ⟨s, if_pos hdeep ▸ rfl, h, hr⟩
  · rename_i hshallow
    rw [if_neg hshallow]
    by_cases hnone : Automaton.ascending alternatives = []
    · rw [hnone] at hrun ⊢
      obtain ⟨rfl, rfl⟩ := Prod.mk.inj (Option.some.inj hrun)
      exact ⟨s, rfl, h, hr⟩
    · obtain ⟨r₁, hfirst, hsought⟩ := sought_firstParsing htame htries hhooks hr
        a.decision r.state.options.reportAmbiguities hnone
      obtain ⟨rfl, rfl⟩ := Prod.mk.inj (Option.some.inj (hrun.symm.trans hfirst))
      obtain ⟨s₁, hfirst', hsought'⟩ := sought_firstParsing htame htries hhooks hs
        a.decision s.state.options.reportAmbiguities hnone
      exact ⟨s₁, hfirst', h.of_sought hsought hsought', hsought.ready,
        hsought.input_eq.trans hr.input_eq, hr.stands⟩

/-- All that a walk does keeps the two sides beside each other. -/
lemma partners_of_discreet :
    Partners (fun _ => True) (Beside see input start) start hooks hooks where
  lookahead := paired_stepInput (Lawful.lookahead 1) (Savable.lookahead_congr 1)
  consume := paired_consume
  fail := paired_fail
  misuse cause := paired_fault (.misuse cause)
  predicate := paired_predicate htame hhooks
  simulate := paired_simulate htame htries hhooks

end

end

/-! ## Main theorem -/

variable {a : Automaton}

lemma told_reporting (htame : hooks.Tame) (hr : Reached r.input)
    (htries : hooks.Tries r.startOf (View.input (begun false r).input) viable)
    (hhooks : hooks.Discreet r.startOf (View.input (begun false r).input) see) (b : Bool)
    {o : Except Fault Nat} (h : predict hooks a r = some (o, r')) :
    ((predict hooks a (r.reporting b)).map told) = some (told (o, r')) := by
  have hready : Ready (begun false r).input := ready_begun hr
  have hbegin : Beside see (View.input (begun false r).input) r.startOf none (begun false r)
      (begun false (r.reporting b)) :=
    ⟨⟨hready, hready, rfl, rfl, rfl, rfl⟩, hready, rfl, Lawful.stands hready⟩
  obtain ⟨⟨o₁, r₁⟩, hwalk, -⟩ : ∃ p, walkOf hooks a r = some p ∧ _ :=
    Option.map_eq_some_iff.1 ((predict_apply hooks a r).symm.trans h)
  obtain ⟨s₁, hwalk', hafter, -⟩ := ((partners_of_discreet htame htries hhooks).walk a
    r.state.options.maxLookahead 0).follows hwalk trivial _ hbegin
  obtain ⟨i, -, hrun⟩ := predict_of_walk hwalk hr (tame_walkOf htame hwalk)
  obtain ⟨rfl, rfl⟩ := Prod.mk.inj (Option.some.inj (h.symm.trans hrun))
  have hwalk' : walkOf hooks a (r.reporting b) = some (o, s₁) := hwalk'
  obtain ⟨j, -, hrun'⟩ := predict_of_walk hwalk' hr (tame_walkOf htame hwalk')
  rw [hrun', Option.map_some]
  exact congrArg (fun p : Option Failure × List Diagnostic => some (o, p))
    (State.eq_of_reserved hafter.state_eq (f := fun t => (t.lastFailure, t.diagnostics))
      fun _ => rfl)

/-- Whether ambiguities are reported cannot be told from a prediction. -/
lemma told_predict_reporting (htame : hooks.Tame) (hr : Reached r.input)
    (htries : hooks.Tries r.startOf (View.input (begun false r).input) viable)
    (hhooks : hooks.Discreet r.startOf (View.input (begun false r).input) see) (b : Bool) :
    (predict hooks a (r.reporting b)).map told = (predict hooks a r).map told := by
  cases h : predict hooks a r with
  | some p => exact told_reporting htame hr htries hhooks b h
  | none =>
    cases h' : predict hooks a (r.reporting b) with
    | none => rfl
    | some p =>
      -- with the reporting as it was, the other prediction would have come out as well
      have hback := told_reporting (r := r.reporting b) htame hr htries hhooks
        r.state.options.reportAmbiguities h'
      rw [show (r.reporting b).reporting r.state.options.reportAmbiguities = r from rfl, h] at hback
      cases hback

/-- **The lowest alternative that parses is predicted, however alternatives are listed and
reported.**  The hooks are tame, and it is settled by the start of the decision which
alternatives parse: the speculation for each of them, made there, comes to an end and says so
(`Tries`).

A special state none of whose edges is open, and which lists alternatives, comes to the lowest
of them that parses, and to its last resort if there is none; if the first state of the
automaton is such a one, then that is what is predicted.  Listing the alternatives in another
order or several times changes nothing about the prediction, on any input.  Nor can be told from
it whether ambiguities are reported, if predicates are not told by what a speculation leaves
behind (`Discreet`). -/
theorem predict_takes_lowest (htame : hooks.Tame) (hr : Reached r.input)
    (htries : hooks.Tries r.startOf (View.input (begun false r).input) viable) {decision : Nat}
    {description : String} {states : List AutomatonState} {specials : List SpecialState}
    (ha : Automaton.ofStates decision description states specials = .ok a) :
    (∀ s special x x', Afield (View.input (begun false r).input) r.startOf x →
      Undecided hooks a r.startOf s special x x' →
        TakesLowest hooks a r.startOf s special (viable a.decision) x) ∧
    (∀ special x', Undecided hooks a r.startOf 0 special (begun false r) x' →
      ∀ n, IsLeast {m | m ∈ special.simulate ∧ viable a.decision m = true} n →
        ∃ r', predict hooks a r = some (.ok n, r')) ∧
    ∀ specials', List.Forall₂ SpecialState.Relists specials specials' →
      ∃ a', Automaton.ofStates decision description states specials' = .ok a' ∧
        predict hooks a' = predict hooks a ∧
        ∀ {V : Type} (see : X × Array Event × Array Mark → V),
          hooks.Discreet r.startOf (View.input (begun false r).input) see →
          ∀ b, (predict hooks a' (r.reporting b)).map told = (predict hooks a r).map told := by
  have hready : Ready (begun false r).input := ready_begun hr
  refine ⟨fun s special x x' hx hundecided => hundecided.takesLowest htame htries hx,
    fun special x' hundecided n hn => ?_, fun specials' hrel => ?_⟩
  · have hfield : Afield (View.input (begun false r).input) r.startOf (begun false r) :=
      ⟨hready, rfl, Lawful.stands hready⟩
    obtain ⟨r', -, hwalk⟩ := (hundecided.takesLowest htame htries hfield).lowest n hn
    have hwalk : walkOf hooks a r = some (.ok n, r') := hwalk _
    obtain ⟨i, -, hrun⟩ := predict_of_walk hwalk hr (tame_walkOf htame hwalk)
    exact ⟨_, hrun⟩
  · obtain ⟨a', ha', hrelists⟩ := Automaton.ofStates_of_relists ha hrel
    refine ⟨a', ha', predict_of_relists hrelists hooks, fun see hhooks b => ?_⟩
    rw [predict_of_relists hrelists]
    exact told_predict_reporting htame hr htries hhooks b

/-- Hooks with a predicate that is false, and alternatives of which 2 and 3 parse. -/
def choosing : Hooks S X where
  predicate _ := return false
  speculate _ n := if n = 2 ∨ n = 3 then consume else .fault .backtracking

lemma tame_choosing : (choosing : Hooks S X).Tame where
  predicate _ := Within.pure _
  speculate _ _ := Within.ite Tame.consume (Within.fault _)

omit [View S] [Determined S] in
lemma choosing_speculate (decision n : Nat) : (choosing : Hooks S X).speculate decision n =
    if n = 2 ∨ n = 3 then consume else .fault .backtracking := rfl

omit [Determined S] in
lemma tries_choosing (start : Nat) (input : View.Input S) :
    (choosing : Hooks S X).Tries start input fun _ n => n = 2 ∨ n = 3 where
  speculate decision n r _ _ _ _ := by
    rw [choosing_speculate]
    by_cases hn : n = 2 ∨ n = 3
    · rw [if_pos hn, decide_eq_true hn]
      exact ⟨.ok (), _, consume_apply r, rfl⟩
    · rw [if_neg hn, decide_eq_false hn]
      exact ⟨.error .backtracking, r, rfl, rfl⟩

omit [Determined S] in
lemma discreet_choosing (start : Nat) (input : View.Input S) :
    (choosing : Hooks S X).Discreet start input id where
  predicate _ _ s _ _ h _ _ hrun := by
    obtain ⟨rfl, rfl⟩ := Prod.mk.inj (Option.some.inj hrun)
    exact ⟨s, rfl, h⟩
  speculate _ n r r' o _ _ _ _ hrun := by
    rw [choosing_speculate] at hrun
    split at hrun
    · obtain ⟨-, rfl⟩ := Prod.mk.inj (Option.some.inj hrun)
      exact ⟨rfl, rfl⟩
    · obtain ⟨-, rfl⟩ := Prod.mk.inj (Option.some.inj hrun)
      exact ⟨rfl, rfl⟩

/-- A decision between alternatives that are tried, after a predicate that is asked. -/
def listing (alternatives : List Nat) : SpecialState := ⟨[⟨none, some 7, 1⟩], alternatives, some 1⟩

/-- Its states: one that it decides, and its last resort. -/
def listingStates : List AutomatonState :=
  [⟨none, some 0, none, none, 0, #[]⟩, ⟨some 4, none, none, none, 0, #[]⟩]

/-- The lower of two alternatives that parse is predicted, and so it is if they are listed in
another order, not as often, and with the other one reported. -/
theorem predict_takes_lowest_choosing : ∃ a a',
    Automaton.ofStates 0 "" listingStates [listing [3, 1, 2, 3]] = .ok a ∧
    Automaton.ofStates 0 "" listingStates [listing [2, 3, 1]] = .ok a' ∧
    (∃ r', predict choosing a twoUnits = some (.ok 2, r')) ∧
    ((predict choosing a' (twoUnits.reporting true)).map told).map Prod.fst = some (.ok 2) := by
  obtain ⟨a, ha⟩ : ∃ a, Automaton.ofStates 0 "" listingStates [listing [3, 1, 2, 3]] = .ok a ∧
      a.specialAt 0 = some (listing [3, 1, 2, 3]) := ⟨_, rfl, rfl⟩
  have hreached : Reached twoUnits.input := ⟨_, ⟨rfl, rfl⟩, .refl _⟩
  obtain ⟨-, hlowest, hrelisted⟩ :=
    predict_takes_lowest tame_choosing hreached (tries_choosing _ _) ha.1
  have hundecided : Undecided choosing a twoUnits.startOf 0 (listing [3, 1, 2, 3])
      (begun false twoUnits) (begun false twoUnits) := ⟨ha.2, by decide, rfl, by decide⟩
  obtain ⟨r', hrun⟩ := hlowest _ _ hundecided 2
    ⟨⟨by decide, rfl⟩, fun m hm => by have := of_decide_eq_true hm.2; omega⟩
  have hrelists : (listing [3, 1, 2, 3]).Relists (listing [2, 3, 1]) :=
    ⟨rfl, rfl, fun n => by simp [listing]; tauto⟩
  obtain ⟨a', ha', -, htold⟩ := hrelisted [listing [2, 3, 1]] (.cons hrelists .nil)
  refine ⟨a, a', ha.1, ha', ⟨r', hrun⟩, ?_⟩
  rw [htold id (discreet_choosing _ _) true, hrun]
  rfl

end Recognizer

end Lookahead
