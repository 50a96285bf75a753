import Lookahead.Proofs.Automaton.Clauses
import Lookahead.Proofs.Automaton.Counting
import Lookahead.Proofs.Automaton.Start
import Lookahead.Proofs.Coupling
import Mathlib.Data.List.Forall2
import Mathlib.Order.Bounds.Defs

/-!
# Ambiguous decisions

A special state that parses alternatives speculatively takes the lowest that parses
(`Undecided.takesLowest`).  Which one that is depends neither on the order in which the alternatives
are listed nor on how often, and nothing else about a prediction does (`predict_of_relists`).

Every try goes to the start of the decision, runs the hook under a mark, and comes back
(`trying_apply`).  So what a hook `Tries` there is all that counts, wherever the walk has come.
-/

namespace Lookahead

open Action Cursor
open Cursor.View (Ready)

variable {S X α : Type} [Cursor S]

/-! ## The lowest alternative -/

namespace Automaton

variable {ns : List Nat} {viable : Nat → Bool} {n : Nat}

lemma find?_ascending_of_isLeast (h : IsLeast {m | m ∈ ns ∧ viable m = true} n) :
    (ascending ns).find? viable = some n := by
  obtain ⟨hsorted, hmem⟩ := ascending_spec ns
  obtain ⟨⟨hn, hviable⟩, hlowest⟩ := h
  obtain ⟨lower, higher, hsplit⟩ := List.append_of_mem ((hmem n).2 hn)
  refine List.find?_eq_some_iff_append.2 ⟨hviable, lower, higher, hsplit, fun m hm => ?_⟩
  rw [hsplit, List.pairwise_append] at hsorted
  have hlt : m < n := hsorted.2.2 m hm n (by simp)
  have hlisted : m ∈ ns := (hmem m).1 (hsplit ▸ List.mem_append_left _ hm)
  cases hm' : viable m with
  | false => rfl
  | true => exact absurd (hlowest ⟨hlisted, hm'⟩) (Nat.not_le.2 hlt)

lemma find?_ascending_of_forall (h : ∀ m ∈ ns, viable m = false) :
    (ascending ns).find? viable = none := by
  refine List.find?_eq_none.2 fun m hm => ?_
  rw [h m ((ascending_spec ns).2 m |>.1 hm)]
  exact Bool.false_ne_true

/-- Lists with the same members are the same in order. -/
lemma ascending_congr {ns' : List Nat} (h : ∀ n, n ∈ ns' ↔ n ∈ ns) :
    ascending ns' = ascending ns := by
  obtain ⟨hsorted, hmem⟩ := ascending_spec ns
  obtain ⟨hsorted', hmem'⟩ := ascending_spec ns'
  have hperm : (ascending ns').Perm (ascending ns) := by
    refine (List.perm_ext_iff_of_nodup ?_ ?_).2 fun n => ?_
    · exact hsorted'.imp fun h => Nat.ne_of_lt h
    · exact hsorted.imp fun h => Nat.ne_of_lt h
    · rw [hmem', hmem, h]
  exact hperm.eq_of_pairwise (fun _ _ _ _ hab hba => absurd hab (Nat.lt_asymm hba)) hsorted' hsorted

end Automaton

/-! ## Trying alternatives -/

/-- Tried at one place of an input, each alternative of a decision comes out as a match or as none,
as `viable` has it. -/
structure Hooks.Tries [View S] (hooks : Hooks S X) (start : Nat) (input : View.Input S)
    (viable : (decision n : Nat) → Bool) : Prop where
  speculate (decision n : Nat) {r : Recognizer S X} : Ready r.input → View.input r.input = input →
    Cursor.index r.input = start → 0 < r.state.backtracking →
    ∃ o r', hooks.speculate decision n r = some (o, r') ∧
      Recognizer.answer o = .ok (viable decision n)

namespace Recognizer

variable {hooks : Hooks S X} {decision start : Nat}

/-- An alternative is tried. -/
abbrev trying (hooks : Hooks S X) (decision start n : Nat) : Action (Recognizer S X) Bool :=
  visiting start (synpred (hooks.speculate decision n))

section

variable {P Q : Recognizer S X → Prop} {tryAll : Bool} {n : Nat} {rest : List Nat}
  {viable : Nat → Bool}

lemma gives_firstParsing_cons (htry : Gives P (trying hooks decision start n) (.ok (viable n)) Q)
    (hrest : Gives Q (firstParsing hooks decision start tryAll rest) (.ok (rest.find? viable)) Q) :
    Gives P (firstParsing hooks decision start tryAll (n :: rest))
      (.ok ((n :: rest).find? viable)) Q := by
  rw [firstParsing, List.find?_cons]
  cases hn : viable n with
  | false =>
    rw [hn] at htry
    exact htry.bind hrest
  | true =>
    rw [hn] at htry
    refine htry.bind ?_
    cases tryAll with
    | false => exact Gives.pure _
    | true => exact hrest.discard.bind (Gives.pure _)

/-- The alternatives are tried in order, and those behind the first that parses do not count. -/
lemma gives_firstParsing
    (htry : ∀ n, Gives Q (trying hooks decision start n) (.ok (viable n)) Q) (tryAll : Bool)
    (ns : List Nat) :
    Gives Q (firstParsing hooks decision start tryAll ns) (.ok (ns.find? viable)) Q := by
  induction ns with
  | nil => exact Gives.pure _
  | cons n rest ih => exact gives_firstParsing_cons (htry n) ih

end

variable [View S] [Lawful S] {input : View.Input S} {viable : (decision n : Nat) → Bool}
  {r : Recognizer S X}

/-- The recognizer is where a walk that began at `start` may have come to: over the same input, and
on a stream that can go back to `start`. -/
structure Afield (input : View.Input S) (start : Nat) (r : Recognizer S X) : Prop where
  ready : Ready r.input
  input_eq : View.input r.input = input
  stands : View.Stands input start

lemma Afield.seek (hr : Afield input start r) :
    Afield input start { r with input := Cursor.seek r.input start } ∧
      Cursor.index (Cursor.seek r.input start) = start := by
  obtain ⟨p, hland, hplace⟩ := Lawful.seek start hr.ready
  exact ⟨⟨hland.ready, hland.input_eq.trans hr.input_eq, hr.stands⟩,
    hland.index_eq.trans (hplace (hr.input_eq ▸ hr.stands))⟩

lemma Afield.begun (hr : Afield input start r) :
    Afield input start (Recognizer.begun true r) ∧
      Cursor.index (Recognizer.begun true r).input = Cursor.index r.input :=
  have hmark := lands_begun true hr.ready
  ⟨⟨hmark.ready, hmark.input_eq.trans hr.input_eq, hr.stands⟩, index_begun true hr.ready⟩

/-- A try goes to the start, runs the hook under a mark, goes back to the mark, and then to where it
came from. -/
lemma trying_apply (htame : hooks.Tame) (htries : hooks.Tries start input viable)
    (hr : Afield input start r) (decision n : Nat) :
    ∃ o r₁ i, hooks.speculate decision n
        (begun true { r with input := Cursor.seek r.input start }) = some (o, r₁) ∧
      Returned (Cursor.seek r.input start) i ∧
      trying hooks decision start n r = some (.ok (viable decision n),
        { ended true i (cleared r₁) with input := Cursor.seek i (Cursor.index r.input) }) := by
  obtain ⟨hthere, hindex⟩ := hr.seek
  obtain ⟨hmark, hsame⟩ := hthere.begun
  obtain ⟨o, r₁, hrun, hanswer⟩ := htries.speculate decision n hmark.ready hmark.input_eq
    (hsame.trans hindex) (Nat.succ_pos _)
  obtain ⟨hunder, -⟩ := (htame.speculate decision n hrun).under hthere.ready
  obtain ⟨i, hback, hsynpred⟩ := synpred_apply hthere.ready hrun hunder
  rw [hanswer] at hsynpred
  exact ⟨o, r₁, i, hrun, hback, visiting_eq_some.2 ⟨_, hsynpred, rfl⟩⟩

lemma gives_trying (htame : hooks.Tame) (htries : hooks.Tries start input viable)
    (decision n : Nat) : Gives (Afield input start) (trying hooks decision start n)
      (.ok (viable decision n)) (Afield input start) := by
  intro r hr
  obtain ⟨o, r₁, i, -, hback, hrun⟩ := trying_apply htame htries hr decision n
  obtain ⟨p, hland, -⟩ := Lawful.seek (Cursor.index r.input) hback.ready
  exact ⟨_, hrun, hland.ready,
    hland.input_eq.trans (hback.input_eq.trans hr.seek.1.input_eq), hr.stands⟩

/-! ## Deciding by trying -/

omit [View S] [Lawful S] in
/-- The walk is at a special state none of whose edges is open, which lists alternatives, and
speculation may go deeper.  When the edges have been looked at, the recognizer is `r'`. -/
structure Undecided (hooks : Hooks S X) (a : Automaton) (start s : Nat) (special : SpecialState)
    (r r' : Recognizer S X) : Prop where
  special_eq : a.specialAt s = some special
  listed : special.simulate ≠ []
  closed : firstOpen hooks start (Cursor.lookahead r.input 1).1 special.edges
    { r with input := (Cursor.lookahead r.input 1).2 } = some (.ok none, r')
  shallow : r'.state.backtracking < r'.state.options.maxSpeculationDepth

variable {a : Automaton} {s : Nat} {special : SpecialState} {r' : Recognizer S X}

/-- An undecided special state comes to the first of its alternatives in order that parses. -/
lemma Undecided.resolve (h : Undecided hooks a start s special r r') (htame : hooks.Tame)
    (htries : hooks.Tries start input viable) (hr : Afield input start r) :
    ∃ r'', resolve hooks a start special r = some (.ok
      (((Automaton.ascending special.simulate).find? (viable a.decision)).elim
        ((special.fallback.map .state).getD .stuck) .alternative), r'') := by
  have hlook := Unmoved.lookahead 1 (lookahead_apply 1 r) hr.ready
  have hedges := (sojourn_of_operate htame.operate start).firstOpen _ _ h.closed hlook.1
  have hafter : Afield input start r' :=
    ⟨hedges.1, hedges.2.1.trans (hlook.2.1.trans hr.input_eq), hr.stands⟩
  obtain ⟨r'', hrun, -⟩ := gives_firstParsing (gives_trying htame htries a.decision)
    r'.state.options.reportAmbiguities (Automaton.ascending special.simulate) r' hafter
  have hsimulate : simulate hooks a start special.simulate r' =
      some (.ok ((Automaton.ascending special.simulate).find? (viable a.decision)), r'') := by
    simp only [simulate, bind_apply, readState_apply, if_neg (Nat.not_le.2 h.shallow)]
    exact hrun
  refine ⟨r'', ?_⟩
  rw [Recognizer.resolve, bind_of_ok (lookahead_apply 1 r), bind_of_ok h.closed]
  simp only [List.isEmpty_iff, h.listed, if_false]
  rw [bind_of_ok hsimulate]
  cases (Automaton.ascending special.simulate).find? (viable a.decision) <;> rfl

/-- What an undecided special state comes to.  The walk has found the lowest alternative that
parses; if there is none, it goes on at the last resort, as from any special state. -/
structure TakesLowest (hooks : Hooks S X) (a : Automaton) (start s : Nat) (special : SpecialState)
    (viable : Nat → Bool) (r : Recognizer S X) : Prop where
  lowest : ∀ n, IsLeast {m | m ∈ special.simulate ∧ viable m = true} n →
    ∃ r', (∀ hops, settle hooks a start (hops + 1) s r = some (.ok (.alternative n), r')) ∧
      ∀ budget, walk hooks a start budget s r = some (.ok n, r')
  lastResort : (∀ m ∈ special.simulate, viable m = false) →
    ∃ r', Recognizer.resolve hooks a start special r =
        some (.ok ((special.fallback.map .state).getD .stuck), r') ∧
      ∀ hops, settle hooks a start (hops + 1) s r =
        afterResolving a s (settle hooks a start hops)
          ((special.fallback.map .state).getD .stuck) r'

lemma Undecided.takesLowest (h : Undecided hooks a start s special r r') (htame : hooks.Tame)
    (htries : hooks.Tries start input viable) (hr : Afield input start r) :
    TakesLowest hooks a start s special (viable a.decision) r := by
  obtain ⟨r'', hresolve⟩ := h.resolve htame htries hr
  have hsettle (hops : Nat) : settle hooks a start (hops + 1) s =
      Recognizer.resolve hooks a start special >>= afterResolving a s (settle hooks a start hops) :=
    settle_succ_of_special h.special_eq
  constructor
  · intro n hn
    rw [Automaton.find?_ascending_of_isLeast hn] at hresolve
    have hsettled (hops : Nat) :
        settle hooks a start (hops + 1) s r = some (.ok (.alternative n), r'') := by
      rw [hsettle, bind_of_ok hresolve]
      rfl
    refine ⟨r'', hsettled, fun budget => ?_⟩
    obtain ⟨hops, hcount⟩ := Nat.exists_eq_add_of_lt
      (Automaton.lt_stateCount_of_specialAt h.special_eq)
    have hfound : settle hooks a start a.stateCount s r = some (.ok (.alternative n), r'') :=
      hcount ▸ hsettled _
    cases budget with
    | zero =>
      rw [walk, deciding, bind_of_ok hfound]
      rfl
    | succ budget =>
      rw [walk, deciding, bind_of_ok hfound]
      rfl
  · intro hnone
    rw [Automaton.find?_ascending_of_forall hnone] at hresolve
    refine ⟨r'', hresolve, fun hops => ?_⟩
    rw [hsettle, bind_of_ok hresolve]
    rfl

end Recognizer

/-! ## Listing the alternatives differently -/

/-- The special states differ only in the order of the alternatives that they list, and in how often
they list them. -/
structure SpecialState.Relists (special special' : SpecialState) : Prop where
  edges_eq : special'.edges = special.edges
  fallback_eq : special'.fallback = special.fallback
  simulate_iff : ∀ n, n ∈ special'.simulate ↔ n ∈ special.simulate

namespace Automaton

/-- The automata differ only in how their special states list the alternatives that they try. -/
structure Relists (a a' : Automaton) : Prop where
  decision_eq : a'.decision = a.decision
  description_eq : a'.description = a.description
  states_eq : a'.states = a.states
  alternatives_eq : a'.alternatives = a.alternatives
  special (i : Nat) : Option.Rel SpecialState.Relists (a.special i) (a'.special i)

variable {specials specials' : List SpecialState}

/-- Special states that list the same in different ways lead to the same states, and can predict the
same. -/
lemma targets_of_relists (h : List.Forall₂ SpecialState.Relists specials specials') :
    specials'.map specialTargets = specials.map specialTargets ∧
      ∀ n, n ∈ specials'.flatMap SpecialState.simulate ↔
        n ∈ specials.flatMap SpecialState.simulate := by
  induction h with
  | nil => exact ⟨rfl, fun n => Iff.rfl⟩
  | cons hfirst _ ih =>
    obtain ⟨htargets, hmem⟩ := ih
    refine ⟨?_, fun n => ?_⟩
    · rw [List.map_cons, List.map_cons, htargets]
      simp only [specialTargets, hfirst.edges_eq, hfirst.fallback_eq]
    · rw [List.flatMap_cons, List.flatMap_cons, List.mem_append, List.mem_append, hmem,
        hfirst.simulate_iff]

lemma getElem?_of_relists (h : List.Forall₂ SpecialState.Relists specials specials') (i : Nat) :
    Option.Rel SpecialState.Relists specials[i]? specials'[i]? := by
  induction h generalizing i with
  | nil => exact .none
  | cons hfirst _ ih =>
    cases i with
    | zero => exact .some hfirst
    | succ i => exact ih i

/-- Tables are accepted however their special states list alternatives. -/
lemma ofStates_of_relists {decision : Nat} {description : String} {states : List AutomatonState}
    {a : Automaton} (h : ofStates decision description states specials = .ok a)
    (hrel : List.Forall₂ SpecialState.Relists specials specials') :
    ∃ a', ofStates decision description states specials' = .ok a' ∧ a.Relists a' := by
  obtain ⟨htargets, hmem⟩ := targets_of_relists hrel
  unfold ofStates at h ⊢
  split at h
  · cases h
  rename_i hne
  obtain ⟨⟨⟩, hstates, h⟩ := bind_eq_ok.1 h
  obtain ⟨⟨⟩, hspecials, h⟩ := bind_eq_ok.1 h
  obtain rfl := Except.ok.inj h
  have hspecials' : specials'.forM (checkSpecial decision states.length) = .ok () := by
    rw [forM_eq_ok] at hspecials ⊢
    intro special' hspecial'
    have hmem' : specialTargets special' ∈ specials.map specialTargets :=
      htargets ▸ List.mem_map_of_mem hspecial'
    obtain ⟨special, hspecial, heq⟩ := List.mem_map.1 hmem'
    have hchecked := hspecials special hspecial
    rwa [checkSpecial, heq] at hchecked
  rw [if_neg hne, ← hrel.length_eq]
  refine ⟨_, bind_eq_ok.2 ⟨(), hstates, bind_eq_ok.2 ⟨(), hspecials', rfl⟩⟩, rfl, rfl, rfl, ?_,
    fun i => ?_⟩
  · exact ascending_congr fun n => by rw [List.mem_append, List.mem_append, hmem]
  · simpa [Automaton.special] using getElem?_of_relists hrel i

end Automaton

namespace Recognizer

lemma resolve_of_relists {hooks : Hooks S X} {a a' : Automaton} (h : a.Relists a') (start : Nat)
    {special special' : SpecialState} (hspecial : special.Relists special') :
    resolve hooks a' start special' = resolve hooks a start special := by
  have hempty : special'.simulate.isEmpty = special.simulate.isEmpty := by
    rw [Bool.eq_iff_iff, List.isEmpty_iff, List.isEmpty_iff, List.eq_nil_iff_forall_not_mem,
      List.eq_nil_iff_forall_not_mem]
    exact forall_congr' fun n => not_congr (hspecial.simulate_iff n)
  have hsimulate : simulate hooks a' start special'.simulate =
      simulate hooks a start special.simulate := by
    rw [simulate, simulate, Automaton.ascending_congr hspecial.simulate_iff, h.decision_eq]
  rw [resolve, resolve, hempty, hsimulate, hspecial.edges_eq, hspecial.fallback_eq]

/-- In what order and how often a special state lists its alternatives changes nothing. -/
lemma predict_of_relists {a a' : Automaton} (h : a.Relists a') (hooks : Hooks S X) :
    predict hooks a' = predict hooks a := by
  refine predict_of_counterpart fun start =>
    ⟨h.decision_eq, h.description_eq, h.states_eq, h.alternatives_eq, fun i => ?_⟩
  have hi := h.special i
  generalize a.special i = special?, a'.special i = special?' at hi
  cases hi with
  | none => exact .none
  | some hspecial => exact .some (resolve_of_relists h start hspecial)

end Recognizer

end Lookahead
