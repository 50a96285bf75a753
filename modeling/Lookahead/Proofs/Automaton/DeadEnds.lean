import Lookahead.Proofs.Automaton.Closed
import Lookahead.Proofs.Automaton.Start
import Lookahead.Proofs.TokenSet

/-!
# Dead ends

A walk comes to a dead end at a state without a step on the unit ahead.  `Strands` follows the walk
there, unit by unit, through whatever its special states do in between.

The failure is about that unit and that state (`ReportsDeadEnd`).  What it expects is read off the
table and the edge for the end of input, while a step also takes the edge for the end of the token
and then looks up what it leads to.  They agree, because a state with an edge for the end of the
token is never a dead end, and because all edges lead to states that exist.
-/

namespace Lookahead

open Action Cursor
open Cursor.View (Ready)

/-! ## Types with a step -/

namespace AutomatonState

/-- The types at the places of the table that are not empty are those with an edge. -/
lemma mem_tableTypes {s : AutomatonState} {type : TokenType} :
    (type ∈ s.edges.toList.zipIdx.filterMap fun (target, i) =>
      target.map fun _ => s.low + (i : Int)) ↔ (s.edge type).isSome = true := by
  rw [List.mem_filterMap, Option.isSome_iff_exists]
  constructor
  · rintro ⟨⟨target, i⟩, hmem, hmap⟩
    obtain ⟨u, rfl, htype⟩ := Option.map_eq_some_iff.1 hmap
    exact ⟨u, edge_eq_some_iff.2
      ⟨i, by simpa using List.mk_mem_zipIdx_iff_getElem?.1 hmem, htype⟩⟩
  · rintro ⟨u, hu⟩
    obtain ⟨i, hget, htype⟩ := edge_eq_some_iff.1 hu
    exact ⟨(some u, i), List.mk_mem_zipIdx_iff_getElem?.2 (by simpa using hget),
      congrArg some htype⟩

/-- Of the types that a set can hold, those are viable that have an edge in the table, and the end
of input if it has one. -/
lemma has_viableTypes {s : AutomatonState} {type : TokenType} :
    s.viableTypes.has type = true ↔
      ((s.edge type).isSome = true ∨ type = .eof ∧ s.endOfInput.isSome = true) ∧
        (type = .eof ∨ 1 ≤ type) := by
  rw [viableTypes, TokenSet.has_ofTypes, TokenSet.isSome_slot, List.mem_append, mem_tableTypes]
  cases s.endOfInput <;> simp

/-- Without an edge for the end of the token, the viable types are those with a target. -/
lemma has_viableTypes_iff {s : AutomatonState} (h : s.endOfToken = none) {type : TokenType}
    (htype : type = .eof ∨ 1 ≤ type) :
    s.viableTypes.has type = true ↔ s.target type ≠ none := by
  rw [has_viableTypes, and_iff_left htype, target, h]
  by_cases heof : type = .eof
  · cases s.edge type <;> simp [heof, Option.isSome_iff_ne_none]
  · cases s.edge type <;> simp [heof]

lemma endOfToken_of_target_eq_none {s : AutomatonState} {type : TokenType}
    (h : s.target type = none) : s.edge type = none ∧ s.endOfToken = none ∧
      (type = .eof → s.endOfInput = none) := by
  rw [target] at h
  cases hedge : s.edge type with
  | some u => simp [hedge] at h
  | none =>
    cases htoken : s.endOfToken with
    | some u => simp [hedge, htoken] at h
    | none => exact ⟨rfl, rfl, fun heof => by simpa [hedge, htoken, if_pos heof] using h⟩

end AutomatonState

namespace Automaton

variable {a : Automaton} {s : Nat} {state : AutomatonState} {type : TokenType}

/-- An accepted automaton has a step wherever a state has a target. -/
lemma Closed.step_eq_none_iff (ha : a.Closed) (hstate : a.states[s]? = some state)
    (type : TokenType) : a.step s type = .none ↔ state.target type = none := by
  have hmem : state ∈ a.states := Array.mem_of_getElem? hstate
  simp only [Automaton.step, hstate]
  cases htarget : state.target type with
  | none => simp
  | some u =>
    have hu : u < a.states.size := by
      rcases AutomatonState.leads_iff.2 htarget with hedge | ⟨-, htoken⟩ | ⟨-, -, -, hinput⟩
      · obtain ⟨i, hget, -⟩ := AutomatonState.edge_eq_some_iff.1 hedge
        exact ha.table state hmem u (Array.mem_of_getElem? hget)
      · exact ha.endOfToken state hmem u htoken
      · exact ha.endOfInput state hmem u hinput
    simp only [arrive, Array.getElem?_eq_getElem hu, reduceCtorEq, iff_false]
    split
    · simp
    · split <;> simp

/-- At a dead end the viable types are those with a step, of the types that a set can hold. -/
lemma Closed.has_viableTypes_iff (ha : a.Closed) (hstate : a.states[s]? = some state)
    (hdead : a.step s type = .none) :
    (∀ type', type' = .eof ∨ 1 ≤ type' →
      (state.viableTypes.has type' = true ↔ a.step s type' ≠ .none)) ∧
    state.viableTypes.has type = false := by
  have htarget := (ha.step_eq_none_iff hstate type).1 hdead
  obtain ⟨hedge, htoken, hinput⟩ := AutomatonState.endOfToken_of_target_eq_none htarget
  constructor
  · intro type' htype
    rw [AutomatonState.has_viableTypes_iff htoken htype, Ne, Ne,
      ha.step_eq_none_iff hstate type']
  · rw [Bool.eq_false_iff, Ne, AutomatonState.has_viableTypes, hedge]
    rintro ⟨h | ⟨heof, h⟩, -⟩
    · cases h
    · rw [hinput heof] at h
      cases h

end Automaton

namespace Recognizer

variable {S X : Type} [Cursor S]

/-! ## Coming to a dead end -/

/-- From `r`, where the walk is at state `s`, it consumes `k` units and then is at state `t`, and
the recognizer is `r₁`; there the table would decide, but has no step on the unit ahead. -/
inductive Strands (hooks : Hooks S X) (a : Automaton) (start : Nat) :
    (budget s : Nat) → Recognizer S X → (k t : Nat) → Recognizer S X → Prop
  | here {budget s t : Nat} {state : AutomatonState} {r r₁ : Recognizer S X}
      (hsettle : settle hooks a start a.stateCount s r = some (.ok (.state t state), r₁))
      (haccept : state.accept = none)
      (hstep : a.step t (Cursor.lookahead r₁.input 1).1 = .none) :
      Strands hooks a start (budget + 1) s r 0 t r₁
  | onward {budget s t u k t' : Nat} {state : AutomatonState} {r r₁ r₂ : Recognizer S X}
      (hsettle : settle hooks a start a.stateCount s r = some (.ok (.state t state), r₁))
      (haccept : state.accept = none)
      (hstep : a.step t (Cursor.lookahead r₁.input 1).1 = .next u ∨
        a.step t (Cursor.lookahead r₁.input 1).1 = .special u)
      (h : Strands hooks a start budget u
        { r₁ with input := Cursor.consume (Cursor.lookahead r₁.input 1).2 } k t' r₂) :
      Strands hooks a start (budget + 1) s r (k + 1) t' r₂

variable {hooks : Hooks S X} {a : Automaton} {start budget s k t : Nat} {r r₁ : Recognizer S X}

/-- The record of a failure to find an alternative at state `t`. -/
def failureAt (a : Automaton) (t : Nat) (r : Recognizer S X) : Failure :=
  .make (.noViableAlternative a.decision t a.alternatives a.description) (Cursor.symbol r.input).1
    (Cursor.index (Cursor.symbol r.input).2) (a.states[t]?.map AutomatonState.viableTypes)
    r.state.context r.state.vocabulary

/-- Whoever only tries is told to give up; everybody else gets the record. -/
lemma noViable_cases (a : Automaton) (t : Nat) (r : Recognizer S X) (α : Type) :
    (0 < r.state.backtracking ∧ ∃ r₁, (noViable a t : Action (Recognizer S X) α) r =
      some (.error .backtracking, r₁) ∧ r₁.state.backtracking = r.state.backtracking) ∨
    ∃ r₁, (noViable a t : Action (Recognizer S X) α) r =
      some (.error (.failed (failureAt a t r)), r₁) ∧
        r₁.state.lastFailure = some (failureAt a t r) := by
  rw [noViable, fail, bind_apply, readState_apply]
  by_cases hdepth : 0 < r.state.backtracking
  · simp only [if_pos hdepth]
    exact .inl ⟨hdepth, _, rfl, rfl⟩
  · simp only [if_neg hdepth]
    exact .inr ⟨_, rfl, rfl⟩

lemma noViable_ne_ok {α : Type} {v : α} : noViable a s r ≠ some (.ok v, r₁) := by
  intro h
  rcases noViable_cases a s r α with ⟨-, r₂, hrun, -⟩ | ⟨r₂, hrun, -⟩
  · cases h.symm.trans hrun
  · cases h.symm.trans hrun

/-- The state is one of the automaton's, and it is no special one. -/
def Ordinary (a : Automaton) (t : Nat) (state : AutomatonState) : Prop :=
  a.states[t]? = some state ∧ state.special = none

lemma ordinary_of_arrivingAt {state : AutomatonState}
    {follow : SpecialState → Action (Recognizer S X) Settled}
    (hfollow : ∀ special r, follow special r = some (.ok (.state t state), r₁) → Ordinary a t state)
    (h : arrivingAt a s follow r = some (.ok (.state t state), r₁)) : Ordinary a t state := by
  rw [arrivingAt] at h
  cases hstate : a.states[s]? with
  | none =>
    rw [show a.state s = .error (.noState a.decision s) by simp [Automaton.state, hstate]] at h
    cases h
  | some here =>
    rw [show a.state s = .ok here by simp [Automaton.state, hstate]] at h
    simp only [Except.mapError, bind_apply, ofExcept_apply] at h
    cases hspecial : here.special with
    | none =>
      rw [hspecial] at h
      obtain ⟨hsettled, -⟩ := Prod.mk.inj (Option.some.inj h)
      obtain ⟨rfl, rfl⟩ := Settled.state.inj (Except.ok.inj hsettled)
      exact ⟨hstate, hspecial⟩
    | some i =>
      rw [hspecial] at h
      cases hi : a.special i with
      | none =>
        simp only [hi] at h
        exact absurd h noViable_ne_ok
      | some special =>
        simp only [hi] at h
        exact hfollow special _ h

/-- Special states lead to ordinary states. -/
lemma ordinary_of_settle {hops : Nat} {state : AutomatonState}
    (h : settle hooks a start hops s r = some (.ok (.state t state), r₁)) : Ordinary a t state := by
  induction hops generalizing s r with
  | zero => exact ordinary_of_arrivingAt (fun special r h => absurd h noViable_ne_ok) h
  | succ hops ih =>
    refine ordinary_of_arrivingAt (fun special r h => ?_) h
    rcases bind_eq_some.1 h with ⟨resolution, r₂, -, hrest⟩ | ⟨e, -, heq⟩
    · cases resolution with
      | state next =>
        simp only at hrest
        split at hrest
        · exact absurd hrest noViable_ne_ok
        · exact ih hrest
      | alternative n => cases hrest
      | stuck => exact absurd hrest noViable_ne_ok
    · cases heq

/-- A walk with a dead end ahead of it fails there. -/
lemma Strands.walk_eq (h : Strands hooks a start budget s r k t r₁) :
    walk hooks a start budget s r =
      noViable a t { r₁ with input := (Cursor.lookahead r₁.input 1).2 } := by
  induction h with
  | here hsettle haccept hstep =>
    rw [walk, deciding, bind_of_ok hsettle]
    simp only [haccept]
    rw [bind_of_ok (lookahead_apply 1 _), hstep]
  | onward hsettle haccept hstep h ih =>
    rw [walk, deciding, bind_of_ok hsettle]
    simp only [haccept]
    rw [bind_of_ok (lookahead_apply 1 _), ← ih]
    rcases hstep with hstep | hstep
    · rw [hstep]
      exact bind_of_ok (consume_apply _)
    · rw [hstep]
      exact bind_of_ok (consume_apply _)

variable [View S]

/-- The dead end is as many units ahead of the cursor as were consumed. -/
lemma Strands.unmoved [Lawful S] (hhooks : hooks.Operate)
    (h : Strands hooks a start budget s r k t r₁) (hr : Ready r.input) :
    Ready r₁.input ∧ View.input r₁.input = View.input r.input ∧
      Cursor.index r₁.input = r.placeAhead k ∧
      (∃ state, a.states[t]? = some state) ∧ a.step t (Cursor.lookahead r₁.input 1).1 = .none := by
  induction h with
  | here hsettle haccept hstep =>
    obtain ⟨hready, hinput, hindex⟩ := (sojourn_of_operate hhooks start).settle a _ _ hsettle hr
    exact ⟨hready, hinput, hindex, ⟨_, (ordinary_of_settle hsettle).1⟩, hstep⟩
  | onward hsettle haccept hstep h ih =>
    obtain ⟨hready, hinput, hindex⟩ := (sojourn_of_operate hhooks start).settle a _ _ hsettle hr
    have hlook := Lawful.lookahead 1 hready
    obtain ⟨p, hland, hplace⟩ := Lawful.consume hlook.ready
    obtain ⟨hready', hinput', hindex', hdead⟩ := ih hland.ready
    have hsame := hland.input_eq.trans (hlook.input_eq.trans hinput)
    refine ⟨hready', hinput'.trans hsame, hindex'.trans ?_, hdead⟩
    rw [placeAhead, placeAhead, Function.iterate_succ_apply, hsame, hland.index_eq, hplace,
      hlook.input_eq, hinput, hlook.index_eq, ← Lawful.index_eq, hindex]

/-! ## What is reported -/

/-- A failure says that with the stream at `u` the automaton had no step from state `t`: where the
unit ahead is and what it is, which types have a step from `t`, and all that can be predicted. -/
structure ReportsDeadEnd (a : Automaton) (t : Nat) (u : S) (f : Failure) : Prop where
  kind_eq : f.kind = .noViableAlternative a.decision t a.alternatives a.description
  index_eq : f.index = Cursor.index u
  found_eq : f.found = (Cursor.symbol u).1
  type_eq : f.found.type = (Cursor.lookahead u 1).1
  expected : ∃ types, f.expected = some types ∧
    (∀ type, type = .eof ∨ 1 ≤ type → (types.has type = true ↔ a.step t type ≠ .none)) ∧
    types.has f.found.type = false
  alternatives_iff : ∀ n, n ∈ a.alternatives ↔
    (∃ s ∈ a.states, s.accept = some n) ∨ ∃ s ∈ a.specials, n ∈ s.simulate

variable [Determined S]

lemma reportsDeadEnd_of_noViable {α : Type} {f : Failure} {r₂ : Recognizer S X} (ha : a.Closed)
    (hr : Ready r.input) {state : AutomatonState} (hstate : a.states[t]? = some state)
    (hdead : a.step t (Cursor.lookahead r.input 1).1 = .none)
    (h : (noViable a t : Action (Recognizer S X) α)
      { r with input := (Cursor.lookahead r.input 1).2 } = some (.error (.failed f), r₂)) :
    ReportsDeadEnd a t r.input f ∧ r₂.state.lastFailure = some f := by
  obtain ⟨rfl, hrecord⟩ : f = failureAt a t { r with input := (Cursor.lookahead r.input 1).2 } ∧
      r₂.state.lastFailure = some f := by
    rcases noViable_cases a t { r with input := (Cursor.lookahead r.input 1).2 } α with
      ⟨-, r₃, hrun, -⟩ | ⟨r₃, hrun, hlast⟩
    · cases h.symm.trans hrun
    · obtain ⟨heq, rfl⟩ := Prod.mk.inj (Option.some.inj (h.symm.trans hrun))
      obtain rfl := Fault.failed.inj (Except.error.inj heq)
      exact ⟨rfl, hlast⟩
  have hlook := Lawful.lookahead 1 hr
  have hsymbol := Lawful.symbol hlook.ready
  have hfound : (Cursor.symbol (Cursor.lookahead r.input 1).2).1 = (Cursor.symbol r.input).1 :=
    Savable.symbol_congr hr hlook.ready hlook.input_eq hlook.spot_eq
  have htype := Determined.symbol_type hr
  obtain ⟨hviable, hmissing⟩ := ha.has_viableTypes_iff hstate hdead
  refine ⟨⟨rfl, ?_, hfound, ?_, ⟨_, congrArg (Option.map _) hstate, hviable, ?_⟩,
    ha.alternatives_iff⟩, hrecord⟩
  · exact (hsymbol.index_eq.trans (congrArg _ hlook.spot_eq)).trans (Lawful.index_eq _).symm
  · exact (congrArg Token.type hfound).trans htype
  · exact (congrArg state.viableTypes.has ((congrArg Token.type hfound).trans htype)).trans hmissing

/-- **A dead end is reported as what it is.**  The automaton is accepted, and the hooks do
nothing to the stream but operate it.  The walk comes to the state `t`, with `k` units consumed
since the start of the decision, and that state has no step on the unit ahead (`Strands`, which
follows the walk step by step).

If the prediction fails then, the failure is about that unit and that state: its index and token
are those of the unit, the types that it expects are those on which the automaton has a step
from there, so that the unit's type is not among them, and the alternatives that it lists are
all that the automaton can predict.  And the prediction does fail, if it is no speculation and
the hooks are tame. -/
theorem predict_dead_end {a : Automaton} (ha : a.Accepted) {hooks : Hooks S X}
    (hhooks : hooks.Operate) {r r₁ : Recognizer S X} (hr : Reached r.input) {k t : Nat}
    (h : Strands hooks a r.startOf r.state.options.maxLookahead 0 (begun false r) k t r₁) :
    Cursor.index r₁.input = (begun false r).placeAhead k ∧
      View.input r₁.input = View.input (begun false r).input ∧
      (∀ f r', predict hooks a r = some (.error (.failed f), r') →
        ReportsDeadEnd a t r₁.input f ∧ r'.state.lastFailure = some f) ∧
      (hooks.Tame → r.state.backtracking = 0 →
        ∃ f r', predict hooks a r = some (.error (.failed f), r')) := by
  obtain ⟨hready, hinput, hindex, ⟨state, hstate⟩, hdead⟩ := h.unmoved hhooks (ready_begun hr)
  refine ⟨hindex, hinput, fun f r' hrun => ?_, fun htame hdepth => ?_⟩
  · obtain ⟨r₂, hwalk, hsame⟩ := walkOf_of_failed hrun
    rw [walkOf, h.walk_eq] at hwalk
    rw [hsame]
    exact reportsDeadEnd_of_noViable ha.closed hready hstate hdead hwalk
  · rcases noViable_cases a t { r₁ with input := (Cursor.lookahead r₁.input 1).2 } Nat with
      ⟨hpos, r₂, hfail, hsame⟩ | ⟨r₂, hfail, -⟩
    · -- the depth of backtracking that the failure would need was not there at the start
      have hwalk : walkOf hooks a r = some (.error .backtracking, r₂) := h.walk_eq.trans hfail
      obtain ⟨-, -, hkept⟩ := tame_walkOf htame hwalk (ready_begun hr)
      have hzero : r₁.state.backtracking = 0 := hsame.symm.trans (hkept.trans hdepth)
      exact absurd hpos (Nat.not_lt.2 (Nat.le_of_eq hzero))
    · have hwalk := h.walk_eq.trans hfail
      obtain ⟨i, -, hrun⟩ := predict_of_walk hwalk hr (tame_walkOf htame hwalk)
      exact ⟨_, _, hrun⟩

/-- A decision between two units that starts with the marker `down`. -/
def behindDown : Automaton where
  decision := 3
  description := "d"
  states := #[⟨none, none, none, none, 2, #[some 1]⟩, ⟨none, none, none, some 2, 5, #[some 2]⟩,
    ⟨some 1, none, none, none, 0, #[]⟩]
  specials := #[]
  alternatives := [1]

lemma accepted_behindDown : behindDown.Accepted := by
  have hbuilt : Automaton.ofClauses 3 "d"
      [.edge 0 .down 1, .edge 1 5 2, .edge 1 .eof 2, .accept 2 1] = .ok behindDown := by
    decide +kernel
  exact .built hbuilt

/-- The second unit, `up`, is not what the decision has an edge for. -/
theorem predict_dead_end_up : ∃ f r',
    predict wandering behindDown twoUnits = some (.error (.failed f), r') ∧ f.index = 1 ∧
      f.found.type = .up ∧ r'.state.lastFailure = some f := by
  have hreached : Reached twoUnits.input := ⟨_, ⟨rfl, rfl⟩, .refl _⟩
  have hstrands : Strands wandering behindDown twoUnits.startOf
      twoUnits.state.options.maxLookahead 0 (begun false twoUnits) 1 1 _ :=
    .onward rfl rfl (.inl rfl) (.here rfl rfl rfl)
  obtain ⟨-, -, hreports, hfails⟩ :=
    predict_dead_end accepted_behindDown tame_wandering.operate hreached hstrands
  obtain ⟨f, r', hrun⟩ := hfails tame_wandering rfl
  obtain ⟨hreport, hrecord⟩ := hreports f r' hrun
  exact ⟨f, r', hrun, hreport.index_eq, hreport.type_eq, hrecord⟩

end Recognizer

end Lookahead
