import Lookahead.Proofs.Action
import Lookahead.Proofs.Stream.Lawful
import Lookahead.Recognizer.Speculation

/-!
# Speculations go back

A speculation takes a mark, runs its body, and goes back to the mark.  If the body has left the
mark open, then this cannot fail, and the cursor, the open marks and the depth of backtracking are
those from before (`speculating_restore`, `synpred_apply`).

`Tame` is what a body has to be for that.  It is a preorder, so that it can be carried through runs
by `Action.Within`.
-/

namespace Lookahead.Recognizer

open Action Cursor
open Cursor.View (Ready spot marks)

variable {S X α : Type} [Cursor S] {r r₁ r' : Recognizer S X} {raise : Bool}

/-! ## Beginning and ending -/

/-- A recognizer as the body of a speculation finds it. -/
def begun (raise : Bool) (r : Recognizer S X) : Recognizer S X :=
  { r with
    input := (Cursor.mark r.input).2
    state := { r.state with backtracking := r.state.backtracking + raise.toNat } }

/-- A recognizer at the end of a speculation, back at the input `i`. -/
def ended (raise : Bool) (i : S) (r : Recognizer S X) : Recognizer S X :=
  { r with
    input := i
    state := { r.state with backtracking := r.state.backtracking - raise.toNat } }

lemma beginSpeculation_apply (raise : Bool) (r : Recognizer S X) :
    beginSpeculation raise r = some (.ok (Cursor.mark r.input).1, begun raise r) := by
  cases raise <;> rfl

lemma endSpeculation_apply (raise : Bool) (m : Mark) (ending : GuardEnd) (r : Recognizer S X) :
    endSpeculation raise m ending r =
      some ((Cursor.endGuard r.input m ending).1.mapError .misuse,
        ended raise (Cursor.endGuard r.input m ending).2 r) := by
  cases raise <;> rfl

lemma speculating_apply (raise : Bool) (ending : GuardEnd) (body : Action (Recognizer S X) α)
    (r : Recognizer S X) :
    speculating raise ending body r =
      (body (begun raise r)).bind fun (outcome, r₁) =>
        let (result, i) := Cursor.endGuard r₁.input (Cursor.mark r.input).1 ending
        some ((result.mapError .misuse).bind fun _ => outcome, ended raise i r₁) := by
  simp only [speculating, bind_apply, beginSpeculation_apply, attempt_apply]
  rcases body (begun raise r) with _ | ⟨outcome, r₁⟩
  · rfl
  · simp only [Option.map_some, endSpeculation_apply, Option.bind_some]
    cases (Cursor.endGuard r₁.input (Cursor.mark r.input).1 ending).1 <;> rfl

/-- What a speculation comes to whose body has come out as `outcome`. -/
def concluded (raise : Bool) (ending : GuardEnd) (m : Mark) (outcome : Except Fault α)
    (r : Recognizer S X) : Except Fault α × Recognizer S X :=
  (((Cursor.endGuard r.input m ending).1.mapError .misuse).bind fun _ => outcome,
    ended raise (Cursor.endGuard r.input m ending).2 r)

lemma speculating_eq_some {raise : Bool} {ending : GuardEnd} {x : Action (Recognizer S X) α}
    {r r' : Recognizer S X} {o : Except Fault α} :
    speculating raise ending x r = some (o, r') ↔ ∃ outcome r₁,
      x (begun raise r) = some (outcome, r₁) ∧
        concluded raise ending (Cursor.mark r.input).1 outcome r₁ = (o, r') := by
  rw [speculating_apply, Option.bind_eq_some_iff, Prod.exists]
  simp only [concluded, Option.some.injEq]

/-- What a syntactic predicate answers if its fragment comes out as `outcome`. -/
def answer : Except Fault Unit → Except Fault Bool
  | .ok () => .ok true
  | .error (.misuse cause) => .error (.misuse cause)
  | .error _ => .ok false

/-- The flag that a failed match leaves behind is cleared. -/
def cleared (r : Recognizer S X) : Recognizer S X :=
  { r with state := { r.state with failed := false } }

/-- A syntactic predicate is a speculation that answers. -/
lemma synpred_eq (fragment : Action (Recognizer S X) Unit) :
    synpred fragment =
      (speculating true .restore do
        let outcome ← fragment.attempt
        .update cleared
        return outcome) >>= fun outcome => .ofExcept (answer outcome) := by
  funext r
  simp only [synpred, speculating, bind_apply, beginSpeculation_apply, attempt_apply]
  rcases fragment (begun true r) with _ | ⟨outcome, r₁⟩
  · rfl
  · simp only [Option.map_some, updateState_apply, update_apply, pure_apply, endSpeculation_apply,
      cleared]
    cases (Cursor.endGuard r₁.input (Cursor.mark r.input).1 .restore).1 with
    | error cause => rfl
    | ok _ => rcases outcome with (_ | _ | _) | _ <;> rfl

/-! ## Going back -/

variable [View S] [Lawful S]

lemma lands_begun (raise : Bool) (hr : Ready r.input) :
    Lands r.input (begun raise r).input (spot r.input)
      ((marks r.input).push (spot r.input)).2 :=
  Lawful.mark hr

lemma index_begun (raise : Bool) (hr : Ready r.input) :
    Cursor.index (begun raise r).input = Cursor.index r.input := by
  rw [(lands_begun raise hr).index_eq, ← Lawful.index_eq]

/-- The work on the second recognizer was begun under a mark by the first, and has left that mark
open. -/
structure Under (r r₁ : Recognizer S X) : Prop where
  reaches : Reaches (Cursor.mark r.input).2 r₁.input
  opened : (marks (Cursor.mark r.input).2).entries <+: (marks r₁.input).entries

/-- The stream `i` is back at `s`. -/
structure Returned (s i : S) : Prop where
  reaches : Reaches s i
  ready : Ready i
  input_eq : View.input i = View.input s
  spot_eq : spot i = spot s
  marks_eq : (marks i).entries = (marks s).entries

lemma Under.returned (hr : Ready r.input) (h : Under r r₁) :
    ∃ i, Cursor.endGuard r₁.input (Cursor.mark r.input).1 .restore = (.ok (), i) ∧
      Returned r.input i := by
  obtain ⟨hready, hinput⟩ := h.reaches.ready (Lawful.mark hr).ready
  have hsame : View.input r₁.input = View.input r.input := hinput.trans (Lawful.mark hr).input_eq
  obtain ⟨i, hi, hland⟩ := rewind_mark hr hready hsame h.opened
  have hreach : Reaches r.input i :=
    ((Step.mark r.input).reaches.trans h.reaches).trans (Step.rewind hi).reaches
  refine ⟨i, ?_, hreach, hland.ready, hland.input_eq, hland.spot_eq, by rw [hland.marks_eq]⟩
  rw [Cursor.endGuard]
  simp only [hi]

/-- **A speculation that leaves its mark open goes back.**  Nothing else becomes of what its body
did, and the outcome is that of the body. -/
theorem speculating_restore {body : Action (Recognizer S X) α} {outcome : Except Fault α}
    (hr : Ready r.input) (hbody : body (begun raise r) = some (outcome, r₁)) (hunder : Under r r₁) :
    ∃ i, Returned r.input i ∧
      speculating raise .restore body r = some (outcome, ended raise i r₁) := by
  obtain ⟨i, hi, hback⟩ := hunder.returned hr
  refine ⟨i, hback, ?_⟩
  rw [speculating_apply, hbody, Option.bind_some]
  simp only [hi]
  rfl

/-- **A syntactic predicate whose fragment leaves the mark open answers, and goes back**: it comes
to an end with the answer that the fragment's outcome stands for, and the input is where it was. -/
theorem synpred_apply {fragment : Action (Recognizer S X) Unit} {outcome : Except Fault Unit}
    (hr : Ready r.input) (hrun : fragment (begun true r) = some (outcome, r₁))
    (hunder : Under r r₁) :
    ∃ i, Returned r.input i ∧
      synpred fragment r = some (answer outcome, ended true i (cleared r₁)) := by
  have hbody : (do
      let outcome ← fragment.attempt
      .update cleared
      return outcome : Action (Recognizer S X) _) (begun true r) =
        some (.ok outcome, cleared r₁) := by
    simp only [bind_apply, attempt_apply, hrun, Option.map_some, update_apply, pure_apply]
  obtain ⟨i, hback, hspec⟩ := speculating_restore hr hbody ⟨hunder.reaches, hunder.opened⟩
  refine ⟨i, hback, ?_⟩
  rw [synpred_eq, bind_apply, hspec]
  rfl

omit [View S] [Lawful S] in
/-- A syntactic predicate ends only if its fragment does. -/
lemma synpred_eq_some {fragment : Action (Recognizer S X) Unit} {result : Except Fault Bool}
    (h : synpred fragment r = some (result, r')) :
    ∃ outcome r₁, fragment (begun true r) = some (outcome, r₁) := by
  rcases hrun : fragment (begun true r) with _ | ⟨outcome, r₁⟩
  · simp [synpred, bind_apply, beginSpeculation_apply, attempt_apply, hrun] at h
  · exact ⟨outcome, r₁, rfl⟩

omit [View S] [Lawful S] in
/-- Nothing is traced behind the fragment. -/
lemma synpred_trace {fragment : Action (Recognizer S X) Unit} {result : Except Fault Bool}
    (h : synpred fragment r = some (result, r')) :
    ∃ outcome r₁, fragment (begun true r) = some (outcome, r₁) ∧ r'.trace = r₁.trace := by
  obtain ⟨outcome, r₁, hrun⟩ := synpred_eq_some h
  refine ⟨outcome, r₁, hrun, ?_⟩
  simp only [synpred, bind_apply, beginSpeculation_apply, attempt_apply, hrun, Option.map_some,
    updateState_apply, endSpeculation_apply] at h
  rcases hend : (Cursor.endGuard r₁.input (Cursor.mark r.input).1 .restore).1 with cause | _
  · rw [hend] at h
    obtain ⟨-, rfl⟩ := Prod.mk.inj (Option.some.inj h)
    rfl
  · rw [hend] at h
    rcases outcome with (_ | _ | _) | _
    all_goals
      obtain ⟨-, rfl⟩ := Prod.mk.inj (Option.some.inj h)
      rfl

/-! ## Tame work -/

/-- Unless the input was unfit to begin with, nothing but operations on it has changed it, no mark
was popped that had been open, and backtracking is as deep as before. -/
def Tame (r r' : Recognizer S X) : Prop :=
  Ready r.input → Reaches r.input r'.input ∧
    (marks r.input).entries <+: (marks r'.input).entries ∧
    r'.state.backtracking = r.state.backtracking

instance : IsPreorder (Recognizer S X) Tame where
  refl r _ := ⟨Reaches.refl _, List.prefix_refl _, rfl⟩
  trans r r₁ r' h h' hr := by
    obtain ⟨hreach, hopen, hdepth⟩ := h hr
    obtain ⟨hreach', hopen', hdepth'⟩ := h' (hreach.ready hr).1
    exact ⟨hreach.trans hreach', hopen.trans hopen', hdepth'.trans hdepth⟩

namespace Tame

omit [Lawful S] in
lemma of_input_eq (hinput : r'.input = r.input)
    (hdepth : r'.state.backtracking = r.state.backtracking) : Tame r r' := by
  intro _
  rw [hinput]
  exact ⟨Reaches.refl _, List.prefix_refl _, hdepth⟩

omit [Lawful S] in
lemma of_roams (hinput : Roams r.input r'.input)
    (hdepth : r'.state.backtracking = r.state.backtracking) : Tame r r' :=
  fun hr => ⟨hinput.reaches, hinput.opened hr, hdepth⟩

lemma lookahead (k : Int) : Within Tame (lookahead k : Action (Recognizer S X) TokenType) := by
  unfold Recognizer.lookahead stepInput
  exact Within.step fun r => of_roams (Roams.lookahead r.input k) rfl

lemma symbol : Within Tame (symbol : Action (Recognizer S X) Token) := by
  unfold Recognizer.symbol stepInput
  exact Within.step fun r => of_roams (Roams.symbol r.input) rfl

lemma consume : Within Tame (consume : Action (Recognizer S X) Unit) := by
  unfold Recognizer.consume
  exact Within.update fun r => of_roams (Roams.consume r.input) rfl

lemma seek (i : Nat) : Within Tame (seek i : Action (Recognizer S X) Unit) := by
  unfold Recognizer.seek
  exact Within.update fun r => of_roams (Roams.seek r.input i) rfl

lemma mark : Within Tame (mark : Action (Recognizer S X) Mark) := by
  unfold Recognizer.mark stepInput
  exact Within.step fun r => of_roams (Roams.mark r.input) rfl

lemma fail (kind : FailureKind) (expected : Option TokenSet) :
    Within Tame (fail kind expected : Action (Recognizer S X) α) := by
  have hstate {f : State → State} (hf : ∀ s, (f s).backtracking = s.backtracking) :
      Within Tame (updateState f : Action (Recognizer S X) Unit) :=
    Within.update fun r => of_input_eq rfl (hf r.state)
  unfold Recognizer.fail giveUp failureHere stepState
  refine (Within.read _).bind fun depth => Within.ite ?_ ?_
  · exact (hstate (f := fun s => { s with failed := true }) fun _ => rfl).bind
      fun _ => Within.fault _
  · refine (symbol.bind fun found => (Within.read _).bind fun index => ?_).bind
      fun f => Within.fault _
    exact Within.step fun r => of_input_eq rfl rfl

/-- Tame work is tame under a mark, and leaves the mark open. -/
lemma under (hr : Ready r.input) (h : Tame (begun raise r) r₁) :
    Under r r₁ ∧ r₁.state.backtracking = r.state.backtracking + raise.toNat := by
  obtain ⟨hreach, hopen, hdepth⟩ := h (Lawful.mark hr).ready
  exact ⟨⟨hreach, hopen⟩, hdepth⟩

end Tame

/-- A speculation with a tame body comes back, and has the outcome of its body. -/
lemma speculating_of_tame {body : Action (Recognizer S X) α} {outcome : Except Fault α}
    (hr : Ready r.input) (hbody : Within Tame body)
    (h : speculating raise .restore body r = some (outcome, r')) :
    Returned r.input r'.input ∧ r'.state.backtracking = r.state.backtracking := by
  rcases hrun : body (begun raise r) with _ | ⟨o, r₁⟩
  · simp [speculating_apply, hrun] at h
  · obtain ⟨hunder, hdepth⟩ := (hbody hrun).under hr
    obtain ⟨i, hback, hspec⟩ := speculating_restore hr hrun hunder
    obtain ⟨-, rfl⟩ := Prod.mk.inj (Option.some.inj (h.symm.trans hspec))
    refine ⟨hback, ?_⟩
    rw [ended, hdepth, Nat.add_sub_cancel]

/-- A syntactic predicate with a tame fragment comes back. -/
lemma synpred_of_tame {fragment : Action (Recognizer S X) Unit} {answer : Except Fault Bool}
    (hr : Ready r.input) (hfragment : Within Tame fragment)
    (h : synpred fragment r = some (answer, r')) :
    Returned r.input r'.input ∧ r'.state.backtracking = r.state.backtracking := by
  obtain ⟨outcome, r₁, hrun⟩ := synpred_eq_some h
  obtain ⟨hunder, hdepth⟩ := (hfragment hrun).under hr
  obtain ⟨i, hback, hsynpred⟩ := synpred_apply hr hrun hunder
  obtain ⟨-, rfl⟩ := Prod.mk.inj (Option.some.inj (h.symm.trans hsynpred))
  refine ⟨hback, ?_⟩
  show r₁.state.backtracking - true.toNat = r.state.backtracking
  rw [hdepth, Nat.add_sub_cancel]

/-- However a tame body's speculation is ended, it pops its own mark and those of the body only. -/
lemma Tame.speculating (raise : Bool) (ending : GuardEnd) {body : Action (Recognizer S X) α}
    (hbody : Within Tame body) : Within Tame (speculating raise ending body) := by
  intro r outcome r' h hr
  rw [speculating_apply] at h
  rcases hrun : body (begun raise r) with _ | ⟨o, r₁⟩
  · simp [hrun] at h
  · rw [hrun, Option.bind_some] at h
    obtain ⟨-, rfl⟩ := Prod.mk.inj (Option.some.inj h)
    obtain ⟨hreach, hopen, hdepth⟩ := hbody hrun (Lawful.mark hr).ready
    have hinput : Roams (Cursor.mark r.input).2 r₁.input := ⟨hreach, fun _ => hopen⟩
    refine Tame.of_roams (hinput.endGuard ending) ?_ hr
    rw [ended, hdepth]
    exact Nat.add_sub_cancel _ _

/-- A syntactic predicate with a tame fragment is tame. -/
lemma Tame.synpred {fragment : Action (Recognizer S X) Unit} (hfragment : Within Tame fragment) :
    Within Tame (synpred fragment) := by
  have hclear : Within Tame (.update cleared : Action (Recognizer S X) Unit) :=
    Within.update fun _ => of_input_eq rfl rfl
  rw [synpred_eq]
  refine (Tame.speculating true .restore ?_).bind fun outcome => Within.ofExcept _
  exact hfragment.attempt.bind fun outcome => hclear.bind fun _ => Within.pure _

end Lookahead.Recognizer
