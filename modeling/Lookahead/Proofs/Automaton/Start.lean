import Lookahead.Proofs.Automaton.Outlook
import Lookahead.Proofs.Automaton.Transparency
import Lookahead.Proofs.Coupling
import Lookahead.Proofs.Stream.Determined

/-!
# Where a prediction starts

A prediction is a walk under a mark (`predict_apply`), and as long as the hooks spare the mark, what
comes of the prediction is what comes of the walk (`predict_of_walk`).  The mark puts the cursor of
a fresh stream on its first unit, so the walk starts on a unit even where the prediction did not.

What a prediction does is settled by the table and by what special states come to
(`predict_of_counterpart`).  Between two steps of the table the walk stays where it is: special
states look at the input from where the cursor is and from the start, and come back
(`Sojourn.settle`, `sojourn_of_operate`).
-/

namespace Lookahead

open Action Cursor
open Cursor.View (Ready spot marks)

variable {S X α : Type} [Cursor S]

namespace Recognizer

/-- The place of the cursor when the walk of a prediction begins, which is under its mark. -/
def startOf (r : Recognizer S X) : Nat := Cursor.index (begun false r).input

/-- The walk of a prediction. -/
def walkOf (hooks : Hooks S X) (a : Automaton) (r : Recognizer S X) :
    Option (Except Fault Nat × Recognizer S X) :=
  walk hooks a r.startOf r.state.options.maxLookahead 0 (begun false r)

lemma predict_apply (hooks : Hooks S X) (a : Automaton) (r : Recognizer S X) :
    predict hooks a r = (walkOf hooks a r).map fun (o, r₁) =>
      concluded false .restore (Cursor.mark r.input).1 o r₁ := by
  rw [predict, speculating_apply]
  exact Option.map_eq_bind.symm

/-! ## Counterparts -/

section

variable {hooks hooks' : Hooks S X} {start : Nat} {a a' : Automaton}

/-- The second automaton has the same table as the first, and its special states come to the same
with the second hooks as those of the first with the first. -/
structure Counterpart (hooks hooks' : Hooks S X) (start : Nat) (a a' : Automaton) : Prop where
  decision_eq : a'.decision = a.decision
  description_eq : a'.description = a.description
  states_eq : a'.states = a.states
  alternatives_eq : a'.alternatives = a.alternatives
  special (i : Nat) : Option.Rel
    (fun special special' => resolve hooks' a' start special' = resolve hooks a start special)
    (a.special i) (a'.special i)

namespace Counterpart

variable (h : Counterpart hooks hooks' start a a')

include h

lemma table : a.SameTable (fun special special' =>
    resolve hooks' a' start special' = resolve hooks a start special) a' :=
  ⟨h.decision_eq, h.description_eq, h.states_eq, h.alternatives_eq, h.special⟩

lemma symm : Counterpart hooks' hooks start a' a :=
  have ⟨hdecision, hdescription, hstates, halternatives, hspecial⟩ :=
    h.table.symm fun _ _ heq => heq.symm
  ⟨hdecision, hdescription, hstates, halternatives, hspecial⟩

lemma alongside : Alongside (fun _ => True) (Same fun _ => True) start hooks hooks' a a' :=
  have hsame {β : Type} (x : Action (Recognizer S X) β) :
      Paired (fun _ => True) (Same fun _ => True) x x :=
    .of_within (R := fun _ _ => True) (fun _ _ _ _ => trivial) fun _ _ _ _ => trivial
  { table := h.table.imp fun _ _ heq => heq ▸ hsame _
    lookahead := hsame _
    consume := hsame _
    fail := fun _ _ => hsame _
    misuse := fun _ => hsame _ }

lemma walk (budget s : Nat) :
    walk hooks' a' start budget s = Recognizer.walk hooks a start budget s :=
  funext fun _ => (h.symm.alongside.walk budget s).eq_of_same (h.alongside.walk budget s) trivial

end Counterpart

lemma predict_of_counterpart (h : ∀ start, Counterpart hooks hooks' start a a') :
    predict hooks' a' = predict hooks a := by
  unfold predict
  simp only [(h _).walk]

end

/-! ## Staying in one place -/

/-- A visit comes out as what was done there. -/
lemma visiting_eq_some {i : Nat} {body : Action (Recognizer S X) α} {r r' : Recognizer S X}
    {o : Except Fault α} :
    visiting i body r = some (o, r') ↔
      ∃ r₁, body { r with input := Cursor.seek r.input i } = some (o, r₁) ∧
        r' = { r₁ with input := Cursor.seek r₁.input (Cursor.index r.input) } := by
  simp only [visiting, bind_apply, index_apply, seek_apply, attempt_apply]
  rcases body { r with input := Cursor.seek r.input i } with _ | ⟨outcome, r₁⟩
  · simp
  · simp only [Option.map_some, ofExcept_apply, Option.some.injEq, Prod.mk.injEq]
    constructor
    · rintro ⟨rfl, rfl⟩
      exact ⟨r₁, ⟨rfl, rfl⟩, rfl⟩
    · rintro ⟨_, ⟨rfl, rfl⟩, rfl⟩
      exact ⟨rfl, rfl⟩

/-- What a walk does between two steps of the table keeps the relation `R`. -/
structure Sojourn (R : Recognizer S X → Recognizer S X → Prop) (start : Nat) (hooks : Hooks S X) :
    Prop where
  lookahead : Within R (lookahead 1)
  fail {α : Type} (kind : FailureKind) (expected : Option TokenSet) :
    Within R (fail kind expected : Action (Recognizer S X) α)
  predicate (id : Nat) : Within R (visiting start (hooks.predicate id))
  synpred (decision n : Nat) : Within R (visiting start (synpred (hooks.speculate decision n)))

namespace Sojourn

variable {R : Recognizer S X → Recognizer S X → Prop} [IsPreorder (Recognizer S X) R] {start : Nat}
  {hooks : Hooks S X} (h : Sojourn R start hooks)

include h

lemma firstOpen (type : TokenType) (edges : List PredicatedEdge) :
    Within R (firstOpen hooks start type edges) := by
  induction edges with
  | nil => exact .pure _
  | cons e rest ih =>
    rw [Recognizer.firstOpen]
    refine .ite (.bind ?_ fun holds => .ite (.pure _) ih) ih
    rw [isOpen]
    split
    · exact h.predicate _
    · exact .pure _

lemma firstParsing (decision : Nat) (tryAll : Bool) (alternatives : List Nat) :
    Within R (firstParsing hooks decision start tryAll alternatives) := by
  induction alternatives with
  | nil => exact .pure _
  | cons n rest ih =>
    rw [Recognizer.firstParsing]
    refine (h.synpred decision n).bind fun parses => .ite (.ite ?_ (.pure _)) ih
    exact ih.discard.bind fun _ => .pure _

lemma resolve (a : Automaton) (special : SpecialState) :
    Within R (resolve hooks a start special) := by
  rw [Recognizer.resolve]
  refine h.lookahead.bind fun type => (h.firstOpen type special.edges).bind fun target => ?_
  split
  · exact .pure _
  · refine .ite (.pure _) (.bind ?_ fun parsed => ?_)
    · rw [simulate]
      refine (Within.read _).bind fun options => (Within.read _).bind fun depth => ?_
      exact .ite (.pure _) (h.firstParsing _ _ _)
    · cases parsed with
      | none => exact .pure _
      | some n => exact .pure _

lemma arrivingAt (a : Automaton) (s : Nat)
    {follow : SpecialState → Action (Recognizer S X) Settled}
    (hfollow : ∀ special, Within R (follow special)) : Within R (arrivingAt a s follow) := by
  rw [Recognizer.arrivingAt]
  refine (Within.ofExcept _).bind fun state => ?_
  split
  · exact .pure _
  · split
    · exact hfollow _
    · exact h.fail _ _

lemma settle (a : Automaton) (hops s : Nat) : Within R (settle hooks a start hops s) := by
  induction hops generalizing s with
  | zero => exact h.arrivingAt a s fun _ => h.fail _ _
  | succ hops ih =>
    refine h.arrivingAt a s fun special => (h.resolve a special).bind fun resolution => ?_
    split
    · exact .pure _
    · exact .ite (h.fail _ _) (ih _)
    · exact h.fail _ _

end Sojourn

variable [View S]

/-- The stream was only operated, unless it was unfit to begin with. -/
def Operated (r r' : Recognizer S X) : Prop := Ready r.input → Reaches r.input r'.input

/-- The cursor is on the unit where it was, unless the stream was unfit to begin with. -/
def Unmoved (r r' : Recognizer S X) : Prop :=
  Ready r.input → Ready r'.input ∧ View.input r'.input = View.input r.input ∧
    Cursor.index r'.input = Cursor.index r.input

instance : IsPreorder (Recognizer S X) Unmoved where
  refl r hr := ⟨hr, rfl, rfl⟩
  trans r r₁ r' h h' hr := by
    obtain ⟨hready, hinput, hindex⟩ := h hr
    obtain ⟨hready', hinput', hindex'⟩ := h' hready
    exact ⟨hready', hinput'.trans hinput, hindex'.trans hindex⟩

end Recognizer

/-- Hooks that do nothing to the stream but operate it, by whatever operations. -/
structure Hooks.Operate [View S] (hooks : Hooks S X) : Prop where
  predicate (id : Nat) : Within Recognizer.Operated (hooks.predicate id)
  speculate (decision n : Nat) : Within Recognizer.Operated (hooks.speculate decision n)

lemma Hooks.Tame.operate [View S] {hooks : Hooks S X} (h : hooks.Tame) : hooks.Operate where
  predicate id := (h.predicate id).mono fun _ _ htame hr => (htame hr).1
  speculate decision n := (h.speculate decision n).mono fun _ _ htame hr => (htame hr).1

namespace Recognizer

variable [View S] [Lawful S] {hooks : Hooks S X} {r r₁ : Recognizer S X}

instance : IsPreorder (Recognizer S X) Operated where
  refl r _ := Reaches.refl r.input
  trans _ _ _ h h' hr := (h hr).trans (h' ((h hr).ready hr).1)

/-- A visit ends where it began. -/
lemma Unmoved.visiting {i : Nat} {body : Action (Recognizer S X) α} (hbody : Within Operated body) :
    Within Unmoved (visiting i body) := by
  intro r o r' hrun hr
  obtain ⟨r₁, hvisit, rfl⟩ := visiting_eq_some.1 hrun
  have hseek : Reaches r.input (Cursor.seek r.input i) := (Step.seek r.input i).reaches
  have hreach := hseek.trans (hbody hvisit (hseek.ready hr).1)
  obtain ⟨hready, hinput⟩ := hreach.ready hr
  obtain ⟨p, hland, hplace⟩ := Lawful.seek (Cursor.index r.input) hready
  refine ⟨hland.ready, hland.input_eq.trans hinput, ?_⟩
  rw [hland.index_eq, hplace (hinput ▸ Lawful.stands hr)]

lemma Unmoved.lookahead (k : Int) :
    Within Unmoved (lookahead k : Action (Recognizer S X) TokenType) := by
  unfold Recognizer.lookahead stepInput
  refine Within.step fun r hr => ?_
  have hland := Lawful.lookahead k hr
  exact ⟨hland.ready, hland.input_eq, by rw [hland.index_eq, Lawful.index_eq]⟩

lemma Unmoved.fail (kind : FailureKind) (expected : Option TokenSet) :
    Within Unmoved (fail kind expected : Action (Recognizer S X) α) := by
  have hsymbol : Within Unmoved (symbol : Action (Recognizer S X) Token) := by
    unfold symbol stepInput
    refine Within.step fun r hr => ?_
    have hland := Lawful.symbol hr
    exact ⟨hland.ready, hland.input_eq, by rw [hland.index_eq, Lawful.index_eq]⟩
  unfold Recognizer.fail giveUp failureHere stepState
  refine (Within.read _).bind fun depth => Within.ite ?_ ?_
  · exact (Within.update fun r hr => ⟨hr, rfl, rfl⟩).bind fun _ => Within.fault _
  · refine (hsymbol.bind fun found => (Within.read _).bind fun index => ?_).bind
      fun f => Within.fault _
    exact Within.step fun r hr => ⟨hr, rfl, rfl⟩

/-- Speculation operates the stream: it marks it, and pops the mark in the end. -/
lemma Operated.speculating (raise : Bool) (ending : GuardEnd) {body : Action (Recognizer S X) α}
    (hbody : Within Operated body) : Within Operated (speculating raise ending body) := by
  intro r o r' hrun hr
  obtain ⟨outcome, r₁, hwork, hend⟩ := speculating_eq_some.1 hrun
  obtain ⟨-, rfl⟩ := Prod.mk.inj hend
  have hmark : Reaches r.input (begun raise r).input := (Step.mark r.input).reaches
  exact (hmark.trans (hbody hwork (Lawful.mark hr).ready)).trans (reaches_endGuard _ _ _)

lemma Operated.synpred {fragment : Action (Recognizer S X) Unit}
    (hfragment : Within Operated fragment) : Within Operated (synpred fragment) := by
  have hclear : Within Operated (.update cleared : Action (Recognizer S X) Unit) :=
    Within.update fun r _ => Reaches.refl r.input
  rw [synpred_eq]
  refine (Operated.speculating true .restore ?_).bind fun outcome => Within.ofExcept _
  exact hfragment.attempt.bind fun outcome => hclear.bind fun _ => Within.pure _

lemma sojourn_of_operate (h : hooks.Operate) (start : Nat) : Sojourn Unmoved start hooks where
  lookahead := Unmoved.lookahead 1
  fail := Unmoved.fail
  predicate id := Unmoved.visiting (h.predicate id)
  synpred decision n := Unmoved.visiting (Operated.synpred (h.speculate decision n))

/-! ## Ending a prediction -/

section

variable [Savable S]

omit [Lawful S] in
lemma ready_begun (hr : Reached r.input) : Ready (begun false r).input := hr.ready_mark

omit [Lawful S] in
/-- A walk that was tame under the mark of the prediction is taken back, and its outcome is that of
the prediction. -/
lemma predict_of_walk {a : Automaton} {o : Except Fault Nat}
    (hwalk : walkOf hooks a r = some (o, r₁)) (hr : Reached r.input)
    (htame : Tame (begun false r) r₁) :
    ∃ i, Cursor.rewind r₁.input (Cursor.mark r.input).1 = .ok i ∧
      predict hooks a r = some (o, ended false i r₁) := by
  obtain ⟨-, hopen, -⟩ := htame (ready_begun hr)
  obtain ⟨i, hi, hrewind⟩ := endGuard_of_isPrefix hopen
  refine ⟨i, hrewind, ?_⟩
  rw [predict_apply, hwalk, Option.map_some]
  simp only [concluded, hi]
  rfl

omit [Lawful S] in
lemma tame_walkOf (htame : hooks.Tame) {a : Automaton} {o : Except Fault Nat}
    (hwalk : walkOf hooks a r = some (o, r₁)) : Tame (begun false r) r₁ := by
  have hself : hooks.AgreeAt r.startOf hooks := fun _ _ => ⟨fun _ => rfl, fun _ _ => rfl⟩
  exact ((surroundings_tame htame hself).walk a _ 0).within hwalk

omit [View S] [Lawful S] [Savable S] in
/-- A prediction that has failed has had its walk fail. -/
lemma walkOf_of_failed {a : Automaton} {f : Failure} {r' : Recognizer S X}
    (h : predict hooks a r = some (.error (.failed f), r')) :
    ∃ r₁, walkOf hooks a r = some (.error (.failed f), r₁) ∧ r'.state = r₁.state := by
  rw [predict_apply] at h
  obtain ⟨⟨o, r₁⟩, hwalk, hend⟩ := Option.map_eq_some_iff.1 h
  obtain ⟨ho, rfl⟩ := Prod.mk.inj hend
  refine ⟨r₁, ?_, rfl⟩
  cases hpop : (Cursor.endGuard r₁.input (Cursor.mark r.input).1 .restore).1 with
  | error cause =>
    rw [hpop] at ho
    cases ho
  | ok _ =>
    rw [hpop] at ho
    obtain rfl : o = .error (.failed f) := ho
    exact hwalk

end

end Recognizer

end Lookahead
