import Lookahead.Proofs.Parser.Course
import Lookahead.Proofs.Recognizer.Ending

/-!
# Parsers that halt

When a parser gives up, the failure still leaves every rule that is in progress, and each of them
does what it does on every way out.  A parser that *halts* leaves no rules any more (`halting`):
from where it gives up, nothing is done but to end the guards.

Both come to the same (`halts_run`).  The stack of rules apart, a parser that has given up is as it
was when it did so, but for what ending the guards does to the input.
-/

namespace Lookahead

open Action Cursor Recognizer

namespace Recognizer

variable {S X α : Type}

/-- Return the fault of `x` as a value, unless the recognizer has given up. -/
def catching (x : Action (Recognizer S X) α) : Action (Recognizer S X) (Except Fault α) := do
  match ← x.attempt, ← readState State.escalated with
  | .error fault, true => .fault fault
  | outcome, _ => return outcome

lemma catching_apply (x : Action (Recognizer S X) α) (r : Recognizer S X) :
    catching x r = (x r).map fun (o, r') =>
      match o, r'.state.escalated with
      | .error fault, true => (.error fault, r')
      | o, _ => (.ok o, r') := by
  simp only [catching, bind_apply, attempt_apply]
  rcases x r with _ | ⟨_ | _, r'⟩
  · rfl
  · simp only [Option.map_some, readState_apply]
    cases r'.state.escalated <;> rfl
  · rfl

/-- Nobody gives up on the way from `r` to `r'`. -/
def Perseveres (r r' : Recognizer S X) : Prop :=
  r.state.escalated = false → r'.state.escalated = false

instance : IsPreorder (Recognizer S X) Perseveres where
  refl _ := id
  trans _ _ _ h h' := h' ∘ h

variable [Cursor S]

lemma concluded_error_ne (raise : Bool) (ending : GuardEnd) (m : Mark) (fault : Fault)
    (r : Recognizer S X) :
    Fault.ofOutcome (concluded raise ending m (.error fault : Except Fault α) r).1 ≠ none := by
  rw [concluded]
  rcases (Cursor.endGuard r.input m ending).1 with _ | _
  · exact Option.some_ne_none _
  · exact Option.some_ne_none _

end Recognizer

namespace Parser

variable {σ : Type} [TokenSource σ] {α β : Type}

/-- Programs may do whatever they like, as long as faults come out and speculations do not become
real parses. -/
def manner : Manner := ⟨True, True, True, True, False, False⟩

/-! ## Rules with another way of catching faults -/

/-- Trace that a rule was left, with its fault or its tree, and hand on what came of it. -/
def noteExit (rule : Rule) (result : Except Fault (Option NodeId)) :
    Action (Parser σ) (Option NodeId) := do
  let tree ← readOwn fun b =>
    match result with
    | .ok (some node) => some (b.tree.render node)
    | _ => none
  note (.exited rule.name (← index) (Fault.ofOutcome result) tree)
  .ofExcept result

section

variable (attempt : ∀ {α : Type}, Action (Parser σ) α → Action (Parser σ) (Except Fault α))

/-- `withRoot`, with faults caught by `attempt`. -/
def withRootBy (root : Option NodeId) (body : Action (Parser σ) α) :
    Action (Parser σ) (Option NodeId) := do
  let outer ← currentRoot
  setRoot root
  let outcome ← attempt body
  let inner ← currentRoot
  setRoot outer
  discard (Action.ofExcept outcome)
  return inner

/-- `exitRule`, with faults caught by `attempt`. -/
def exitRuleBy (start : RuleStart) (outcome : Except Fault (Option NodeId)) :
    Action (Parser σ) (Option NodeId) := do
  let result ← attempt (handling (recoverInRule start) outcome (← readState recovers))
  leave start result

/-- `call`, with faults caught by `attempt` once the rule was entered. -/
def callBy (rule : Rule) (follow : TokenSet) (body : Action (Parser σ) Unit) :
    Action (Parser σ) (Option NodeId) := do
  let entry ← (enterRule rule follow).attempt
  note (.entered rule.name (← index) (Fault.ofOutcome entry))
  match ← .ofExcept entry with
  | none => return none
  | some start =>
    let outcome ← attempt do finishTree (← withRootBy attempt (← beginTree) body) start
    let result ← attempt (exitRuleBy attempt start outcome)
    noteExit rule result

/-- The instructions of parser grammars, with faults caught by `attempt`. -/
def dialectBy : Dialect (TokenStream σ) TreeBuilder ParserInstruction where
  perform g run
    | .call rule follow => do
      let node ← callBy attempt (g.rule rule) follow (run (g.body rule))
      addSubtree (← currentRoot) node
    | instruction => perform g run instruction
  apart body := discard (withRootBy attempt none body)

end

/-- Parsers catch all faults. -/
lemma dialectBy_attempt : dialectBy (σ := σ) Action.attempt = dialect := by
  have hexit : exitRuleBy (σ := σ) Action.attempt = exitRule := by
    funext start outcome
    exact (exitRule_eq start outcome).symm
  have hcall : callBy (σ := σ) Action.attempt = call := by
    funext rule follow body
    rw [callBy, hexit]
    rfl
  have hperform : (dialectBy (σ := σ) Action.attempt).perform = perform := by
    funext g run instruction
    cases instruction with
    | call rule follow => rw [dialectBy, hcall]; rfl
    | token | child | root | set | any => rfl
  exact congrArg (fun perform => Dialect.mk perform _) hperform

/-- The instructions of a parser that does nothing more in its rules when it has given up. -/
def halting : Dialect (TokenStream σ) TreeBuilder ParserInstruction := dialectBy catching

/-- The parser `s` has stopped, where `r` went on to leave rules. That makes no difference to the
input, the trees and the reports. -/
structure Stopped (r s : Parser σ) : Prop where
  input_eq : s.input = r.input
  tree_eq : s.own.tree = r.own.tree
  state_eq : { s.state with frames := r.state.frames } = r.state

variable {r r₁ r' s s' : Parser σ} {e : Option Fault}

omit [TokenSource σ] in
lemma Stopped.refl (r : Parser σ) : Stopped r r := ⟨rfl, rfl, rfl⟩

omit [TokenSource σ] in
lemma Stopped.trans (h : Stopped r' r) (h' : Stopped r s) : Stopped r' s where
  input_eq := h'.input_eq.trans h.input_eq
  tree_eq := h'.tree_eq.trans h.tree_eq
  state_eq := by
    rw [← h.state_eq, ← h'.state_eq]

/-- Two parsers are one, or they have given up for the fault `e`, and the second one has stopped. -/
def Halted : Fault.Relation (Parser σ) := fun e r s =>
  r.state.escalated = false ∧ s = r ∨
    e ≠ none ∧ r.state.escalated = true ∧ r.state.backtracking = 0 ∧ Stopped r s

/-- `y` comes to the same as `x`, and stops where `x` gives up. -/
abbrev Halts (x y : Action (Parser σ) α) : Prop := Paired (fun _ => True) Halted x y

variable {x y : Action (Parser σ) α} {o : Except Fault α}

namespace Halts

omit [TokenSource σ]

lemma of_run (h : ∀ ⦃r : Parser σ⦄ ⦃o : Except Fault α⦄ ⦃r' : Parser σ⦄,
    r.state.escalated = false → x r = some (o, r') →
      ∃ s', y r = some (o, s') ∧ Halted (Fault.ofOutcome o) r' s') : Halts x y := by
  refine ⟨fun _ _ _ _ _ => trivial, ?_⟩
  rintro r o r' hrun - s (⟨hopen, rfl⟩ | ⟨hnone, -⟩)
  · exact h hopen hrun
  · exact absurd rfl hnone

lemma run (h : Halts x y) (hopen : r.state.escalated = false) (hrun : x r = some (o, r')) :
    ∃ s', y r = some (o, s') ∧ Halted (Fault.ofOutcome o) r' s' :=
  h.follows hrun trivial r (.inl ⟨hopen, rfl⟩)

/-- What does not give up needs no halting. -/
lemma of_perseveres (hx : Within Perseveres x) : Halts x x :=
  of_run fun _ _ r' hopen hrun => ⟨r', hrun, .inl ⟨hx hrun hopen, rfl⟩⟩

/-- A parser that has given up is out of speculation, and a failure comes out. -/
lemma of_told (hx : Told manner x) : Halts x x := by
  refine of_run fun r o r' hopen hrun => ⟨r', hrun, ?_⟩
  obtain ⟨ms, hcourse, -⟩ := hx hrun
  rcases hcourse.ends (Manner.keeps_true manner) id id hopen with hend | ⟨hzero, c, -, hend⟩
  · exact .inl ⟨hend.escalated_eq, rfl⟩
  · exact .inr ⟨hend.ne_none, hend.escalated_eq, hzero, .refl r'⟩

end Halts

/-! ## Speculation -/

/-- In a speculation, there is no difference between `x` and `y`, and nobody gives up. -/
def Agree (x y : Action (Parser σ) α) : Prop :=
  ∀ ⦃r : Parser σ⦄ ⦃o : Except Fault α⦄ ⦃r' : Parser σ⦄, 0 < r.state.backtracking →
    r.state.escalated = false → x r = some (o, r') → y r = some (o, r') ∧ r'.state.escalated = false

omit [TokenSource σ] in
lemma Halts.agree (h : Halts x y) (hfloat : Within Floats x) : Agree x y := by
  intro r o r' hdepth hopen hrun
  obtain ⟨s', hrun', ⟨hopen', rfl⟩ | ⟨-, -, hzero, -⟩⟩ := h.run hopen hrun
  · exact ⟨hrun', hopen'⟩
  · exact absurd hzero (Nat.ne_of_gt (hfloat hrun hdepth))

namespace Agree

lemma speculating (h : Agree x y) (ending : Cursor.GuardEnd) :
    Halts (speculating true ending x) (speculating true ending y) := by
  refine .of_run fun r o r' hopen hrun => ?_
  obtain ⟨outcome, r₁, hbody, hend⟩ := speculating_eq_some.1 hrun
  have hbegun : (begun true r).state.escalated = false := hopen
  obtain ⟨hbody', hopen₁⟩ := h (Nat.succ_pos _) hbegun hbody
  obtain ⟨rfl, rfl⟩ := Prod.mk.inj hend
  exact ⟨_, speculating_eq_some.2 ⟨outcome, r₁, hbody', rfl⟩, .inl ⟨hopen₁, rfl⟩⟩

lemma synpred {x y : Action (Parser σ) Unit} (h : Agree x y) :
    Halts (synpred x) (synpred y) := by
  rw [synpred_eq, synpred_eq]
  refine Paired.bind (speculating (fun r o r' hdepth hopen hrun => ?_) .restore) fun outcome =>
    Halts.of_perseveres (Within.ofExcept (answer outcome))
  obtain ⟨outcome, r₁, hbody, hafter⟩ := attempt_bind_eq_some.1 hrun
  obtain ⟨rfl, rfl⟩ := Prod.mk.inj (Option.some.inj hafter)
  obtain ⟨hbody', hopen₁⟩ := h hdepth hopen hbody
  exact ⟨attempt_bind_eq_some.2 ⟨outcome, r₁, hbody', rfl⟩, hopen₁⟩

end Agree

/-- A guard that does not raise the depth is ended properly by both. -/
lemma halts_speculating (h : Halts x y) {raise : Bool} (hfloat : raise = true → Within Floats x)
    (ending : Cursor.GuardEnd) :
    Halts (speculating raise ending x) (speculating raise ending y) := by
  cases raise with
  | true => exact (h.agree (hfloat rfl)).speculating ending
  | false =>
    refine .of_run fun r o r' hopen hrun => ?_
    obtain ⟨outcome, r₁, hbody, hend⟩ := speculating_eq_some.1 hrun
    have hbegun : (begun false r).state.escalated = false := hopen
    obtain ⟨s₁, hbody', hhalted⟩ := h.run hbegun hbody
    obtain ⟨rfl, rfl⟩ := Prod.mk.inj hend
    rcases hhalted with ⟨hopen₁, rfl⟩ | ⟨hfault, hover, hzero, hstopped⟩
    · exact ⟨_, speculating_eq_some.2 ⟨outcome, s₁, hbody', rfl⟩, .inl ⟨hopen₁, rfl⟩⟩
    · obtain ⟨fault, rfl⟩ : ∃ fault, outcome = .error fault := by
        rcases outcome with fault | _
        · exact ⟨fault, rfl⟩
        · exact absurd rfl hfault
      let m : Mark := (Cursor.mark r.input).1
      refine ⟨(concluded false ending m (.error fault : Except Fault α) s₁).2,
        speculating_eq_some.2 ⟨_, s₁, hbody', Prod.ext ?_ rfl⟩, .inr ⟨?_, hover, hzero, ?_⟩⟩
      · simp only [concluded, hstopped.input_eq]
      · exact concluded_error_ne false ending m fault r₁
      · refine ⟨?_, hstopped.tree_eq, hstopped.state_eq⟩
        show (Cursor.endGuard s₁.input m ending).2 = (Cursor.endGuard r₁.input m ending).2
        rw [hstopped.input_eq]

/-- A visit of another place goes back in any case. -/
lemma halts_visiting (h : Halts x y) (i : Nat) : Halts (visiting i x) (visiting i y) := by
  refine .of_run fun r o r' hopen hrun => ?_
  obtain ⟨outcome, r₁, hbody, hafter⟩ := attempt_bind_eq_some.1 hrun
  obtain ⟨rfl, rfl⟩ := Prod.mk.inj (Option.some.inj hafter)
  have hseek : ({ r with input := Cursor.seek r.input i } : Parser σ).state.escalated = false :=
    hopen
  obtain ⟨s₁, hbody', hend⟩ := h.run hseek hbody
  refine ⟨_, attempt_bind_eq_some.2 ⟨outcome, s₁, hbody', rfl⟩, ?_⟩
  rcases hend with ⟨hopen₁, rfl⟩ | ⟨hfault, hover, hzero, hstopped⟩
  · exact .inl ⟨hopen₁, rfl⟩
  · refine .inr ⟨hfault, hover, hzero, ?_, hstopped.tree_eq, hstopped.state_eq⟩
    exact congrArg (Cursor.seek · _) hstopped.input_eq

/-! ## Predictions -/

section Predictions

variable {hooks hooks' : Hooks (TokenStream σ) TreeBuilder}
  (hpredicate : ∀ id, Halts (hooks.predicate id) (hooks'.predicate id))
  (hspeculate : ∀ decision n, Agree (hooks.speculate decision n) (hooks'.speculate decision n))

include hspeculate in
lemma halts_simulate (a : Automaton) (start : Nat) (alternatives : List Nat) :
    Halts (simulate hooks a start alternatives) (simulate hooks' a start alternatives) := by
  refine .bind (Halts.of_told (Told.read _)) fun options =>
    .bind (Halts.of_told (Told.read _)) fun depth => .ite (.pure _) ?_
  exact firstParsing_paired _ _ (fun n => halts_visiting (hspeculate _ n).synpred start) _

include hpredicate hspeculate

lemma halting_partners (start : Nat) : Partners (fun _ => True) Halted start hooks hooks' where
  lookahead := Halts.of_told (Told.lookahead 1)
  consume := Halts.of_told Told.consume
  fail kind expected := Halts.of_told (Told.fail kind expected)
  misuse cause := Halts.of_told (Told.misuse cause)
  predicate id := halts_visiting (hpredicate id) start
  simulate a alternatives := halts_simulate hspeculate a start alternatives

lemma halts_predict (a : Automaton) : Halts (predict hooks a) (predict hooks' a) := by
  unfold Recognizer.predict
  refine halts_speculating ?_ (fun h => absurd h Bool.false_ne_true) .restore
  refine .bind (Halts.of_told Told.index) fun start =>
    .bind (Halts.of_told (Told.read _)) fun options => ?_
  exact (halting_partners hpredicate hspeculate start).walk a _ 0

end Predictions

/-! ## Catching -/

/-- All that `f` does about the fault of a parser that has given up is to hand it on. -/
def Cleans (f : Except Fault α → Action (Parser σ) β) : Prop :=
  ∀ ⦃fault : Fault⦄ ⦃r : Parser σ⦄ ⦃o : Except Fault β⦄ ⦃r' : Parser σ⦄,
    r.state.escalated = true → r.state.backtracking = 0 → f (.error fault) r = some (o, r') →
      o = .error fault ∧ Stopped r' r

section Catching

omit [TokenSource σ]

variable {f g : Except Fault α → Action (Parser σ) β}

/-- Going on from what became of `x`, and from what became of `y`, unless that one has stopped. -/
lemma catching_eq_some (hclean : Cleans f) (hfg : ∀ o, Halts (f o) (g o)) {o' : Except Fault β}
    (hy : y r = some (o, s)) (hhalted : Halted (Fault.ofOutcome o) r₁ s)
    (hrun : f o r₁ = some (o', r')) :
    ∃ s', (catching y >>= g) r = some (o', s') ∧ Halted (Fault.ofOutcome o') r' s' := by
  rcases hhalted with ⟨hopen, rfl⟩ | ⟨hfault, hover, hzero, hstopped⟩
  · have hcaught : catching y r = some (.ok o, s) := by
      cases o <;> simp only [catching_apply, hy, Option.map_some, hopen]
    obtain ⟨s', hrun', hend⟩ := (hfg o).run hopen hrun
    exact ⟨s', bind_eq_some.2 (.inl ⟨o, s, hcaught, hrun'⟩), hend⟩
  · rcases o with fault | _
    · have hover' : s.state.escalated = true := by
        rw [← hover, ← hstopped.state_eq]
      have hcaught : catching y r = some (.error fault, s) := by
        simp only [catching_apply, hy, Option.map_some, hover']
      obtain ⟨rfl, hclean'⟩ := hclean hover hzero hrun
      refine ⟨s, bind_eq_some.2 (.inr ⟨fault, hcaught, rfl⟩), .inr ⟨hfault, ?_, ?_, ?_⟩⟩
      · rw [← hclean'.state_eq, ← hover]
      · rw [← hclean'.state_eq, ← hzero]
      · exact hclean'.trans hstopped
    · exact absurd rfl hfault

/-- A parser that halts does not go on from where it has given up. -/
lemma halts_catching (h : Halts x y) (hclean : Cleans f) (hfg : ∀ o, Halts (f o) (g o)) :
    Halts (x.attempt >>= f) (catching y >>= g) := by
  refine .of_run fun r o' r' hopen hrun => ?_
  obtain ⟨o, r₁, hx, hf⟩ := attempt_bind_eq_some.1 hrun
  obtain ⟨s, hy, hhalted⟩ := h.run hopen hx
  exact catching_eq_some hclean hfg hy hhalted hf

end Catching

/-! ## Rules -/

omit [TokenSource σ] in
lemma halts_withRoot (root : Option NodeId) (h : Halts x y) :
    Halts (withRoot root x) (withRootBy catching root y) := by
  refine .bind (Halts.of_told (Told.read _)) fun outer =>
    .bind (Halts.of_told (told_setRoot root)) fun _ => ?_
  refine halts_catching h (fun fault r o r' _ _ hrun => ?_) fun outcome => ?_
  · obtain ⟨rfl, rfl⟩ := Prod.mk.inj (Option.some.inj hrun)
    exact ⟨rfl, rfl, rfl, rfl⟩
  · refine Halts.of_perseveres ((Within.read _).bind fun inner => ?_)
    exact (Within.update fun _ => id).bind fun _ =>
      (Within.ofExcept outcome).discard.bind fun _ => Within.pure inner

/-- Once a parser has given up, its rules are only left. -/
lemma exitRule_of_escalated (start : RuleStart) (fault : Fault) (hover : r.state.escalated = true)
    (hzero : r.state.backtracking = 0) :
    exitRule start (.error fault) r =
      some (.error fault, { r with state := r.state.popFrame }) := by
  have hhandled : handling (recoverInRule start) (.error fault) (recovers r.state) r =
      some (.error fault, r) := by
    rw [recovers, hover, Bool.not_true, Bool.and_false]
    cases fault <;> rfl
  rw [exitRule_eq, bind_apply, readState_apply]
  exact attempt_bind_eq_some.2 ⟨_, r, hhandled,
    bind_eq_some.2 (.inl ⟨(), r, record_of_depth hzero start _, rfl⟩)⟩

lemma perseveres_leave (start : RuleStart) (result : Except Fault (Option NodeId)) :
    Within Perseveres (leave start result : Action (Parser σ) (Option NodeId)) := by
  have hrecord : Within Perseveres (record start result : Action (Parser σ) Unit) :=
    (Told.idle_record start result).mono fun _ _ h hopen => h.resembles.escalated_eq.trans hopen
  exact hrecord.bind fun _ => (Within.update fun _ => id).bind fun _ => Within.ofExcept result

lemma halts_exitRule (start : RuleStart) (outcome : Except Fault (Option NodeId)) :
    Halts (exitRule start outcome : Action (Parser σ) _) (exitRuleBy catching start outcome) := by
  refine .of_run fun r o r' hopen hrun => ?_
  rw [exitRule_eq, bind_apply, readState_apply] at hrun
  rw [exitRuleBy, bind_apply, readState_apply]
  obtain ⟨result, r₁, hhandled, hrest⟩ := attempt_bind_eq_some.1 hrun
  obtain ⟨⟨ms, hleaving⟩, -⟩ := leaving_handling (show manner.mends from trivial) hhandled
  have hhalted : Halted (Fault.ofOutcome result) r₁ r₁ := by
    rcases hleaving.open_or_over hopen with hopen₁ | ⟨hfault, hover, hzero⟩
    · exact .inl ⟨hopen₁, rfl⟩
    · exact .inr ⟨hfault, hover, hzero, .refl r₁⟩
  have hclean : Cleans (leave start :
      Except Fault (Option NodeId) → Action (Parser σ) (Option NodeId)) := by
    intro fault r o r' hover hzero hrun
    rw [leave, bind_apply, record_of_depth hzero] at hrun
    obtain ⟨rfl, rfl⟩ := Prod.mk.inj (Option.some.inj hrun)
    exact ⟨rfl, rfl, rfl, rfl⟩
  exact catching_eq_some hclean (fun result => Halts.of_perseveres (perseveres_leave start result))
    hhandled hhalted hrest

lemma halts_noteExit (rule : Rule) {x y : Action (Parser σ) (Option NodeId)} (h : Halts x y) :
    Halts (x.attempt >>= noteExit rule) (catching y >>= noteExit rule) := by
  refine halts_catching h (fun fault r o r' _ _ hrun => ?_) fun result => ?_
  · obtain ⟨rfl, rfl⟩ := Prod.mk.inj (Option.some.inj hrun)
    exact ⟨rfl, rfl, rfl, rfl⟩
  · refine Halts.of_perseveres ((Within.read _).bind fun tree => (Within.read _).bind fun i => ?_)
    exact (Within.update fun _ => id).bind fun _ => Within.ofExcept result

lemma halts_call (rule : Rule) (follow : TokenSet) {body body' : Action (Parser σ) Unit}
    (h : Halts body body') : Halts (call rule follow body) (callBy catching rule follow body') := by
  have henter :
      Within Perseveres (enterRule rule follow : Action (Parser σ) (Option RuleStart)) := by
    intro r o r' hrun hopen
    obtain ⟨-, ⟨-, -, hstate⟩ | ⟨-, -, hwork⟩ | ⟨start, frame, -, -, hstate⟩⟩ :=
      enters_enterRule hrun
    · rw [hstate, hopen]
    · exact hwork.escalated_eq.trans hopen
    · rw [hstate]
      exact hopen
  refine .bind (Halts.of_perseveres henter.attempt) fun entry =>
    .bind (Halts.of_told Told.index) fun i =>
    .bind (Halts.of_perseveres (Within.update fun _ => id)) fun _ =>
    .bind (Halts.of_perseveres (Within.ofExcept entry)) fun entered => ?_
  cases entered with
  | none => exact .pure none
  | some start =>
    have hbody : Halts (runBody start body)
        (do finishTree (← withRootBy catching (← beginTree) body') start) :=
      .bind (Halts.of_told told_beginTree) fun root => .bind (halts_withRoot root h) fun root =>
        Halts.of_told (told_finishTree root start)
    refine halts_catching hbody (fun fault r o r' hover hzero hrun => ?_) fun outcome => ?_
    · obtain ⟨result, r₁, hexit, hrest⟩ := attempt_bind_eq_some.1 hrun
      rw [exitRule_of_escalated start fault hover hzero] at hexit
      obtain ⟨rfl, rfl⟩ := Prod.mk.inj (Option.some.inj hexit)
      obtain ⟨rfl, rfl⟩ := Prod.mk.inj (Option.some.inj hrest)
      exact ⟨rfl, rfl, rfl, rfl⟩
    · exact halts_noteExit rule (halts_exitRule start outcome)

/-! ## Programs -/

/-- A block that stays a speculation when it is run in one, whatever it does. -/
def Speculative (σ : Type) [TokenSource σ] (g : Grammar ParserInstruction)
    (b : Block ParserInstruction) : Prop :=
  ∀ fuel, Within Floats (run g fuel b : Action (Parser σ) Unit)

/-- A statement that hands on faults, and does not end a speculation as a real parse. -/
def HandsOn (σ : Type) [TokenSource σ] (g : Grammar ParserInstruction)
    (s : Statement ParserInstruction) : Prop :=
  ¬ s.Catches ∧ ∀ b, s.Tries b → Speculative σ g b

/-- A grammar all of whose statements hand on faults, and whose speculations stay such. -/
structure Dutiful (σ : Type) [TokenSource σ] (g : Grammar ParserInstruction) : Prop where
  statements : g.All (HandsOn σ g)
  simulations {decision alternative : Nat} {b : Block ParserInstruction} :
    g.simulation? decision alternative = some b → Speculative σ g b

variable {g : Grammar ParserInstruction}

section

variable (hg : g.All (¬ ·.SetsDepth))

include hg

/-- The depth of backtracking need only be watched where it is set. -/
lemma speculative_of_not_setsDepth {b : Block ParserInstruction}
    (hb : Block.All (¬ ·.SetsDepth) b) : Speculative σ g b := by
  let k : Manner := ⟨True, True, False, True, True, False⟩
  intro fuel
  have htelling : Grammar.Telling (S := TokenStream σ) k dialect g (¬ ·.SetsDepth) :=
    Parser.telling trivial hg (fun _ _ _ => trivial) (fun _ h => h) (fun _ _ _ => trivial)
      (fun _ _ _ => trivial) fun _ hrun => .inr (hrun.floats id)
  exact (Grammar.told_run htelling hg fuel hb).floats id

lemma handsOn_of_not_setsDepth {s : Statement ParserInstruction}
    (hs : s.All fun s => ¬ s.Catches ∧ ¬ s.SetsDepth) : HandsOn σ g s := by
  refine ⟨hs.here.1, fun b htries => speculative_of_not_setsDepth hg ?_⟩
  have hmem : b ∈ s.blocks := by
    cases s <;> simp_all [Statement.Tries, Statement.blocks]
  exact (hs.block hmem).mono fun _ h => h.2

end

lemma dutiful_of_not_setsDepth (hg : g.All fun s => ¬ s.Catches ∧ ¬ s.SetsDepth) :
    Dutiful σ g where
  statements := hg.imp fun _ => handsOn_of_not_setsDepth (hg.mono fun _ h => h.2)
  simulations hb :=
    speculative_of_not_setsDepth (hg.mono fun _ h => h.2) ((hg.simulation hb).mono fun _ h => h.2)

namespace Dutiful

variable (hg : Dutiful σ g)

include hg

lemma telling : Grammar.Telling (S := TokenStream σ) manner dialect g (HandsOn σ g) := by
  refine Parser.telling trivial hg.statements (fun _ _ _ => trivial) (fun _ _ _ => trivial)
    (fun _ _ _ => trivial) (fun s h hs => h.1 hs) fun {fuel b} htried _ => ?_
  rcases htried with ⟨s, hs, htries⟩ | ⟨decision, n, hb⟩
  · exact .inr (hs.2 b htries fuel)
  · exact .inr (hg.simulations hb fuel)

lemma told_run (fuel : Nat) {b : Block ParserInstruction} (hb : Block.All (HandsOn σ g) b) :
    Told manner (run g fuel b : Action (Parser σ) Unit) :=
  Grammar.told_run hg.telling hg.statements fuel hb

variable {fuel : Nat} {run' : Block ParserInstruction → Action (Parser σ) Unit}
  (h : ∀ b, Block.All (HandsOn σ g) b → Halts (run g fuel b) (run' b))

include h

lemma halts_perform (instruction : ParserInstruction) :
    Halts (perform g (run g fuel) instruction) (halting.perform g run' instruction) := by
  have htold : Told manner (perform g (run g fuel) instruction : Action (Parser σ) Unit) :=
    told_perform trivial fun rule => hg.told_run fuel (hg.statements.body rule)
  cases instruction with
  | call rule follow =>
    refine .bind (halts_call _ follow (h _ (hg.statements.body rule))) fun node => ?_
    exact .bind (Halts.of_told (Told.read _)) fun root => Halts.of_told (told_addSubtree root node)
  | token | child | root | set | any => exact Halts.of_told htold

omit hg in
lemma halts_apart {b : Block ParserInstruction} (hb : Block.All (HandsOn σ g) b) :
    Halts (dialect.apart (run g fuel b)) (halting.apart (run' b)) :=
  (halts_withRoot none (h b hb)).discard

lemma halts_evaluate (id : Nat) :
    Halts (Grammar.evaluate dialect g (run g fuel) id) (Grammar.evaluate halting g run' id) := by
  unfold Grammar.evaluate
  split
  · exact Halts.of_told (Told.misuse _)
  · rename_i predicate hpredicate
    refine .bind (Halts.of_told Told.index) fun index => ?_
    have hdone (value : Bool) : Told manner (do
        note (.evaluated id index value)
        return value : Action (Parser σ) Bool) :=
      (Told.note (show Event.Aside (.evaluated id index value) from trivial)).bind fun _ =>
        Told.pure _
    cases predicate with
    | run block =>
      exact .bind (halts_apart h (hg.statements.predicate hpredicate)) fun _ =>
        Halts.of_told (hdone true)
    | constant value => exact Halts.of_told (hdone value)
    | text texts => exact Halts.of_told (Told.symbol.bind fun token => hdone _)
    | lookahead test =>
      exact Halts.of_told (((Told.lookahead _).bind fun _ => Told.pure _).bind hdone)
    | consume value => exact Halts.of_told (Told.consume.bind fun _ => hdone value)
    | depth least => exact Halts.of_told ((Told.read _).bind hdone)

lemma agree_speculate (decision n : Nat) :
    Agree (Grammar.speculate dialect g (run g fuel) decision n)
      (Grammar.speculate halting g run' decision n) := by
  have hstays (b : Block ParserInstruction) (htried : g.Tries (HandsOn σ g) b)
      (hb : Block.All (HandsOn σ g) b) :
      manner.sinks ∨ Within Floats (run g fuel b : Action (Parser σ) Unit) :=
    hg.telling.floats htried (hg.told_run fuel hb)
  have hfloat := hg.telling.speculate_floats hg.statements hstays decision n
  refine Halts.agree ?_ (hfloat.resolve_left id)
  unfold Grammar.speculate
  refine .bind (Halts.of_told Told.index) fun i => .bind (Halts.of_told (Told.read _)) fun depth =>
    .bind (Halts.of_told (Told.note ?_)) fun _ => ?_
  · exact (trivial : Event.Aside (.speculated decision n i depth))
  split
  · rename_i block hblock
    exact halts_apart h (hg.statements.simulation hblock)
  · exact Halts.of_told (Told.misuse _)

lemma concord :
    Grammar.Concord (fun _ => True) Halted dialect halting g (HandsOn σ g) (run g fuel) run' fuel
      fuel where
  block hb := h _ hb
  lookahead k := Halts.of_told (Told.lookahead k)
  fail kind expected := Halts.of_told (Told.fail kind expected)
  index := Halts.of_told Told.index
  note _ he := Halts.of_told (Told.note he.aside)
  evaluate id := hg.halts_evaluate h id
  predict a := halts_predict (hg.halts_evaluate h) (hg.agree_speculate h) a
  synpred hs hb := by
    refine ((halts_apart h hb).agree ?_).synpred
    exact hg.telling.apart_floats (hs.2 _ rfl fuel)
  speculating hs hb := halts_speculating (h _ hb) (fun hraise => hs.2 _ ⟨hraise, rfl⟩ fuel) _
  attempt hs _ := absurd trivial hs.1
  plain {s} hs hplain := by
    -- a plain statement does not depend on the kind of recognizer
    have hsame : Grammar.execute halting g run' fuel s =
        Grammar.execute dialect g (run g fuel) fuel s := by
      cases s <;> first | rfl | exact hplain.elim
    rw [hsame]
    exact Halts.of_told (hg.telling.plain hs hplain)
  perform _ := hg.halts_perform h _

end Dutiful

/-- **It makes no difference to halt** where the parser gives up, instead of leaving the rules in
progress. The statements hand on their faults, and no speculation ends at depth 0. -/
theorem halts_run (hg : Dutiful σ g) (fuel : Nat) {block : Block ParserInstruction}
    (hblock : Block.All (HandsOn σ g) block) :
    Halts (run g fuel block : Action (Parser σ) Unit) (g.run halting fuel block) := by
  refine Grammar.run_of_concord (I := Unit) (C := fun _ fuel fuel' => fuel = fuel')
    (Q := fun _ => Halted) ?_ (Nat.le_refl fuel) (i := ()) rfl hblock
  rintro fuel _ - hrun - ⟨⟩
  exact hg.concord fun b hb => hrun () b rfl hb

end Parser

end Lookahead
