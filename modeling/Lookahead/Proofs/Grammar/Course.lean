import Lookahead.Parser.Basic
import Lookahead.Proofs.Grammar.Coupling
import Lookahead.Proofs.Recognizer.Course

/-!
# Runs of programs are courses

`Told k x` says that whatever comes of `x`, a course of the manner `k` leads from the state before
to the state after it, and that the events of the course are those that were added to the trace.
Reading and moving the input is `Idle`, and every statement of a program is told if the
instructions of its kind of recognizer are (`told_run`).

The induction over programs is the one for two runs (`run_of_concord`): a course from a fixed
recognizer is a relation between a run and itself.
-/

namespace Lookahead

open Action Recognizer

variable {S X ι α β : Type}

/-- A statement that pushes or pops a frame by hand, apart from the calls of rules. -/
def Statement.Reframes : Statement ι → Prop
  | .pushFrame _ _ | .popFrame => True
  | _ => False

/-- A statement that sets the depth of backtracking by hand, apart from speculations. -/
def Statement.SetsDepth : Statement ι → Prop
  | .setBacktracking _ => True
  | _ => False

/-- A statement that goes on whatever comes of its block, so that faults end there. -/
def Statement.Catches : Statement ι → Prop
  | .attempt _ => True
  | _ => False

/-- A guard that raises the depth of backtracking. -/
def Statement.Raises : Statement ι → Prop
  | .speculating raise _ _ => raise = true
  | _ => False

/-- The block is run speculatively by the statement, with the depth of backtracking raised. -/
def Statement.Tries (b : Block ι) : Statement ι → Prop
  | .synpred fragment _ _ => fragment = b
  | .speculating raise _ body => raise = true ∧ body = b
  | _ => False

/-- The block is run speculatively by a statement with `p`, or is the speculative parse of an
alternative. -/
def Grammar.Tries (g : Grammar ι) (p : Statement ι → Prop) (b : Block ι) : Prop :=
  (∃ s, p s ∧ s.Tries b) ∨ ∃ decision alternative, g.simulation? decision alternative = some b

/-- An event that says nothing about the state of the recognizer. Only looks and the entries and
exits of rules say something about it. -/
def Event.Aside : Event → Prop
  | .observed _ | .entered _ _ _ | .exited _ _ _ _ => False
  | _ => True

lemma Event.Aside.fits {event : Event} (h : event.Aside) (s : State) : event.Fits s := by
  cases event <;> first | exact trivial | exact h.elim

lemma Event.Decision.aside {event : Event} (h : event.Decision) : event.Aside := by
  cases event <;> first | exact trivial | exact h.elim

/-- An outcome that a rule does nothing about is handed on. -/
lemma Leaving.of_ofExcept {k : Manner} {r r' : Recognizer S X} {outcome o : Except Fault α}
    (hhand : ∀ f, Fault.ofOutcome outcome = some (.failed f) →
      0 < r.state.backtracking ∨ r.state.escalated = true)
    (hrun : Action.ofExcept outcome r = some (o, r')) :
    (∃ ms, Leaving k (Fault.ofOutcome outcome) r.state ms (Fault.ofOutcome o) r'.state) ∧
      r'.trace = r.trace := by
  obtain ⟨rfl, rfl⟩ := Prod.mk.inj (Option.some.inj hrun)
  exact ⟨⟨[], .handOn hhand (.refl _)⟩, rfl⟩

namespace Recognizer

variable {k : Manner} {e : Option Fault} {r r₁ r' : Recognizer S X}

/-- Nothing is traced, and nothing is done to the state that a deed would be about. -/
structure Idle (r r' : Recognizer S X) : Prop where
  trace_eq : r'.trace = r.trace
  resembles : r.state.Resembles r'.state

instance : IsPreorder (Recognizer S X) Idle where
  refl r := ⟨rfl, .refl r.state⟩
  trans _ _ _ h h' := ⟨h'.trace_eq.trans h.trace_eq, h.resembles.trans h'.resembles⟩

/-- A speculation does not become a real parse: the depth of backtracking does not fall to 0. -/
def Floats (r r' : Recognizer S X) : Prop := 0 < r.state.backtracking → 0 < r'.state.backtracking

instance : IsPreorder (Recognizer S X) Floats where
  refl _ := id
  trans _ _ _ h h' := h' ∘ h

/-- A course leads from one recognizer to the other and comes out with the fault `e`; what was added
to the trace are its events. -/
def Tells (k : Manner) (e : Option Fault) (r r' : Recognizer S X) : Prop :=
  ∃ ms, Course k e r.state ms r'.state ∧ r'.trace.toList = r.trace.toList ++ eventsOf ms

/-- Whatever comes of `x`, a course tells it. -/
def Told (k : Manner) (x : Action (Recognizer S X) α) : Prop :=
  ∀ ⦃r : Recognizer S X⦄ ⦃o : Except Fault α⦄ ⦃r' : Recognizer S X⦄, x r = some (o, r') →
    Tells k (Fault.ofOutcome o) r r'

namespace Tells

/-- A course without moments adds nothing to the trace. -/
lemma of_course (h : Course k e r.state [] r'.state) (htrace : r'.trace = r.trace) :
    Tells k e r r' :=
  ⟨[], h, by rw [htrace, eventsOf_nil, List.append_nil]⟩

lemma of_idle (h : Idle r r') : Tells k none r r' := of_course (.work h.resembles) h.trace_eq

lemma trans (h : Tells k none r r₁) (h' : Tells k e r₁ r') : Tells k e r r' := by
  obtain ⟨ms, hcourse, htrace⟩ := h
  obtain ⟨ms', hcourse', htrace'⟩ := h'
  exact ⟨ms ++ ms', hcourse.trans hcourse', by
    rw [htrace', htrace, eventsOf_append, List.append_assoc]⟩

/-- A recognizer that has noted an event. -/
def noted (r : Recognizer S X) (event : Event) : Recognizer S X :=
  { r with trace := r.trace.push event }

lemma note {event : Event} (hfits : event.Fits r.state) : Tells k none r (noted r event) :=
  ⟨[⟨.noted event, r.state⟩], .note hfits, Array.toList_push⟩

/-- A recorded rule is entered and left at once. -/
lemma entered {rule : String} {i : Nat} {fault : Option Fault} (hdepth : 0 < r.state.backtracking) :
    Tells k none r (noted r (.entered rule i fault)) := note hdepth

/-- The course of a rule call: the rule is entered, its body is run, and the rule is left. -/
lemma call {e' : Option Fault} {r₂ r₃ : Recognizer S X} {frame : Frame} {i j : Nat}
    {tree : Option String} {ms : List Moment} {s : State}
    (henter : r₁.state = r.state.within frame) (htrace : r₁.trace = r.trace)
    (hbody : Tells k e (noted r₁ (.entered frame.rule.name i none)) r₂)
    (hleaving : Leaving k e r₂.state ms e' s) (hleave : r₃.state = s.popFrame)
    (htrace₃ : r₃.trace = r₂.trace) :
    Tells k e' r (noted r₃ (.exited frame.rule.name j e' tree)) := by
  obtain ⟨inside, hcourse, hinside⟩ := hbody
  have hcourse : Course k e (r.state.within frame) inside r₂.state := henter ▸ hcourse
  refine ⟨_, hleave ▸ hcourse.call (i := i) (j := j) (t := tree) hleaving, ?_⟩
  simp only [noted, Array.toList_push] at hinside ⊢
  rw [htrace₃, hinside, htrace, eventsOf_entered, eventsOf_append, eventsOf_append,
    hleaving.eventsOf_eq, eventsOf_left, eventsOf_nil]
  simp only [List.append_assoc, List.append_nil, List.cons_append, List.nil_append]

end Tells

/-- The stream refuses a mark only if it is stale or out of order. -/
structure LosesMarks (S : Type) [Cursor S] : Prop where
  rewind : ∀ {i : S} {m : Mark} {cause : Misuse}, Cursor.rewind i m = .error cause → cause.LosesMark
  release : ∀ {i : S} {m : Mark} {cause : Misuse},
    Cursor.release i m = .error cause → cause.LosesMark

lemma LosesMarks.endGuard [Cursor S] (hlost : LosesMarks S) {i : S} {m : Mark}
    {ending : Cursor.GuardEnd} {cause : Misuse}
    (h : (Cursor.endGuard i m ending).1 = .error cause) : cause.LosesMark := by
  cases ending with
  | keep =>
    rcases hpop : Cursor.release i m with cause' | i'
    · simp only [Cursor.endGuard, hpop] at h
      exact Except.error.inj h ▸ hlost.release hpop
    · simp only [Cursor.endGuard, hpop] at h
      cases h
  | restore =>
    rcases hpop : Cursor.rewind i m with cause' | i'
    · simp only [Cursor.endGuard, hpop] at h
      exact Except.error.inj h ▸ hlost.rewind hpop
    · simp only [Cursor.endGuard, hpop] at h
      cases h
  | abandon =>
    rcases hpop : Cursor.rewind i m with cause' | i'
    all_goals
      simp only [Cursor.endGuard, hpop] at h
      cases h

/-- Hand a fault on, or let `handle` deal with it if it is a failure and `handles` says so. -/
def handling (handle : Failure → Action (Recognizer S X) α) (outcome : Except Fault α)
    (handles : Bool) : Action (Recognizer S X) α :=
  match outcome, handles with
  | .error (.failed f), true => handle f
  | outcome, _ => .ofExcept outcome

/-- Leave a rule with the result that its outcome was handled with: record it, take off the frame,
and hand it on. -/
def leave [Cursor S] (start : RuleStart) (result : Except Fault α) : Action (Recognizer S X) α := do
  record start result
  updateState State.popFrame
  .ofExcept result

/-- What comes of entering a rule: its frame is pushed, or a recognizer that is backtracking finds
what is recorded about the rule. -/
def Enters (rule : Rule) (r : Recognizer S X) (o : Except Fault (Option RuleStart))
    (r' : Recognizer S X) : Prop :=
  r'.trace = r.trace ∧
    ((o = .ok none ∧ 0 < r.state.backtracking ∧ r'.state = r.state) ∨
      (o = .error .backtracking ∧ 0 < r.state.backtracking ∧ r.state.Resembles r'.state) ∨
      ∃ start frame, o = .ok (some start) ∧ frame.rule = rule ∧ r'.state = r.state.within frame)

namespace Told

/-! ## Combinators -/

lemma of_idle {x : Action (Recognizer S X) α} (hx : Within Idle x)
    (hreturns : Returns x fun _ => True) : Told k x := by
  intro r o r' hrun
  obtain ⟨a, rfl, -⟩ := hreturns hrun
  exact .of_idle (hx hrun)

lemma pure (a : α) : Told k (Pure.pure a : Action (Recognizer S X) α) :=
  of_idle (Within.pure a) (Returns.pure trivial)

lemma read (f : Recognizer S X → α) : Told k (Action.read f) := by
  intro r o r' hrun
  obtain ⟨rfl, rfl⟩ := Prod.mk.inj (Option.some.inj hrun)
  exact .of_idle (refl_of Idle r)

lemma update {f : Recognizer S X → Recognizer S X} (hf : ∀ r, Idle r (f r)) :
    Told k (Action.update f) :=
  of_idle (Within.update hf) Returns.update

lemma step {f : Recognizer S X → α × Recognizer S X} (hf : ∀ r, Idle r (f r).2) :
    Told k (Action.step f) :=
  of_idle (Within.step hf) Returns.step

lemma misuse (cause : Misuse) :
    Told k (.fault (.misuse cause) : Action (Recognizer S X) α) := by
  intro r o r' hrun
  obtain ⟨rfl, rfl⟩ := Prod.mk.inj (Option.some.inj hrun)
  exact .of_course (.misuse r.state cause) rfl

lemma bind {x : Action (Recognizer S X) α} {f : α → Action (Recognizer S X) β} (hx : Told k x)
    (hf : ∀ a, Told k (f a)) : Told k (x >>= f) := by
  intro r o r' hrun
  rcases bind_eq_some.1 hrun with ⟨a, r₁, hx₁, hf₁⟩ | ⟨e, hx₁, rfl⟩
  · exact (hx hx₁).trans (hf a hf₁)
  · exact hx hx₁

lemma ite {c : Prop} [Decidable c] {x y : Action (Recognizer S X) α} (hx : Told k x)
    (hy : Told k y) : Told k (if c then x else y) := by
  split
  · exact hx
  · exact hy

lemma map (f : α → β) {x : Action (Recognizer S X) α} (hx : Told k x) : Told k (f <$> x) := by
  rw [map_eq_bind]
  exact hx.bind fun a => pure (f a)

lemma discard {x : Action (Recognizer S X) α} (hx : Told k x) : Told k (Functor.discard x) :=
  hx.map _

/-- What is done after `x` whatever came of it, and leaves no more than the same fault. -/
lemma attempt_bind {x : Action (Recognizer S X) α} {f : Except Fault α → Action (Recognizer S X) β}
    (hx : Told k x) (hf : ∀ o ⦃r : Recognizer S X⦄ ⦃o' : Except Fault β⦄ ⦃r' : Recognizer S X⦄,
      f o r = some (o', r') →
        r'.state = r.state ∧ r'.trace = r.trace ∧ Fault.ofOutcome o' = Fault.ofOutcome o) :
    Told k (x.attempt >>= f) := by
  intro r o' r' hrun
  obtain ⟨o, r₁, hx₁, hf₁⟩ := attempt_bind_eq_some.1 hrun
  obtain ⟨hstate, htrace, hfault⟩ := hf o hf₁
  rw [Tells, hstate, htrace, hfault]
  exact hx hx₁

/-- What goes on from something idle goes on from a recognizer in the same state. -/
lemma idle_bind_eq_some {x : Action (Recognizer S X) α} {f : α → Action (Recognizer S X) β}
    {o : Except Fault β} (hx : Within Idle x) (hreturns : Returns x fun _ => True)
    (hrun : (x >>= f) r = some (o, r')) : ∃ a r₁, Idle r r₁ ∧ f a r₁ = some (o, r') := by
  obtain ⟨a, r₁, hx₁, hf₁⟩ := hreturns.bind_eq_some hrun
  exact ⟨a, r₁, hx hx₁, hf₁⟩

/-! ## Courses as relations between a run and itself -/

/-- The two recognizers are one, and a course from `start` leads to it. -/
def Account (k : Manner) (start : Recognizer S X) : Fault.Relation (Recognizer S X) :=
  fun e r s => s = r ∧ Tells k e start r

lemma paired {x : Action (Recognizer S X) α} (hx : Told k x) (start : Recognizer S X) :
    Paired (fun _ => True) (Account k start) x x := by
  refine ⟨fun _ _ _ _ _ => trivial, ?_⟩
  rintro r o r' hrun - s ⟨rfl, hstart⟩
  exact ⟨r', hrun, rfl, hstart.trans (hx hrun)⟩

lemma of_paired {x : Action (Recognizer S X) α}
    (h : ∀ start, Paired (fun _ => True) (Account k start) x x) : Told k x := by
  intro r o r' hrun
  obtain ⟨s', hrun', rfl, htells⟩ :=
    (h r).follows hrun trivial r ⟨rfl, .of_idle (refl_of Idle r)⟩
  exact htells

/-! ## Operations -/

lemma note {event : Event} (h : event.Aside) :
    Told k (note event : Action (Recognizer S X) Unit) := by
  intro r o r' hrun
  obtain ⟨rfl, rfl⟩ := Prod.mk.inj (Option.some.inj hrun)
  exact Tells.note (h.fits r.state)

lemma idle_stepInput (f : S → α × S) : Within Idle (stepInput f : Action (Recognizer S X) α) := by
  unfold Recognizer.stepInput
  exact Within.step fun r => ⟨rfl, .refl r.state⟩

lemma stepInput (f : S → α × S) : Told k (stepInput f : Action (Recognizer S X) α) :=
  of_idle (idle_stepInput f) Returns.step

variable [Cursor S]

lemma lookahead (i : Int) : Told k (lookahead i : Action (Recognizer S X) TokenType) := stepInput _

lemma symbol : Told k (symbol : Action (Recognizer S X) Token) := stepInput _

lemma index : Told k (index : Action (Recognizer S X) Nat) := read _

lemma consume : Told k (consume : Action (Recognizer S X) Unit) :=
  update fun r => ⟨rfl, .refl r.state⟩

lemma seek (i : Nat) : Told k (seek i : Action (Recognizer S X) Unit) :=
  update fun r => ⟨rfl, .refl r.state⟩

lemma observe : Told k (do Recognizer.note (.observed (← snapshot)) :
    Action (Recognizer S X) Unit) := by
  intro r o r' hrun
  obtain ⟨rfl, rfl⟩ := Prod.mk.inj (Option.some.inj hrun)
  refine ⟨[⟨.noted (.observed _), r.state⟩], .note ?_, Array.toList_push⟩
  rfl

omit [Cursor S] in
lemma tells_giveUp {o : Except Fault α} (hdepth : 0 < r.state.backtracking)
    (hrun : giveUp r = some (o, r')) : Tells k (Fault.ofOutcome o) r r' := by
  obtain ⟨rfl, rfl⟩ := Prod.mk.inj (Option.some.inj hrun)
  have hflagged : Tells k none r { r with state := { r.state with failed := true } } :=
    .of_idle ⟨rfl, rfl, rfl, rfl, rfl, rfl, rfl, id⟩
  exact hflagged.trans (.of_course (.signal hdepth) rfl)

/-- A failure carries the path of rules that are in progress where it is made, and becomes the last
one. -/
lemma failureHere_eq_some {kind : FailureKind} {expected : Option TokenSet}
    {o : Except Fault Failure} (hrun : failureHere kind expected r = some (o, r')) :
    ∃ f, o = .ok f ∧ f.context = r.state.context ∧ Idle r r' := by
  obtain ⟨rfl, rfl⟩ := Prod.mk.inj (Option.some.inj hrun)
  exact ⟨_, rfl, rfl, rfl, rfl, rfl, rfl, rfl, rfl, rfl, id⟩

lemma fail (kind : FailureKind) (expected : Option TokenSet) :
    Told k (fail kind expected : Action (Recognizer S X) α) := by
  intro r o r' hrun
  simp only [Recognizer.fail, bind_apply, readState_apply] at hrun
  by_cases hdepth : 0 < r.state.backtracking
  · rw [if_pos hdepth] at hrun
    exact tells_giveUp hdepth hrun
  · rw [if_neg hdepth] at hrun
    rcases bind_eq_some.1 hrun with ⟨f, r₁, hmake, hfault⟩ | ⟨e, hmake, rfl⟩
    · obtain ⟨_, hf, hcontext, hidle⟩ := failureHere_eq_some hmake
      cases hf
      obtain ⟨rfl, rfl⟩ := Prod.mk.inj (Option.some.inj hfault)
      refine (Tells.of_idle hidle).trans ⟨[⟨.raised f, r₁.state⟩], .raise ?_ ?_, ?_⟩
      · rw [hidle.resembles.backtracking_eq]
        exact Nat.eq_zero_of_not_pos hdepth
      · rw [hcontext, hidle.resembles.context_eq]
      · exact (List.append_nil _).symm
    · obtain ⟨_, hf, -⟩ := failureHere_eq_some hmake
      cases hf

omit [Cursor S] in
/-- Without setting the depth, no speculation becomes a real parse. -/
lemma floats {x : Action (Recognizer S X) α} (hx : Told k x) (hsets : ¬ k.sets) :
    Within Floats x := by
  intro r o r' hrun hdepth
  obtain ⟨ms, hcourse, -⟩ := hx hrun
  exact (hcourse.level.backtracking_eq hsets).symm ▸ hdepth

lemma speculating (hlost : LosesMarks S) {raise : Bool} (ending : Cursor.GuardEnd)
    (hraise : raise = true → k.raises) {x : Action (Recognizer S X) α} (hx : Told k x)
    (hfloat : raise = true → k.sinks ∨ Within Floats x) : Told k (speculating raise ending x) := by
  intro r o r' hrun
  rw [speculating_apply] at hrun
  rcases hbody : x (begun raise r) with _ | ⟨outcome, r₁⟩
  · rw [hbody] at hrun
    cases hrun
  · rw [hbody, Option.bind_some] at hrun
    rcases hend : Cursor.endGuard r₁.input (Cursor.mark r.input).1 ending with ⟨result, i⟩
    simp only [hend] at hrun
    obtain ⟨rfl, rfl⟩ := Prod.mk.inj (Option.some.inj hrun)
    obtain ⟨ms, hcourse, htrace⟩ := hx hbody
    refine ⟨ms, .guard hraise hcourse ?_ ?_, htrace⟩
    · rintro rfl
      exact (hfloat rfl).imp_right fun hfloats => hfloats hbody (Nat.succ_pos _)
    · cases result with
      | ok _ => exact .inl rfl
      | error cause => exact .inr ⟨cause, hlost.endGuard (congrArg Prod.fst hend), rfl⟩

lemma synpred {x : Action (Recognizer S X) Unit} (hx : Told k x)
    (hfloat : k.sinks ∨ Within Floats x) : Told k (synpred x) := by
  intro r o r' hrun
  rw [synpred_eq] at hrun
  simp only [speculating_apply, bind_apply] at hrun
  rcases hbody : x (begun true r) with _ | ⟨outcome, r₁⟩
  · simp [hbody] at hrun
  · simp only [hbody, attempt_apply, Option.map_some, update_apply, pure_apply, Option.bind_some]
      at hrun
    obtain ⟨ms, hcourse, htrace⟩ := hx hbody
    have hfloat₁ : k.sinks ∨ 0 < r₁.state.backtracking :=
      hfloat.imp_right fun hfloats => hfloats hbody (Nat.succ_pos _)
    have hcleared : r₁.state.Resembles (cleared r₁).state := ⟨rfl, rfl, rfl, rfl, rfl, rfl, id⟩
    cases hend : (Cursor.endGuard (cleared r₁).input (Cursor.mark r.input).1 .restore).1 with
    | error cause =>
      rw [hend] at hrun
      obtain ⟨rfl, rfl⟩ := Prod.mk.inj (Option.some.inj hrun)
      exact ⟨ms, .predicate hcourse hfloat₁ hcleared (.inr ⟨cause, rfl⟩), htrace⟩
    | ok _ =>
      rw [hend] at hrun
      obtain ⟨rfl, rfl⟩ := Prod.mk.inj (Option.some.inj hrun)
      refine ⟨ms, .predicate hcourse hfloat₁ hcleared ?_, htrace⟩
      rcases outcome with (f | _ | cause) | _
      · exact .inl rfl
      · exact .inl rfl
      · exact .inr ⟨cause, rfl⟩
      · exact .inl rfl

/-- A visit of another place comes to what was done there. -/
lemma visiting (i : Nat) {x : Action (Recognizer S X) α} (hx : Told k x) :
    Told k (visiting i x) := by
  refine index.bind fun here => (seek i).bind fun _ => hx.attempt_bind fun o r o' r' hrun => ?_
  obtain ⟨rfl, rfl⟩ := Prod.mk.inj (Option.some.inj hrun)
  exact ⟨rfl, rfl, rfl⟩

/-! ## Matches and recorded rules -/

omit [Cursor S] in
lemma idle_updateState {f : State → State} (hf : ∀ s : State, s.Resembles (f s)) :
    Within Idle (updateState f : Action (Recognizer S X) Unit) :=
  Within.update fun r => ⟨rfl, hf r.state⟩

omit [Cursor S] in
lemma updateState {f : State → State} (hf : ∀ s : State, s.Resembles (f s)) :
    Told k (updateState f : Action (Recognizer S X) Unit) :=
  of_idle (idle_updateState hf) Returns.update

omit [Cursor S] in
lemma noteMatch : Told k (noteMatch : Action (Recognizer S X) Unit) :=
  updateState fun _ => ⟨rfl, rfl, rfl, rfl, rfl, rfl, fun h => nomatch h⟩

lemma idle_record (start : RuleStart) (o : Except Fault α) :
    Within Idle (record start o : Action (Recognizer S X) Unit) := by
  refine (Within.read _).bind fun memoizing => Within.ite ?_ (Within.pure _)
  refine (Within.read _).bind fun stop => idle_updateState fun s => ?_
  exact ⟨rfl, rfl, rfl, rfl, rfl, rfl, id⟩

lemma returns_record (start : RuleStart) (o : Except Fault α) :
    Returns (record start o : Action (Recognizer S X) Unit) fun _ => True := by
  intro r o' r' hrun
  simp only [record, isMemoizing, bind_apply, readState_apply] at hrun
  split at hrun
  · obtain ⟨rfl, -⟩ := Prod.mk.inj (Option.some.inj hrun)
    exact ⟨(), rfl, trivial⟩
  · obtain ⟨rfl, -⟩ := Prod.mk.inj (Option.some.inj hrun)
    exact ⟨(), rfl, trivial⟩

/-- Only a recognizer that is backtracking finds something recorded, and it gives up if that is a
failure. -/
lemma replay_eq_some {rule : Rule} {o : Except Fault Bool} (hrun : replay rule r = some (o, r')) :
    r'.trace = r.trace ∧
      ((∃ found, o = .ok found ∧ (found = true → 0 < r.state.backtracking) ∧
          r'.state = r.state) ∨
        (o = .error .backtracking ∧ 0 < r.state.backtracking ∧ r.state.Resembles r'.state)) := by
  simp only [replay, isMemoizing, bind_apply, index_apply, readState_apply] at hrun
  split at hrun
  · rename_i hmemoizing
    simp only [Bool.and_eq_true, decide_eq_true_eq] at hmemoizing
    rcases hentry : r.state.memoized rule (Cursor.index r.input) with _ | (stop | _)
    all_goals
      simp only [bind_apply, readState_apply, hentry] at hrun
      obtain ⟨rfl, rfl⟩ := Prod.mk.inj (Option.some.inj hrun)
    · exact ⟨rfl, .inl ⟨false, rfl, fun _ => hmemoizing.1, rfl⟩⟩
    · exact ⟨rfl, .inl ⟨true, rfl, fun _ => hmemoizing.1, rfl⟩⟩
    · exact ⟨rfl, .inr ⟨rfl, hmemoizing.1, rfl, rfl, rfl, rfl, rfl, rfl, id⟩⟩
  · obtain ⟨rfl, rfl⟩ := Prod.mk.inj (Option.some.inj hrun)
    exact ⟨rfl, .inl ⟨false, rfl, by simp, rfl⟩⟩

/-! ## Rules

Parsers and walkers enter and leave rules by the same steps.  They differ in what they do about a
failure that leaves a rule. -/

omit [Cursor S] in
lemma leaving_handling (handle : Failure → Action (Recognizer S X) α) {outcome o : Except Fault α}
    (hhandle : ∀ f, r.state.backtracking = 0 → r.state.escalated = false →
      handle f r = some (o, r') →
        (∃ ms, Leaving k (some (.failed f)) r.state ms (Fault.ofOutcome o) r'.state) ∧
          r'.trace = r.trace)
    (hrun : handling handle outcome (r.state.backtracking = 0 && !r.state.escalated) r =
      some (o, r')) :
    (∃ ms, Leaving k (Fault.ofOutcome outcome) r.state ms (Fault.ofOutcome o) r'.state) ∧
      r'.trace = r.trace := by
  cases hhandles : decide (r.state.backtracking = 0) && !r.state.escalated with
  | true =>
    rw [hhandles] at hrun
    simp only [Bool.and_eq_true, decide_eq_true_eq, Bool.not_eq_true'] at hhandles
    rcases outcome with (f | _ | _) | _
    · exact hhandle f hhandles.1 hhandles.2 hrun
    · exact Leaving.of_ofExcept (by simp [Fault.ofOutcome]) hrun
    · exact Leaving.of_ofExcept (by simp [Fault.ofOutcome]) hrun
    · exact Leaving.of_ofExcept (by simp [Fault.ofOutcome]) hrun
  | false =>
    have hsame : Action.ofExcept outcome r = some (o, r') := by
      rw [hhandles] at hrun
      rcases outcome with (_ | _ | _) | _
      all_goals exact hrun
    have hhand : 0 < r.state.backtracking ∨ r.state.escalated = true := by
      simp only [Bool.and_eq_false_iff, decide_eq_false_iff_not, Bool.not_eq_false'] at hhandles
      exact hhandles.imp_left Nat.pos_of_ne_zero
    exact Leaving.of_ofExcept (fun _ _ => hhand) hsame

/-- Whatever is done about the outcome of a rule's body, the rule is then left. -/
lemma leaving_leave {start : RuleStart} {x : Action (Recognizer S X) α} {e : Option Fault}
    {o : Except Fault α}
    (hx : ∀ ⦃result r₁⦄, x r = some (result, r₁) →
      (∃ ms, Leaving k e r.state ms (Fault.ofOutcome result) r₁.state) ∧ r₁.trace = r.trace)
    (hrun : (x.attempt >>= leave start) r = some (o, r')) :
    ∃ ms s, Leaving k e r.state ms (Fault.ofOutcome o) s ∧ r'.state = s.popFrame ∧
      r'.trace = r.trace := by
  obtain ⟨result, r₁, hresult, hrest⟩ := attempt_bind_eq_some.1 hrun
  obtain ⟨_, r₂, hidle, hpop⟩ :=
    idle_bind_eq_some (idle_record start result) (returns_record start result) hrest
  obtain ⟨rfl, rfl⟩ := Prod.mk.inj (Option.some.inj hpop)
  obtain ⟨⟨ms, hleaving⟩, htrace⟩ := hx hresult
  exact ⟨ms, r₂.state, hleaving.and_work hidle.resembles, rfl, hidle.trace_eq.trans htrace⟩

lemma enters_of_replay {rule : Rule} {anew : Action (Recognizer S X) (Option RuleStart)}
    {o : Except Fault (Option RuleStart)}
    (hanew : ∀ ⦃r o r'⦄, anew r = some (o, r') → ∃ start frame, o = .ok (some start) ∧
      frame.rule = rule ∧ r'.state = r.state.within frame ∧ r'.trace = r.trace)
    (hrun : (do if ← replay rule then return none else anew) r = some (o, r')) :
    Enters rule r o r' := by
  rcases bind_eq_some.1 hrun with ⟨found, r₁, hreplay, hrest⟩ | ⟨e, hreplay, rfl⟩
  · obtain ⟨htrace, ⟨_, ⟨⟩, hdepth, hstate⟩ | ⟨⟨⟩, _⟩⟩ := replay_eq_some hreplay
    cases found with
    | true =>
      obtain ⟨rfl, rfl⟩ := Prod.mk.inj (Option.some.inj hrest)
      exact ⟨htrace, .inl ⟨rfl, hdepth rfl, hstate⟩⟩
    | false =>
      obtain ⟨start, frame, rfl, hrule, hwithin, htrace'⟩ := hanew hrest
      refine ⟨htrace'.trans htrace, .inr (.inr ⟨start, frame, rfl, hrule, ?_⟩)⟩
      rw [hwithin, hstate]
  · obtain ⟨htrace, ⟨_, ⟨⟩, -⟩ | ⟨he, hdepth, hwork⟩⟩ := replay_eq_some hreplay
    cases he
    exact ⟨htrace, .inr (.inl ⟨rfl, hdepth, hwork⟩)⟩

/-- A call enters a rule, runs its body, whatever comes of it, and leaves the rule. -/
lemma call {rule : Rule} {enter : Action (Recognizer S X) (Option RuleStart)} {skipped : α}
    {body : RuleStart → Action (Recognizer S X) β}
    {exit : RuleStart → Except Fault β → Action (Recognizer S X) α}
    (tree : Except Fault α → Recognizer S X → Option String)
    (henter : ∀ ⦃r o r'⦄, enter r = some (o, r') → Enters rule r o r')
    (hbody : ∀ start, Told k (body start))
    (hexit : ∀ ⦃start outcome r o r'⦄, exit start outcome r = some (o, r') →
      ∃ ms s, Leaving k (Fault.ofOutcome outcome) r.state ms (Fault.ofOutcome o) s ∧
        r'.state = s.popFrame ∧ r'.trace = r.trace) :
    Told k (do
      let entry ← enter.attempt
      Recognizer.note (.entered rule.name (← Recognizer.index) (Fault.ofOutcome entry))
      match ← .ofExcept entry with
      | none => return skipped
      | some start =>
        let outcome ← (body start).attempt
        let result ← (exit start outcome).attempt
        let tree ← .read (tree result)
        Recognizer.note (.exited rule.name (← Recognizer.index) (Fault.ofOutcome result) tree)
        .ofExcept result) := by
  intro r o r' hrun
  obtain ⟨entry, r₁, hentry, hrest⟩ := attempt_bind_eq_some.1 hrun
  rw [bind_apply, index_apply] at hrest
  obtain ⟨htrace, ⟨rfl, hdepth, hstate⟩ | ⟨rfl, hdepth, hwork⟩ |
      ⟨start, frame, rfl, rfl, hstate⟩⟩ := henter hentry
  · obtain ⟨rfl, rfl⟩ := Prod.mk.inj (Option.some.inj hrest)
    exact (Tells.of_idle ⟨htrace, hstate ▸ .refl r.state⟩).trans (.entered (hstate ▸ hdepth))
  · obtain ⟨rfl, rfl⟩ := Prod.mk.inj (Option.some.inj hrest)
    have hdepth₁ : 0 < r₁.state.backtracking := hwork.backtracking_eq ▸ hdepth
    exact (Tells.of_idle ⟨htrace, hwork⟩).trans
      ((Tells.entered hdepth₁).trans (.of_course (.signal hdepth₁) rfl))
  · obtain ⟨outcome, r₂, hinside, hafter⟩ := attempt_bind_eq_some.1 hrest
    obtain ⟨result, r₃, hresult, hlast⟩ := attempt_bind_eq_some.1 hafter
    obtain ⟨ms, s, hleaving, hleft, htrace₃⟩ := hexit hresult
    obtain ⟨rfl, rfl⟩ := Prod.mk.inj (Option.some.inj hlast)
    exact Tells.call hstate htrace (hbody start hinside) hleaving hleft htrace₃

/-! ## Predictions -/

section Predictions

variable {hooks : Hooks S X} (hpredicate : ∀ id, Told k (hooks.predicate id))
  (hspeculate : ∀ decision n, Told k (hooks.speculate decision n))
  (hfloat : ∀ decision n, k.sinks ∨ Within Floats (hooks.speculate decision n))

include hspeculate hfloat in
lemma simulate (a : Automaton) (start : Nat) (alternatives : List Nat) :
    Told k (simulate hooks a start alternatives) := by
  refine (read _).bind fun options => (read _).bind fun depth => .ite (pure _) ?_
  exact .of_paired fun r => firstParsing_paired _ _
    (fun n => (visiting start (synpred (hspeculate _ n) (hfloat _ n))).paired r) _

include hpredicate hspeculate hfloat

lemma partners (start : Nat) (r : Recognizer S X) :
    Partners (fun _ => True) (Account k r) start hooks hooks where
  lookahead := (lookahead 1).paired r
  consume := consume.paired r
  fail kind expected := (fail kind expected).paired r
  misuse cause := (misuse cause).paired r
  predicate id := (visiting start (hpredicate id)).paired r
  simulate a alternatives := (simulate hspeculate hfloat a start alternatives).paired r

lemma predict (hlost : LosesMarks S) (a : Automaton) : Told k (predict hooks a) := by
  unfold Recognizer.predict
  refine speculating hlost .restore (fun h => absurd h Bool.false_ne_true) ?_
    fun h => absurd h Bool.false_ne_true
  refine index.bind fun start => (read _).bind fun options => ?_
  exact .of_paired fun r => (partners hpredicate hspeculate hfloat start r).walk a _ 0

end Predictions

end Told

end Recognizer

namespace Grammar

variable [Cursor S] {k : Manner} {d : Dialect S X ι} {g : Grammar ι} {p : Statement ι → Prop}
  {run : Block ι → Action (Recognizer S X) Unit} {fuel : Nat}

lemma told_plain {s : Statement ι} (hsets : s.SetsDepth → k.sets)
    (hreframes : s.Reframes → k.reframes) (hplain : s.Plain) : Told k (execute d g run fuel s) := by
  have hreframe (frames : State → List Frame) (hk : k.reframes) :
      Told k (updateState fun s => { s with frames := frames s } :
        Action (Recognizer S X) Unit) := by
    intro r o r' hrun
    obtain ⟨rfl, rfl⟩ := Prod.mk.inj (Option.some.inj hrun)
    exact .of_course (.reframe hk (frames r.state)) rfl
  have htry {f : S → Except Misuse S} :
      Told k (tryInput f : Action (Recognizer S X) Unit) := by
    intro r o r' hrun
    unfold tryInput at hrun
    split at hrun
    · obtain ⟨rfl, rfl⟩ := Prod.mk.inj (Option.some.inj hrun)
      exact .of_idle ⟨rfl, .refl r.state⟩
    · obtain ⟨rfl, rfl⟩ := Prod.mk.inj (Option.some.inj hrun)
      exact .of_course (.misuse r.state _) rfl
  cases s with
  | mark => exact (Told.stepInput _).bind fun m => Told.update fun r => ⟨rfl, .refl r.state⟩
  | rewind i => exact (Told.read _).bind fun m => htry
  | release i => exact (Told.read _).bind fun m => htry
  | consume => exact Told.consume
  | seek i => exact Told.seek i
  | setLastError i => exact Told.update fun r => ⟨rfl, rfl, rfl, rfl, rfl, rfl, rfl, id⟩
  | observe => exact Told.observe
  | setBacktracking depth =>
    intro r o r' hrun
    obtain ⟨rfl, rfl⟩ := Prod.mk.inj (Option.some.inj hrun)
    exact .of_course (.setDepth (hsets trivial) depth) rfl
  | pushFrame rule follow =>
    exact Told.index.bind fun i =>
      hreframe (fun s => ⟨rule, follow, i⟩ :: s.frames) (hreframes trivial)
  | popFrame => exact hreframe (fun s => s.frames.tail) (hreframes trivial)
  | ifHolds | whileHolds | untilHolds | oneOrMore | switch | predict | loop | require | synpred
  | speculating | attempt | earlyExit | perform => exact hplain.elim

/-- What has to be known of a kind of recognizer, and of its programs, for their runs to be
courses. -/
structure Telling (k : Manner) (d : Dialect S X ι) (g : Grammar ι) (p : Statement ι → Prop) :
    Prop where
  raises : ∀ s, p s → s.Raises → k.raises
  sets : ∀ s, p s → s.SetsDepth → k.sets
  reframes : ∀ s, p s → s.Reframes → k.reframes
  catches : ∀ s, p s → s.Catches → k.catches
  loses : LosesMarks S
  /-- What is tried stays a speculation. -/
  floats : ∀ {fuel : Nat} {b : Block ι}, g.Tries p b → Told k (g.run d fuel b) →
    k.sinks ∨ Within Floats (g.run d fuel b : Action (Recognizer S X) Unit)
  apart : ∀ {x : Action (Recognizer S X) Unit}, Told k x → Told k (d.apart x)
  apart_floats : ∀ {x : Action (Recognizer S X) Unit}, Within Floats x → Within Floats (d.apart x)
  perform : ∀ {run : Block ι → Action (Recognizer S X) Unit},
    (∀ b, Block.All p b → Told k (run b)) → ∀ i, Told k (d.perform g run i)

namespace Telling

lemma plain (h : Telling k d g p) {s : Statement ι} (hs : p s) (hplain : s.Plain) :
    Told k (execute d g run fuel s) := told_plain (h.sets s hs) (h.reframes s hs) hplain

variable (h : Telling k d g p) (hg : g.All p) (hrun : ∀ b, Block.All p b → Told k (run b))
  (hfloat : ∀ b, g.Tries p b → Block.All p b → k.sinks ∨ Within Floats (run b))

include h hg hrun

lemma evaluate (id : Nat) : Told k (evaluate d g run id) := by
  unfold Grammar.evaluate
  split
  · exact Told.misuse _
  · rename_i predicate hpredicate
    refine Told.index.bind fun index => ?_
    have hdone (value : Bool) : Told k (do
        note (.evaluated id index value)
        return value : Action (Recognizer S X) Bool) :=
      (Told.note (show Event.Aside (.evaluated id index value) from trivial)).bind fun _ =>
        Told.pure _
    cases predicate with
    | constant value => exact hdone value
    | text texts => exact Told.symbol.bind fun token => hdone (texts.contains token.text)
    | lookahead test => exact ((Told.lookahead _).bind fun _ => Told.pure _).bind hdone
    | consume value => exact Told.consume.bind fun _ => hdone value
    | depth least => exact (Told.read _).bind hdone
    | run block => exact (h.apart (hrun _ (hg.predicate hpredicate))).bind fun _ => hdone true

lemma speculate (decision n : Nat) : Told k (speculate d g run decision n) := by
  unfold Grammar.speculate
  refine Told.index.bind fun index => (Told.read _).bind fun depth =>
    (Told.note (show Event.Aside (.speculated decision n index depth) from trivial)).bind
      fun _ => ?_
  split
  · rename_i block hblock
    exact h.apart (hrun _ (hg.simulation hblock))
  · exact Told.misuse _

omit hrun in
include hfloat in
lemma speculate_floats (decision n : Nat) :
    k.sinks ∨ Within Floats (Grammar.speculate d g run decision n) := by
  have hbegin {x : Action (Recognizer S X) Unit} (hx : Within Floats x) : Within Floats (do
      note (.speculated decision n (← index) (← readState State.backtracking))
      x) := by
    refine (Within.read _).bind fun i => (Within.read _).bind fun depth => ?_
    exact (Within.update fun r => id).bind fun _ => hx
  unfold Grammar.speculate
  split
  · rename_i block hblock
    have htried : k.sinks ∨ Within Floats (run block) :=
      hfloat block (.inr ⟨decision, n, hblock⟩) (hg.simulation hblock)
    exact htried.imp_right fun hfloats => hbegin (h.apart_floats hfloats)
  · exact .inr (hbegin (Within.fault _))

omit h hg in
lemma attempt (hk : k.catches) {b : Block ι} (hb : Block.All p b) :
    Told k (execute d g run fuel (.attempt b)) := by
  intro r o r' hexecute
  obtain ⟨outcome, r₁, hbody, hnote⟩ := attempt_bind_eq_some.1 hexecute
  obtain ⟨ms, hcourse, htrace⟩ := hrun b hb hbody
  have hnote' : note (.attempted (Fault.ofOutcome outcome)) r₁ = some (o, r') := by
    cases outcome with
    | ok _ => exact hnote
    | error fault => exact hnote
  obtain ⟨rfl, rfl⟩ := Prod.mk.inj (Option.some.inj hnote')
  refine ⟨_, .attempt hk hcourse, ?_⟩
  rw [eventsOf_append, ← List.append_assoc, ← htrace]
  exact Array.toList_push

include hfloat

lemma concord (start : Recognizer S X) :
    Concord (fun _ => True) (Told.Account k start) d d g p run run fuel fuel where
  block hb := (hrun _ hb).paired start
  lookahead i := (Told.lookahead i).paired start
  fail kind expected := (Told.fail kind expected).paired start
  index := Told.index.paired start
  note _ hevent := (Told.note hevent.aside).paired start
  evaluate id := (h.evaluate hg hrun id).paired start
  predict a :=
    (Told.predict (h.evaluate hg hrun) (h.speculate hg hrun) (h.speculate_floats hg hfloat) h.loses
      a).paired start
  synpred hs hb := by
    have htried : k.sinks ∨ Within Floats (run _) := hfloat _ (.inl ⟨_, hs, rfl⟩) hb
    exact (Told.synpred (h.apart (hrun _ hb)) (htried.imp_right h.apart_floats)).paired start
  speculating hs hb := by
    refine (Told.speculating h.loses _ (fun hraise => h.raises _ hs hraise) (hrun _ hb) ?_).paired
      start
    exact fun hraise => hfloat _ (.inl ⟨_, hs, hraise, rfl⟩) hb
  attempt hs hb := (attempt hrun (h.catches _ hs trivial) hb).paired start
  plain hs hplain := (h.plain hs hplain).paired start
  perform _ := (h.perform hrun _).paired start

end Telling

/-- **Runs of programs are courses**, if what the kind of recognizer adds to the statements tells of
its courses (`Telling`). -/
theorem told_run (h : Telling k d g p) (hg : g.All p) (fuel : Nat) {block : Block ι}
    (hblock : Block.All p block) : Told k (g.run d fuel block) := by
  refine .of_paired fun start => ?_
  refine run_of_concord (I := Recognizer S X) (C := fun _ fuel fuel' => fuel = fuel')
    (Q := Told.Account k) ?_ (Nat.le_refl fuel) rfl hblock
  rintro fuel _ - hrun start ⟨⟩
  have htold (b : Block ι) (hb : Block.All p b) : Told k (g.run d fuel b) :=
    .of_paired fun start => hrun start b rfl hb
  exact h.concord hg htold (fun b htried hb => h.floats htried (htold b hb)) start

end Grammar

end Lookahead
