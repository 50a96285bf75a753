import Lookahead.Parser.Recovery
import Lookahead.Proofs.Recognizer.Speculation
import Lookahead.Proofs.Stream.Tokens

/-!
# What matching and mending leave alone

Relations between parsers for the operations below the level of rules.  `Still` holds of most of
them: they read and move the input and keep books, but neither report anything nor end a recovery.
`Steady` holds of those too that add to what was reported.  `Onward` holds of all: only operations
on the stream change the input, no mark is popped, nothing is added to the trace, and errors are
counted up.

Between them is `Calm`: at most one failure is reported, and only if none is being recovered from;
then the recovery from it goes on.  Everything is calm but a match or a repair that succeeds, which
ends the recovery (`Mends`).
-/

namespace Lookahead

open Action Cursor Recognizer

variable {σ : Type} [TokenSource σ]

namespace TokenStream

lemma stays_lookBehind (s : TokenStream σ) (k : Nat) : Stays s (s.lookBehind k).2 :=
  (Stay.lookahead s 0).stays

lemma roams_skipUntil (stopAt : TokenType → Bool) (fuel : Nat) (s : TokenStream σ) :
    Roams s (s.skipUntil stopAt fuel).2 := by
  induction fuel generalizing s with
  | zero => exact Roams.refl s
  | succ fuel ih =>
    have hlook : Roams s (Cursor.lookahead s 1).2 := Roams.lookahead s 1
    rw [skipUntil]
    split
    rename_i type s₁ hs₁
    rw [hs₁] at hlook
    split
    · exact hlook
    · exact (hlook.trans (Roams.consume s₁)).trans (ih _)

end TokenStream

/-- At most one failure was reported on the way from `s` to `s'`, and only if none was being
recovered from; then the recovery from it goes on. -/
def State.ReportsOnce (s s' : State) : Prop :=
  (s'.recovering = s.recovering ∧ s'.syntaxErrors = s.syntaxErrors ∧
      s'.diagnostics = s.diagnostics) ∨
    (s.recovering = false ∧ s'.recovering = true ∧ s'.syntaxErrors = s.syntaxErrors + 1)

lemma State.ReportsOnce.refl (s : State) : s.ReportsOnce s := .inl ⟨rfl, rfl, rfl⟩

lemma State.ReportsOnce.trans {s s' s'' : State} (h : s.ReportsOnce s') (h' : s'.ReportsOnce s'') :
    s.ReportsOnce s'' := by
  rcases h with ⟨hrec, hcount, hlist⟩ | ⟨hfree, hrec, hcount⟩
  · rw [ReportsOnce, ← hrec, ← hcount, ← hlist]
    exact h'
  · rcases h' with ⟨hrec', hcount', -⟩ | ⟨hfree', -, -⟩
    · exact .inr ⟨hfree, hrec'.trans hrec, hcount'.trans hcount⟩
    · rw [hrec] at hfree'
      cases hfree'

namespace Parser

variable {α β : Type} {r r' : Parser σ}

/-- The input is read and the books are kept, and nothing else happens. -/
structure Rests (r r' : Parser σ) : Prop where
  stays : Stays r.input r'.input
  trace_eq : r'.trace = r.trace
  backtracking_eq : r'.state.backtracking = r.state.backtracking
  recovering_eq : r'.state.recovering = r.state.recovering
  syntaxErrors_eq : r'.state.syntaxErrors = r.state.syntaxErrors
  diagnostics_eq : r'.state.diagnostics = r.state.diagnostics

/-- The input is moved and the books are kept, and nothing else happens. -/
structure Still (r r' : Parser σ) : Prop where
  roams : Roams r.input r'.input
  trace_eq : r'.trace = r.trace
  backtracking_eq : r'.state.backtracking = r.state.backtracking
  recovering_eq : r'.state.recovering = r.state.recovering
  syntaxErrors_eq : r'.state.syntaxErrors = r.state.syntaxErrors
  diagnostics_eq : r'.state.diagnostics = r.state.diagnostics

/-- Nothing is traced or reported, and no recovery begins or ends. -/
structure Steady (r r' : Parser σ) : Prop where
  roams : Roams r.input r'.input
  trace_eq : r'.trace = r.trace
  backtracking_eq : r'.state.backtracking = r.state.backtracking
  recovering_eq : r'.state.recovering = r.state.recovering
  syntaxErrors_eq : r'.state.syntaxErrors = r.state.syntaxErrors

/-- Nothing is traced, and no error is taken back. -/
structure Onward (r r' : Parser σ) : Prop where
  roams : Roams r.input r'.input
  trace_eq : r'.trace = r.trace
  backtracking_eq : r'.state.backtracking = r.state.backtracking
  syntaxErrors_le : r.state.syntaxErrors ≤ r'.state.syntaxErrors

instance : IsPreorder (Parser σ) Rests where
  refl _ := ⟨Stays.refl _, rfl, rfl, rfl, rfl, rfl⟩
  trans _ _ _ h h' := ⟨h.stays.trans h'.stays, h'.trace_eq.trans h.trace_eq,
    h'.backtracking_eq.trans h.backtracking_eq, h'.recovering_eq.trans h.recovering_eq,
    h'.syntaxErrors_eq.trans h.syntaxErrors_eq, h'.diagnostics_eq.trans h.diagnostics_eq⟩

instance : IsPreorder (Parser σ) Still where
  refl _ := ⟨Roams.refl _, rfl, rfl, rfl, rfl, rfl⟩
  trans _ _ _ h h' := ⟨h.roams.trans h'.roams, h'.trace_eq.trans h.trace_eq,
    h'.backtracking_eq.trans h.backtracking_eq, h'.recovering_eq.trans h.recovering_eq,
    h'.syntaxErrors_eq.trans h.syntaxErrors_eq, h'.diagnostics_eq.trans h.diagnostics_eq⟩

instance : IsPreorder (Parser σ) Steady where
  refl _ := ⟨Roams.refl _, rfl, rfl, rfl, rfl⟩
  trans _ _ _ h h' := ⟨h.roams.trans h'.roams, h'.trace_eq.trans h.trace_eq,
    h'.backtracking_eq.trans h.backtracking_eq, h'.recovering_eq.trans h.recovering_eq,
    h'.syntaxErrors_eq.trans h.syntaxErrors_eq⟩

instance : IsPreorder (Parser σ) Onward where
  refl _ := ⟨Roams.refl _, rfl, rfl, Nat.le_refl _⟩
  trans _ _ _ h h' := ⟨h.roams.trans h'.roams, h'.trace_eq.trans h.trace_eq,
    h'.backtracking_eq.trans h.backtracking_eq, Nat.le_trans h.syntaxErrors_le h'.syntaxErrors_le⟩

lemma Rests.still (h : Rests r r') : Still r r' :=
  ⟨h.stays.roams, h.trace_eq, h.backtracking_eq, h.recovering_eq, h.syntaxErrors_eq,
    h.diagnostics_eq⟩

lemma still_of_rests {x : Action (Parser σ) α} (h : Within Rests x) : Within Still x :=
  h.mono fun _ _ => Rests.still

lemma Still.steady (h : Still r r') : Steady r r' :=
  ⟨h.roams, h.trace_eq, h.backtracking_eq, h.recovering_eq, h.syntaxErrors_eq⟩

lemma Steady.onward (h : Steady r r') : Onward r r' :=
  ⟨h.roams, h.trace_eq, h.backtracking_eq, Nat.le_of_eq h.syntaxErrors_eq.symm⟩

lemma Still.onward (h : Still r r') : Onward r r' := h.steady.onward

lemma onward_of_still {x : Action (Parser σ) α} (h : Within Still x) : Within Onward x :=
  h.mono fun _ _ => Still.onward

lemma onward_of_rests {x : Action (Parser σ) α} (h : Within Rests x) : Within Onward x :=
  onward_of_still (still_of_rests h)

/-! ## Books -/

/-- An update of the state that leaves recovery and diagnostics alone. -/
lemma rests_updateState {f : State → State}
    (hbacktracking : ∀ s, (f s).backtracking = s.backtracking)
    (hrecovering : ∀ s, (f s).recovering = s.recovering)
    (hsyntaxErrors : ∀ s, (f s).syntaxErrors = s.syntaxErrors)
    (hdiagnostics : ∀ s, (f s).diagnostics = s.diagnostics) :
    Within Rests (updateState f : Action (Parser σ) Unit) :=
  Within.update fun _ =>
    ⟨Stays.refl _, rfl, hbacktracking _, hrecovering _, hsyntaxErrors _, hdiagnostics _⟩

lemma rests_stepInput {f : TokenStream σ → α × TokenStream σ} (hf : ∀ s, Stays s (f s).2) :
    Within Rests (stepInput f : Action (Parser σ) α) :=
  Within.step fun r => ⟨hf r.input, rfl, rfl, rfl, rfl, rfl⟩

lemma rests_stepOwn {f : TreeBuilder → α × TreeBuilder} :
    Within Rests (stepOwn f : Action (Parser σ) α) :=
  Within.step fun _ => ⟨Stays.refl _, rfl, rfl, rfl, rfl, rfl⟩

lemma rests_updateOwn {f : TreeBuilder → TreeBuilder} :
    Within Rests (updateOwn f : Action (Parser σ) Unit) :=
  Within.update fun _ => ⟨Stays.refl _, rfl, rfl, rfl, rfl, rfl⟩

lemma rests_lookahead (k : Int) : Within Rests (lookahead k : Action (Parser σ) TokenType) :=
  rests_stepInput fun s => (Stay.lookahead s k).stays

lemma rests_symbol : Within Rests (symbol : Action (Parser σ) Token) :=
  rests_stepInput fun s => (Stay.symbol s).stays

lemma rests_lookBehind (k : Nat) : Within Rests (lookBehind k : Action (Parser σ) (Option Token)) :=
  rests_stepInput fun s => s.stays_lookBehind k

lemma still_consume : Within Still (consume : Action (Parser σ) Unit) :=
  Within.update fun r => ⟨Roams.consume r.input, rfl, rfl, rfl, rfl, rfl⟩

lemma still_seek (i : Nat) : Within Still (seek i : Action (Parser σ) Unit) :=
  Within.update fun r => ⟨Roams.seek r.input i, rfl, rfl, rfl, rfl, rfl⟩

lemma rests_failureHere (kind : FailureKind) (expected : Option TokenSet) :
    Within Rests (failureHere kind expected : Action (Parser σ) Failure) :=
  rests_symbol.bind fun _ => (Within.read _).bind fun _ =>
    Within.step fun _ => ⟨Stays.refl _, rfl, rfl, rfl, rfl, rfl⟩

lemma rests_giveUp : Within Rests (giveUp : Action (Parser σ) α) := by
  refine Within.bind (rests_updateState ?_ ?_ ?_ ?_) fun _ => Within.fault _
  all_goals exact fun _ => rfl

lemma rests_fail (kind : FailureKind) (expected : Option TokenSet) :
    Within Rests (fail kind expected : Action (Parser σ) α) :=
  (Within.read _).bind fun _ =>
    Within.ite rests_giveUp ((rests_failureHere kind expected).bind fun _ => Within.fault _)

/-! ## Rules and trees -/

lemma still_replay (rule : Rule) : Within Still (replay rule : Action (Parser σ) Bool) := by
  refine (Within.read _).bind fun start => (Within.read _).bind fun memoizing => ?_
  refine Within.ite ((Within.read _).bind fun entry => ?_) (Within.pure _)
  split
  · exact still_of_rests rests_giveUp
  · exact (still_seek _).bind fun _ => Within.pure _
  · exact Within.pure _

lemma rests_record (start : RuleStart) (outcome : Except Fault α) :
    Within Rests (record start outcome : Action (Parser σ) Unit) := by
  refine (Within.read _).bind fun memoizing => Within.ite ?_ (Within.pure _)
  refine (Within.read _).bind fun stop => rests_updateState ?_ ?_ ?_ ?_
  all_goals exact fun _ => rfl

/-- Enter a rule whose outcome is not recorded. -/
def enterAnew (rule : Rule) (follow : TokenSet) : Action (Parser σ) (Option RuleStart) := do
  let token ← symbol
  let index ← index
  updateState fun s => s.pushFrame rule follow index
  return some ⟨rule, index, token⟩

lemma rests_enterAnew (rule : Rule) (follow : TokenSet) :
    Within Rests (enterAnew rule follow : Action (Parser σ) (Option RuleStart)) := by
  refine rests_symbol.bind fun token => (Within.read _).bind fun start => ?_
  refine Within.bind (rests_updateState ?_ ?_ ?_ ?_) fun _ => Within.pure _
  all_goals exact fun _ => rfl

lemma still_enterRule (rule : Rule) (follow : TokenSet) :
    Within Still (enterRule rule follow : Action (Parser σ) (Option RuleStart)) :=
  (still_replay rule).bind fun _ =>
    Within.ite (Within.pure _) (still_of_rests (rests_enterAnew rule follow))

lemma rests_beginTree : Within Rests (beginTree : Action (Parser σ) (Option NodeId)) :=
  (Within.read _).bind fun _ =>
    Within.ite (Within.pure _) (rests_stepOwn.bind fun _ => Within.pure _)

lemma rests_addLeaf (parent : Option NodeId) (token : Token) :
    Within Rests (addLeaf parent token : Action (Parser σ) Unit) := by
  refine (Within.read _).bind fun backtracking => ?_
  split
  · exact rests_stepOwn.bind fun _ => rests_updateOwn
  · exact Within.pure _

lemma rests_addSubtree (parent child : Option NodeId) :
    Within Rests (addSubtree parent child : Action (Parser σ) Unit) := by
  refine (Within.read _).bind fun backtracking => ?_
  split
  · exact rests_updateOwn
  · exact Within.pure _

lemma rests_addRoot (root : Option NodeId) (token : Token) :
    Within Rests (addRoot root token : Action (Parser σ) (Option NodeId)) := by
  refine (Within.read _).bind fun backtracking => ?_
  split
  · refine rests_stepOwn.bind fun leaf => (Within.read _).bind fun merged => ?_
    split
    · exact rests_updateOwn.bind fun _ => Within.pure _
    · exact Within.fault _
  · exact Within.pure _

lemma rests_finishTree (root : Option NodeId) (start : RuleStart) :
    Within Rests (finishTree root start : Action (Parser σ) (Option NodeId)) := by
  refine (Within.read _).bind fun backtracking => ?_
  split
  · refine rests_stepOwn.bind fun result => ?_
    split
    · exact (rests_lookBehind 1).bind fun _ => rests_updateOwn.bind fun _ => Within.pure _
    · exact Within.pure _
  · exact Within.pure _

/-! ## Repairs -/

lemma rests_canDelete (needed : TokenType → Bool) :
    Within Rests (canDelete needed : Action (Parser σ) Bool) :=
  (Within.read _).bind fun _ =>
    Within.ite ((rests_lookahead 2).bind fun _ => Within.pure _) (Within.pure _)

lemma rests_canFollow (follow : TokenSet) :
    Within Rests (canFollow follow : Action (Parser σ) Bool) := by
  have hcheck (viable : TokenSet) : Within Rests (do
      let type ← lookahead 1
      return viable.has type || viable.has .endOfRule : Action (Parser σ) Bool) :=
    (rests_lookahead 1).bind fun _ => Within.pure _
  have hexact : Within Rests (stepState State.exactFollow : Action (Parser σ) TokenSet) :=
    Within.step fun _ => ⟨Stays.refl _, rfl, rfl, rfl, rfl, rfl⟩
  refine Within.ite (Within.pure _) (Within.ite ?_ (hcheck follow))
  exact hexact.bind fun exact => (Within.read _).bind fun inRule =>
    (Within.pure _).bind hcheck

lemma rests_canInsert (follow : TokenSet) :
    Within Rests (canInsert follow : Action (Parser σ) Bool) :=
  (Within.read _).bind fun _ => Within.ite (rests_canFollow follow) (Within.pure _)

/-! ## Reports -/

/-- A failure is kept back while an earlier one is recovered from, and counted otherwise. -/
lemma report_cases (s : State) (f : Failure) :
    s.recovering = true ∧ s.report f = (.suppressed, s) ∨
      s.recovering = false ∧ (s.report f).1 ≠ .suppressed ∧
        (s.report f).2.recovering = true ∧ (s.report f).2.syntaxErrors = s.syntaxErrors + 1 := by
  unfold State.report
  by_cases h : s.recovering = true
  · exact .inl ⟨h, by rw [if_pos h]⟩
  · refine .inr ⟨by simpa using h, ?_⟩
    rw [if_neg h]
    simp only
    split
    · exact ⟨by simp, rfl, rfl⟩
    · exact ⟨by simp, rfl, rfl⟩

lemma report_backtracking (s : State) (f : Failure) :
    (s.report f).2.backtracking = s.backtracking := by
  unfold State.report
  split
  · rfl
  · simp only
    split <;> rfl

/-- Nothing is reported, or one failure is, and the recovery from it goes on. -/
structure Calm (r r' : Parser σ) : Prop extends Onward r r' where
  once : r.state.ReportsOnce r'.state

instance : IsPreorder (Parser σ) Calm where
  refl r := ⟨refl_of Onward r, .refl r.state⟩
  trans _ _ _ h h' := ⟨trans_of Onward h.toOnward h'.toOnward, h.once.trans h'.once⟩

lemma Still.calm (h : Still r r') : Calm r r' :=
  ⟨h.onward, .inl ⟨h.recovering_eq, h.syntaxErrors_eq, h.diagnostics_eq⟩⟩

/-- A failure was reported, and the recovery from it has begun. -/
structure Reports (r r' : Parser σ) : Prop extends Onward r r' where
  free : r.state.recovering = false
  recovering : r'.state.recovering = true
  syntaxErrors_eq : r'.state.syntaxErrors = r.state.syntaxErrors + 1

lemma Reports.calm (h : Reports r r') : Calm r r' :=
  ⟨h.toOnward, .inr ⟨h.free, h.recovering, h.syntaxErrors_eq⟩⟩

/-- What is added to a report leaves it a report. -/
lemma Reports.steady {r₁ : Parser σ} (h : Reports r r₁) (h' : Steady r₁ r') : Reports r r' :=
  ⟨trans_of Onward h.toOnward h'.onward, h.free, h'.recovering_eq.trans h.recovering,
    h'.syntaxErrors_eq.trans h.syntaxErrors_eq⟩

omit [TokenSource σ] in
lemma reportFailure_eq_some {f : Failure} {o : Except Fault Report}
    (hrun : reportFailure f r = some (o, r')) :
    ∃ report s, r.state.report f = (report, s) ∧
      (report = .budgetExhausted ∧ o = .error (.failed f) ∧
          r' = { r with state := s.escalate f } ∨
        report ≠ .budgetExhausted ∧ o = .ok report ∧ r' = { r with state := s }) := by
  rcases hreport : r.state.report f with ⟨report, s⟩
  refine ⟨report, s, rfl, ?_⟩
  simp only [reportFailure, bind_apply, stepState_apply, hreport] at hrun
  cases report with
  | budgetExhausted =>
    obtain ⟨rfl, rfl⟩ := Prod.mk.inj (Option.some.inj hrun)
    exact .inl ⟨rfl, rfl, rfl⟩
  | recorded =>
    obtain ⟨rfl, rfl⟩ := Prod.mk.inj (Option.some.inj hrun)
    exact .inr ⟨by decide, rfl, rfl⟩
  | suppressed =>
    obtain ⟨rfl, rfl⟩ := Prod.mk.inj (Option.some.inj hrun)
    exact .inr ⟨by decide, rfl, rfl⟩

/-- A failure is kept back while an earlier one is recovered from, and otherwise it is counted. -/
lemma reportFailure_cases {f : Failure} {o : Except Fault Report}
    (h : reportFailure f r = some (o, r')) :
    r.state.recovering = true ∧ o = .ok .suppressed ∧ r' = r ∨ Reports r r' := by
  simp only [reportFailure, bind_apply, stepState_apply] at h
  rcases report_cases r.state f with ⟨hrec, hreport⟩ | ⟨hfree, hne, hrec, hcount⟩
  · rw [hreport] at h
    obtain ⟨rfl, rfl⟩ := Prod.mk.inj (Option.some.inj h)
    exact .inl ⟨hrec, rfl, rfl⟩
  · have hdepth : (r.state.report f).2.backtracking = r.state.backtracking :=
      report_backtracking r.state f
    have hreported : Reports r { r with state := (r.state.report f).2 } :=
      ⟨⟨Roams.refl _, rfl, hdepth, by simp only; omega⟩, hfree, hrec, hcount⟩
    rcases hcase : (r.state.report f).1
    · simp only [hcase] at h
      obtain ⟨-, rfl⟩ := Prod.mk.inj (Option.some.inj h)
      exact .inr hreported
    · exact absurd hcase hne
    · simp only [hcase] at h
      obtain ⟨-, rfl⟩ := Prod.mk.inj (Option.some.inj h)
      exact .inr (hreported.steady ⟨Roams.refl _, rfl, rfl, rfl, rfl⟩)

/-! ## Matches -/

/-- If `x` succeeds, then no error is being recovered from any more, and if it fails, then nothing
has been mended. -/
def Mends (x : Action (Parser σ) α) : Prop :=
  ∀ ⦃r : Parser σ⦄ ⦃o : Except Fault α⦄ ⦃r' : Parser σ⦄, x r = some (o, r') →
    Onward r r' ∧ (∀ a, o = .ok a → r'.state.recovering = false) ∧ ∀ e, o = .error e → Calm r r'

/-- If `x` ends, then it has succeeded and ended the recovery. -/
def Closes (x : Action (Parser σ) α) : Prop :=
  ∀ ⦃r : Parser σ⦄ ⦃o : Except Fault α⦄ ⦃r' : Parser σ⦄, x r = some (o, r') →
    Onward r r' ∧ (∃ a, o = .ok a) ∧ r'.state.recovering = false

lemma Closes.mends {x : Action (Parser σ) α} (h : Closes x) : Mends x := by
  intro r o r' hrun
  obtain ⟨honward, ⟨a, rfl⟩, hrec⟩ := h hrun
  exact ⟨honward, fun _ _ => hrec, fun e he => by cases he⟩

lemma Closes.bind {x : Action (Parser σ) α} {f : α → Action (Parser σ) β} (hx : Within Onward x)
    (hreturns : Returns x fun _ => True) (hf : ∀ a, Closes (f a)) : Closes (x >>= f) := by
  intro r o r' hrun
  rcases bind_eq_some.1 hrun with ⟨a, r₁, hx₁, hf₁⟩ | ⟨e, hx₁, rfl⟩
  · obtain ⟨honward, hok, hrec⟩ := hf a hf₁
    exact ⟨trans_of Onward (hx hx₁) honward, hok, hrec⟩
  · obtain ⟨a, ha, -⟩ := hreturns hx₁
    cases ha

/-- What ends a recovery, and a result. -/
lemma Closes.final {f : State → State} (hbacktracking : ∀ s, (f s).backtracking = s.backtracking)
    (hrecovering : ∀ s, (f s).recovering = false)
    (hsyntaxErrors : ∀ s, (f s).syntaxErrors = s.syntaxErrors) (a : α) :
    Closes (updateState f >>= fun _ => pure a : Action (Parser σ) α) := by
  intro r o r' hrun
  obtain ⟨rfl, rfl⟩ := Prod.mk.inj (Option.some.inj hrun)
  exact ⟨⟨Roams.refl _, rfl, hbacktracking _, Nat.le_of_eq (hsyntaxErrors _).symm⟩, ⟨a, rfl⟩,
    hrecovering _⟩

namespace Mends

lemma onward {x : Action (Parser σ) α} (hx : Mends x) : Within Onward x :=
  fun _ _ _ hrun => (hx hrun).1

lemma bind_still {x : Action (Parser σ) α} {f : α → Action (Parser σ) β} (hx : Within Still x)
    (hf : ∀ a, Mends (f a)) : Mends (x >>= f) := by
  intro r o r' hrun
  rcases bind_eq_some.1 hrun with ⟨a, r₁, hx₁, hf₁⟩ | ⟨e, hx₁, rfl⟩
  · obtain ⟨honward, hok, herror⟩ := hf a hf₁
    exact ⟨trans_of Onward (hx hx₁).onward honward, hok,
      fun e he => trans_of Calm (hx hx₁).calm (herror e he)⟩
  · exact ⟨(hx hx₁).onward, fun a ha => by (cases ha), fun _ _ => (hx hx₁).calm⟩

lemma bind_rests {x : Action (Parser σ) α} {f : α → Action (Parser σ) β} (hx : Within Rests x)
    (hf : ∀ a, Mends (f a)) : Mends (x >>= f) := .bind_still (still_of_rests hx) hf

/-- A match stays one if things are done behind it that cannot fail. -/
lemma and_then {x : Action (Parser σ) α} {f : α → Action (Parser σ) β} (hx : Mends x)
    (hf : ∀ a, Within Still (f a)) (hreturns : ∀ a, Returns (f a) fun _ => True) :
    Mends (x >>= f) := by
  intro r o r' hrun
  rcases bind_eq_some.1 hrun with ⟨a, r₁, hx₁, hf₁⟩ | ⟨e, hx₁, rfl⟩
  · obtain ⟨honward, hok, -⟩ := hx hx₁
    obtain ⟨b, rfl, -⟩ := hreturns a hf₁
    refine ⟨trans_of Onward honward (hf a hf₁).onward, fun _ _ => ?_, fun e he => by cases he⟩
    rw [(hf a hf₁).recovering_eq]
    exact hok a rfl
  · obtain ⟨honward, -, herror⟩ := hx hx₁
    exact ⟨honward, fun a ha => by (cases ha), fun _ _ => herror e rfl⟩

/-- A reported failure that is mended. -/
lemma report_bind {f : Failure} {g : Report → Action (Parser σ) α}
    (hg : ∀ report, Closes (g report)) : Mends (reportFailure f >>= g) := by
  intro r o r' hrun
  rcases bind_eq_some.1 hrun with ⟨report, r₁, hreport, hg₁⟩ | ⟨e, hreport, rfl⟩
  · obtain ⟨honward, ⟨a, rfl⟩, hrec⟩ := hg report hg₁
    have hbefore : Onward r r₁ := by
      rcases reportFailure_cases hreport with ⟨-, -, rfl⟩ | h
      · exact refl_of Onward r₁
      · exact h.toOnward
    exact ⟨trans_of Onward hbefore honward, fun _ _ => hrec, fun e he => by cases he⟩
  · rcases reportFailure_cases hreport with ⟨-, h, -⟩ | h
    · cases h
    · exact ⟨h.toOnward, fun a ha => by (cases ha), fun _ _ => h.calm⟩

lemma ite {c : Prop} [Decidable c] {x y : Action (Parser σ) α} (hx : Mends x) (hy : Mends y) :
    Mends (if c then x else y) := by
  split
  · exact hx
  · exact hy

/-- What only fails mends nothing. -/
lemma of_still {x : Action (Parser σ) α} (hx : Within Still x) (hfault : Faults x) : Mends x := by
  intro r o r' hrun
  obtain ⟨e, rfl⟩ := hfault hrun
  exact ⟨(hx hrun).onward, fun a ha => by (cases ha), fun _ _ => (hx hrun).calm⟩

end Mends

/-! ## The parser's matches -/

lemma steady_updateState {f : State → State}
    (hbacktracking : ∀ s, (f s).backtracking = s.backtracking)
    (hrecovering : ∀ s, (f s).recovering = s.recovering)
    (hsyntaxErrors : ∀ s, (f s).syntaxErrors = s.syntaxErrors) :
    Within Steady (updateState f : Action (Parser σ) Unit) :=
  Within.update fun _ =>
    ⟨Roams.refl _, rfl, hbacktracking _, hrecovering _, hsyntaxErrors _⟩

lemma onward_suggest (report : Report) (hint : String) :
    Within Onward (suggest report hint : Action (Parser σ) Unit) := by
  refine Within.ite (Within.mono (fun _ _ => Steady.onward) (steady_updateState ?_ ?_ ?_))
    (Within.pure _)
  all_goals exact fun _ => rfl

omit [TokenSource σ] in
lemma returns_suggest (report : Report) (hint : String) :
    Returns (suggest report hint : Action (Parser σ) Unit) fun _ => True := by
  unfold suggest
  split
  · exact Returns.update
  · exact Returns.pure trivial

omit [TokenSource σ] in
lemma returns_stepInput {f : TokenStream σ → α × TokenStream σ} :
    Returns (stepInput f : Action (Parser σ) α) fun _ => True := Returns.step

lemma mends_giveUp : Mends (giveUp : Action (Parser σ) α) :=
  .of_still (still_of_rests rests_giveUp) (Faults.bind fun _ => Faults.fault _)

lemma mends_fail (kind : FailureKind) (expected : Option TokenSet) :
    Mends (fail kind expected : Action (Parser σ) α) := by
  refine .of_still (still_of_rests (rests_fail kind expected))
    (Faults.bind fun depth => Faults.ite ?_ ?_)
  · exact Faults.bind fun _ => Faults.fault _
  · exact Faults.bind fun _ => Faults.fault _

lemma closes_matchAny : Closes (matchAny : Action (Parser σ) Token) := by
  refine .bind (onward_of_rests rests_symbol) returns_stepInput fun token => ?_
  refine .bind (onward_of_still still_consume) Returns.update fun _ => .final ?_ ?_ ?_ token
  all_goals exact fun _ => rfl

lemma mends_deleteUnwanted (expected : TokenSet) :
    Mends (deleteUnwanted expected : Action (Parser σ) Token) := by
  refine .bind_rests (rests_failureHere _ _) fun failure => .report_bind fun report => ?_
  refine .bind (onward_of_still still_consume) Returns.update fun _ => ?_
  refine .bind (onward_of_rests (rests_lookBehind 1)) returns_stepInput fun removed => ?_
  refine .bind (onward_suggest _ _) (returns_suggest _ _) fun _ => ?_
  refine .bind (onward_of_rests rests_symbol) returns_stepInput fun token => ?_
  refine .bind (onward_of_still still_consume) Returns.update fun _ => .final ?_ ?_ ?_ token
  all_goals exact fun _ => rfl

lemma mends_insertMissing (type : TokenType) :
    Mends (insertMissing type : Action (Parser σ) Token) := by
  refine .bind_rests (rests_failureHere _ _) fun failure => ?_
  refine .bind_still (Within.read _) fun name => ?_
  refine .report_bind fun report => .bind (onward_suggest _ _) (returns_suggest _ _) fun _ => ?_
  refine .final ?_ ?_ ?_ _
  all_goals exact fun _ => rfl

/-- A match of the current token, or its repair, or a failure. -/
lemma matchToken_eq (type : TokenType) (follow : TokenSet) :
    (matchToken type follow : Action (Parser σ) Token) = (do
      if (← lookahead 1) = type then matchAny
      else if ← isBacktracking then giveUp
      else if ← canDelete (· == type) then deleteUnwanted (.ofTypes [type])
      else if ← canInsert follow then insertMissing type
      else fail (.mismatchedToken type) (some (.ofTypes [type]))) := by
  unfold matchToken
  refine bind_congr fun here => ite_congr rfl (fun _ => rfl) fun _ => ?_
  refine bind_congr fun backtracking => ite_congr rfl (fun _ => rfl) fun _ => ?_
  rw [repairToken, bind_assoc]
  refine bind_congr fun deletes => ?_
  split
  · rw [bind_assoc]
    exact bind_pure _
  · rw [bind_assoc]
    refine bind_congr fun inserts => ?_
    split
    · rw [bind_assoc]
      exact bind_pure _
    · rfl

lemma matchSet_eq (set follow : TokenSet) :
    (matchSet set follow : Action (Parser σ) Token) = (do
      if set.has (← lookahead 1) then matchAny
      else if ← isBacktracking then giveUp
      else if set.isNil then fail .mismatchedSet (some set)
      else if ← canDelete set.has then deleteUnwanted set
      else
        match set.types with
        | [only] =>
          if ← canInsert follow then insertMissing only else fail .mismatchedSet (some set)
        | _ => fail .mismatchedSet (some set)) := by
  unfold matchSet
  refine bind_congr fun here => ite_congr rfl (fun _ => rfl) fun _ => ?_
  refine bind_congr fun backtracking => ite_congr rfl (fun _ => rfl) fun _ => ?_
  unfold repairSet
  split
  · rfl
  · rw [bind_assoc]
    refine bind_congr fun deletes => ?_
    split
    · rw [bind_assoc]
      exact bind_pure _
    · rcases set.types with _ | ⟨only, _ | ⟨_, _⟩⟩
      · rfl
      · show (canInsert follow >>= _) >>= _ = _
        rw [bind_assoc]
        refine bind_congr fun inserts => ?_
        split
        · rw [bind_assoc]
          exact bind_pure _
        · rfl
      · rfl

lemma mends_matchToken (type : TokenType) (follow : TokenSet) :
    Mends (matchToken type follow : Action (Parser σ) Token) := by
  rw [matchToken_eq]
  refine .bind_rests (rests_lookahead 1) fun here => .ite closes_matchAny.mends ?_
  refine .bind_still (Within.read _) fun backtracking => .ite mends_giveUp ?_
  refine .bind_rests (rests_canDelete _) fun deletes => .ite (mends_deleteUnwanted _) ?_
  refine .bind_rests (rests_canInsert follow) fun inserts => .ite (mends_insertMissing type) ?_
  exact mends_fail _ _

lemma mends_matchSet (set follow : TokenSet) :
    Mends (matchSet set follow : Action (Parser σ) Token) := by
  rw [matchSet_eq]
  refine .bind_rests (rests_lookahead 1) fun here => .ite closes_matchAny.mends ?_
  refine .bind_still (Within.read _) fun backtracking => .ite mends_giveUp ?_
  refine .ite (mends_fail _ _) ?_
  refine .bind_rests (rests_canDelete _) fun deletes => .ite (mends_deleteUnwanted _) ?_
  split
  · refine .bind_rests (rests_canInsert follow) fun inserts => ?_
    exact .ite (mends_insertMissing _) (mends_fail _ _)
  · exact mends_fail _ _

/-! ## Leaving a rule -/

lemma still_skipUntil (stopAt : TokenType → Bool) : Within Still
    (stepInput fun s => s.skipUntil stopAt s.bound : Action (Parser σ) Nat) :=
  Within.step fun r => ⟨r.input.roams_skipUntil _ _, rfl, rfl, rfl, rfl, rfl⟩

/-- The part of a resynchronization that skips, wherever the last one was. -/
def skipAhead (report : Report) (f : Failure) : Action (Parser σ) Unit := do
  let here ← index
  updateState fun s => { s with lastErrorIndex := some here }
  let recovery ← stepState State.recoverySet
  let first ← symbol
  let skipped ← stepInput fun s => s.skipUntil recovery.has s.bound
  let resume ← symbol
  if resume.isEof && !recovery.has .eof then
    updateState fun s => s.escalate f
    .fault (.failed f)
  else if 0 < skipped && report = .recorded then
    updateState fun s => s.addDiagnostic (skippedNote skipped first resume f.context)

lemma resynchronize_eq (report : Report) (f : Failure) :
    (resynchronize report f : Action (Parser σ) Unit) = (do
      let here ← index
      if (← readState State.lastErrorIndex) = some here then consume
      skipAhead report f) := rfl

/-- Beyond moving the input, only a note on skipped input is more than bookkeeping, and there is
none for a failure that was kept back. -/
lemma resynchronize_within {R : Parser σ → Parser σ → Prop} [IsPreorder (Parser σ) R]
    (hrest : ∀ r r', Rests r r' → R r r') (hconsume : Within R consume)
    (hskip : ∀ stopAt, Within R (stepInput fun s => s.skipUntil stopAt s.bound)) (report : Report)
    (f : Failure)
    (hnote : report = .recorded → ∀ d,
      Within R (updateState fun s => s.addDiagnostic d : Action (Parser σ) Unit)) :
    Within R (resynchronize report f) := by
  have hrests {α : Type} {x : Action (Parser σ) α} (hx : Within Rests x) : Within R x :=
    hx.mono hrest
  have hskip : Within R (skipAhead report f) := by
    refine (Within.read _).bind fun here => ?_
    have hlast : Within Rests (updateState fun s => { s with lastErrorIndex := some here } :
        Action (Parser σ) Unit) :=
      rests_updateState (fun _ => rfl) (fun _ => rfl) (fun _ => rfl) fun _ => rfl
    have hrecovery : Within Rests (stepState State.recoverySet : Action (Parser σ) TokenSet) :=
      Within.step fun _ => ⟨Stays.refl _, rfl, rfl, rfl, rfl, rfl⟩
    refine (hrests hlast).bind fun _ => (hrests hrecovery).bind fun recovery => ?_
    refine (hrests rests_symbol).bind fun first => (hskip _).bind fun skipped => ?_
    refine (hrests rests_symbol).bind fun resume => Within.ite ?_ ?_
    · refine Within.bind (hrests (rests_updateState ?_ ?_ ?_ ?_)) fun _ => Within.fault _
      all_goals exact fun _ => rfl
    · split
      · rename_i h
        simp only [Bool.and_eq_true, decide_eq_true_eq] at h
        exact hnote h.2 _
      · exact Within.pure _
  rw [resynchronize_eq]
  refine (Within.read _).bind fun here => (Within.read _).bind fun last => ?_
  split
  · exact hconsume.bind fun _ => hskip
  · exact hskip

/-- What follows the report of a failure that leaves a rule is bookkeeping but for the
resynchronization. -/
lemma recoverInRule_eq (start : RuleStart) (f : Failure) :
    ∃ after : Report → Action (Parser σ) (Option NodeId),
      recoverInRule start f = reportFailure f >>= after ∧
        ∀ {R : Parser σ → Parser σ → Prop} [IsPreorder (Parser σ) R],
          (∀ r r', Rests r r' → R r r') → ∀ report, Within R (resynchronize report f) →
            Within R (after report) := by
  refine ⟨_, rfl, fun hrest report hresync => hresync.bind fun _ => ?_⟩
  refine ((rests_lookBehind 1).mono hrest).bind fun last => (Within.read _).bind fun text => ?_
  exact (rests_stepOwn.mono hrest).bind fun node => Within.pure _

/-- Recovery from a failure that leaves a rule: a second one in a row is kept back. -/
lemma calm_recoverInRule (start : RuleStart) (f : Failure) :
    Within Calm (recoverInRule start f : Action (Parser σ) (Option NodeId)) := by
  obtain ⟨after, heq, hafter⟩ := recoverInRule_eq (σ := σ) start f
  rw [heq]
  intro r o r' hrun
  rcases bind_eq_some.1 hrun with ⟨report, r₁, hreport, hrest⟩ | ⟨e, hreport, rfl⟩
  · rcases reportFailure_cases hreport with ⟨-, hok, rfl⟩ | h
    · obtain rfl := Except.ok.inj hok
      have hresync : Within Still (resynchronize .suppressed f : Action (Parser σ) Unit) :=
        resynchronize_within (fun _ _ => Rests.still) still_consume still_skipUntil _ f
          fun h => by cases h
      exact (hafter (fun _ _ => Rests.still) _ hresync hrest).calm
    · have hresync : Within Steady (resynchronize report f : Action (Parser σ) Unit) :=
        resynchronize_within (fun _ _ h => h.still.steady)
          (still_consume.mono fun _ _ => Still.steady)
          (fun stopAt => (still_skipUntil stopAt).mono fun _ _ => Still.steady) report f fun _ d =>
            steady_updateState (fun _ => rfl) (fun _ => rfl) fun _ => rfl
      exact (h.steady (hafter (fun _ _ h => h.still.steady) report hresync hrest)).calm
  · rcases reportFailure_cases hreport with ⟨-, h, -⟩ | h
    · cases h
    · exact h.calm

lemma exitRule_within {R : Parser σ → Parser σ → Prop} [IsPreorder (Parser σ) R]
    (hrest : ∀ r r', Rests r r' → R r r') (start : RuleStart)
    (outcome : Except Fault (Option NodeId))
    (hrecover : ∀ f, Within R (recoverInRule start f)) : Within R (exitRule start outcome) := by
  refine (Within.read _).bind fun recovers => Within.bind (Within.attempt ?_) fun result => ?_
  · split
    · exact hrecover _
    · exact Within.ofExcept _
  · refine ((rests_record start result).mono hrest).bind fun _ => ?_
    refine Within.bind (Within.mono hrest (rests_updateState ?_ ?_ ?_ ?_)) fun _ =>
      Within.ofExcept _
    all_goals exact fun _ => rfl

lemma calm_exitRule (start : RuleStart) (outcome : Except Fault (Option NodeId)) :
    Within Calm (exitRule start outcome : Action (Parser σ) (Option NodeId)) :=
  exitRule_within (fun _ _ h => h.still.calm) start outcome (calm_recoverInRule start)

end Parser

end Lookahead
