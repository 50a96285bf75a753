import Lookahead.Proofs.Grammar.Course
import Lookahead.Proofs.Parser.Silence

/-!
# Runs of parsers are courses

What a parser does comes down to a few things: it reads and moves the input and keeps books, it
fails, it reports a failure where it is raised and mends the input, and it leaves a rule, which is
where other failures are reported (`leaving_exitRule`).  The course of a rule call puts what happens
in its body between entering and leaving the rule (`Told.call`).
-/

namespace Lookahead

open Action Cursor Recognizer

variable {σ : Type} [TokenSource σ] {α β : Type} {k : Manner}

lemma TokenStream.losesMarks : LosesMarks (TokenStream σ) where
  rewind h := MarkStack.losesMark_of_rewind (MarkStack.map_eq_error.1 h)
  release h := MarkStack.losesMark_of_release (MarkStack.map_eq_error.1 h)

namespace Parser

variable {r r₁ r' : Parser σ}

/-! ## Reading and keeping books -/

omit [TokenSource σ] in
lemma told_stepState {f : State → α × State} (hf : ∀ s : State, s.Resembles (f s).2) :
    Told k (stepState f : Action (Parser σ) α) := Told.step fun r => ⟨rfl, hf r.state⟩

omit [TokenSource σ] in
lemma told_stepOwn (f : TreeBuilder → α × TreeBuilder) :
    Told k (stepOwn f : Action (Parser σ) α) := Told.step fun r => ⟨rfl, .refl r.state⟩

omit [TokenSource σ] in
lemma told_updateOwn (f : TreeBuilder → TreeBuilder) :
    Told k (updateOwn f : Action (Parser σ) Unit) := Told.update fun r => ⟨rfl, .refl r.state⟩

lemma told_matchAny : Told k (matchAny : Action (Parser σ) Token) :=
  Told.symbol.bind fun token => Told.consume.bind fun _ => Told.noteMatch.bind fun _ =>
    Told.pure token

lemma told_canDelete (needed : TokenType → Bool) :
    Told k (canDelete needed : Action (Parser σ) Bool) :=
  (Told.read _).bind fun _ =>
    .ite ((Told.lookahead 2).bind fun _ => Told.pure _) (Told.pure _)

lemma told_canInsert (follow : TokenSet) :
    Told k (canInsert follow : Action (Parser σ) Bool) := by
  have hcheck (viable : TokenSet) : Told k (do
      let type ← lookahead 1
      return viable.has type || viable.has .endOfRule : Action (Parser σ) Bool) :=
    (Told.lookahead 1).bind fun _ => Told.pure _
  have hexact : Told k (stepState State.exactFollow : Action (Parser σ) TokenSet) :=
    told_stepState fun s => ⟨rfl, rfl, rfl, rfl, rfl, rfl, id⟩
  refine (Told.read _).bind fun _ => .ite (.ite (Told.pure _) (.ite ?_ (hcheck follow)))
    (Told.pure _)
  exact hexact.bind fun _ => (Told.read _).bind fun _ => (Told.pure _).bind hcheck

/-! ## Trees -/

omit [TokenSource σ] in
lemma told_beginTree : Told k (beginTree : Action (Parser σ) (Option NodeId)) :=
  (Told.read _).bind fun _ => .ite (Told.pure _) ((told_stepOwn _).bind fun _ => Told.pure _)

omit [TokenSource σ] in
lemma told_addLeaf (parent : Option NodeId) (token : Token) :
    Told k (addLeaf parent token : Action (Parser σ) Unit) := by
  refine (Told.read _).bind fun backtracking => ?_
  split
  · exact (told_stepOwn _).bind fun _ => told_updateOwn _
  · exact Told.pure _

omit [TokenSource σ] in
lemma told_addSubtree (parent child : Option NodeId) :
    Told k (addSubtree parent child : Action (Parser σ) Unit) := by
  refine (Told.read _).bind fun backtracking => ?_
  split
  · exact told_updateOwn _
  · exact Told.pure _

omit [TokenSource σ] in
lemma told_addRoot (root : Option NodeId) (token : Token) :
    Told k (addRoot root token : Action (Parser σ) (Option NodeId)) := by
  refine (Told.read _).bind fun backtracking => ?_
  split
  · refine (told_stepOwn _).bind fun leaf => (Told.read _).bind fun merged => ?_
    split
    · exact (told_updateOwn _).bind fun _ => Told.pure _
    · exact Told.misuse _
  · exact Told.pure _

lemma told_finishTree (root : Option NodeId) (start : RuleStart) :
    Told k (finishTree root start : Action (Parser σ) (Option NodeId)) := by
  refine (Told.read _).bind fun backtracking => ?_
  split
  · refine (told_stepOwn _).bind fun result => ?_
    split
    · exact (Told.stepInput _).bind fun _ => (told_updateOwn _).bind fun _ => Told.pure _
    · exact Told.pure _
  · exact Told.pure _

omit [TokenSource σ] in
lemma told_setRoot (root : Option NodeId) : Told k (setRoot root : Action (Parser σ) Unit) :=
  told_updateOwn _

omit [TokenSource σ] in
lemma told_withRoot (root : Option NodeId) {body : Action (Parser σ) α} (hbody : Told k body) :
    Told k (withRoot root body) := by
  refine (Told.read _).bind fun outer => (told_setRoot root).bind fun _ => ?_
  refine hbody.attempt_bind fun o r o' r' hrun => ?_
  cases o with
  | ok a =>
    obtain ⟨rfl, rfl⟩ := Prod.mk.inj (Option.some.inj hrun)
    exact ⟨rfl, rfl, rfl⟩
  | error fault =>
    obtain ⟨rfl, rfl⟩ := Prod.mk.inj (Option.some.inj hrun)
    exact ⟨rfl, rfl, rfl⟩

lemma told_runBody (start : RuleStart) {body : Action (Parser σ) Unit} (hbody : Told k body) :
    Told k (runBody start body) :=
  told_beginTree.bind fun root =>
    (told_withRoot root hbody).bind fun root => told_finishTree root start

/-! ## Inline repairs -/

/-- What is only done by a parser that is not backtracking. -/
def Sober (k : Manner) (x : Action (Parser σ) α) : Prop :=
  ∀ ⦃r : Parser σ⦄ ⦃o : Except Fault α⦄ ⦃r' : Parser σ⦄, r.state.backtracking = 0 →
    x r = some (o, r') → Tells k (Fault.ofOutcome o) r r'

namespace Sober

omit [TokenSource σ]

lemma of_told {x : Action (Parser σ) α} (hx : Told k x) : Sober k x :=
  fun _ _ _ _ hrun => hx hrun

lemma ite {c : Prop} [Decidable c] {x y : Action (Parser σ) α} (hx : Sober k x)
    (hy : Sober k y) : Sober k (if c then x else y) := by
  split
  · exact hx
  · exact hy

/-- What is told in every manner does not set the depth of backtracking. -/
lemma bind {x : Action (Parser σ) α} {f : α → Action (Parser σ) β} (hx : ∀ k, Told k x)
    (hf : ∀ a, Sober k (f a)) : Sober k (x >>= f) := by
  intro r o r' hdepth hrun
  rcases bind_eq_some.1 hrun with ⟨a, r₁, hx₁, hf₁⟩ | ⟨e, hx₁, rfl⟩
  · obtain ⟨ms, hcourse, -⟩ := hx .strict hx₁
    have hdepth₁ : r₁.state.backtracking = 0 := (hcourse.level.backtracking_eq id).trans hdepth
    exact (hx k hx₁).trans (hf a hdepth₁ hf₁)
  · exact hx k hx₁

end Sober

omit [TokenSource σ] in
/-- A failure that is reported where it is raised. -/
lemma tells_reportFailure (hk : k.mends) {f : Failure} {o : Except Fault Report}
    (hdepth : r.state.backtracking = 0) (hcontext : f.context = r.state.context)
    (hrun : reportFailure f r = some (o, r')) :
    Tells k (Fault.ofOutcome o) r r' ∧ r'.state.backtracking = 0 := by
  obtain ⟨report, s, hreport, ⟨rfl, rfl, rfl⟩ | ⟨hgo, rfl, rfl⟩⟩ := reportFailure_eq_some hrun
  · refine ⟨⟨_, .exhaust hk hdepth hcontext hreport, (List.append_nil _).symm⟩, ?_⟩
    exact ((State.level_report (k := .strict) hreport).backtracking_eq id).trans hdepth
  · refine ⟨⟨_, .repair hk hdepth hcontext hreport hgo, (List.append_nil _).symm⟩, ?_⟩
    exact ((State.level_report (k := .strict) hreport).backtracking_eq id).trans hdepth

omit [TokenSource σ] in
lemma tells_reported (hk : k.mends) {f : Failure} {g : Report → Action (Parser σ) α}
    {o : Except Fault α} (hg : ∀ report, Sober k (g report)) (hdepth : r.state.backtracking = 0)
    (hcontext : f.context = r.state.context)
    (hrun : (reportFailure f >>= g) r = some (o, r')) : Tells k (Fault.ofOutcome o) r r' := by
  rcases bind_eq_some.1 hrun with ⟨report, r₁, hreport, hmended⟩ | ⟨e, hreport, rfl⟩
  · obtain ⟨htells, hdepth₁⟩ := tells_reportFailure hk hdepth hcontext hreport
    exact htells.trans (hg report hdepth₁ hmended)
  · exact (tells_reportFailure hk hdepth hcontext hreport).1

/-- What is done about a failure that is made here knows that it carries the path of rules. -/
lemma sober_made {kind : FailureKind} {expected : Option TokenSet}
    {g : Failure → Action (Parser σ) α}
    (hg : ∀ f ⦃r : Parser σ⦄ ⦃o⦄ ⦃r' : Parser σ⦄, r.state.backtracking = 0 →
      f.context = r.state.context → g f r = some (o, r') → Tells k (Fault.ofOutcome o) r r') :
    Sober k (failureHere kind expected >>= g) := by
  intro r o r' hdepth hrun
  rcases bind_eq_some.1 hrun with ⟨f, r₁, hmake, hrest⟩ | ⟨e, hmake, rfl⟩
  · obtain ⟨_, ⟨⟩, hcontext, hidle⟩ := Told.failureHere_eq_some hmake
    refine (Tells.of_idle hidle).trans (hg f ?_ ?_ hrest)
    · exact hidle.resembles.backtracking_eq.trans hdepth
    · rw [hcontext, hidle.resembles.context_eq]
  · obtain ⟨_, ⟨⟩, -⟩ := Told.failureHere_eq_some hmake

omit [TokenSource σ] in
lemma sober_suggest (hk : k.mends) (report : Report) (hint : String) :
    Sober k (suggest report hint : Action (Parser σ) Unit) := by
  refine .ite ?_ (.of_told (Told.pure _))
  intro r o r' hdepth hrun
  obtain ⟨rfl, rfl⟩ := Prod.mk.inj (Option.some.inj hrun)
  exact .of_course (.hint hk hdepth hint) rfl

omit [TokenSource σ] in
/-- Nothing that comes behind the fix depends on the depth. -/
lemma sober_suggest_bind (hk : k.mends) (report : Report) (hint : String)
    {x : Action (Parser σ) α} (hx : Told k x) :
    Sober k (do
      suggest report hint
      x) := by
  intro r o r' hdepth hrun
  rcases bind_eq_some.1 hrun with ⟨_, r₁, hsuggest, hx₁⟩ | ⟨e, hsuggest, rfl⟩
  · exact (sober_suggest hk report hint hdepth hsuggest).trans (hx hx₁)
  · exact sober_suggest hk report hint hdepth hsuggest

omit [TokenSource σ] in
lemma told_endRepair : Told k (endRepair : Action (Parser σ) Unit) :=
  Told.updateState fun _ => ⟨rfl, rfl, rfl, rfl, rfl, rfl, fun h => nomatch h⟩

lemma sober_deleteUnwanted (hk : k.mends) (expected : TokenSet) :
    Sober k (deleteUnwanted expected : Action (Parser σ) Token) := by
  refine sober_made fun f r o r' hdepth hcontext hrun => ?_
  refine tells_reported hk (fun report => .bind (fun _ => Told.consume) fun _ => ?_) hdepth hcontext
    hrun
  refine .bind (fun _ => Told.stepInput _) fun removed => sober_suggest_bind hk report _ ?_
  refine Told.symbol.bind fun token => Told.consume.bind fun _ => ?_
  exact told_endRepair.bind fun _ => Told.pure token

lemma sober_insertMissing (hk : k.mends) (type : TokenType) :
    Sober k (insertMissing type : Action (Parser σ) Token) := by
  refine sober_made fun f r o r' hdepth hcontext hrun => ?_
  refine tells_reported hk (fun report => ?_) hdepth hcontext hrun
  exact sober_suggest_bind hk report _ (told_endRepair.bind fun _ => Told.pure _)

/-! ## Matching -/

omit [TokenSource σ] in
/-- A parser that is backtracking gives up on a mismatch. -/
lemma told_or_giveUp {x : Action (Parser σ) α} (hx : Sober k x) : Told k (do
    if ← isBacktracking then giveUp else x : Action (Parser σ) α) := by
  intro r o r' hrun
  rw [bind_apply, isBacktracking_apply] at hrun
  by_cases hdepth : 0 < r.state.backtracking
  · simp only [hdepth, decide_true] at hrun
    exact Told.tells_giveUp hdepth hrun
  · simp only [hdepth, decide_false] at hrun
    exact hx (Nat.eq_zero_of_not_pos hdepth) hrun

lemma told_matchToken (hk : k.mends) (type : TokenType) (follow : TokenSet) :
    Told k (matchToken type follow : Action (Parser σ) Token) := by
  rw [matchToken_eq]
  refine (Told.lookahead 1).bind fun here => .ite told_matchAny (told_or_giveUp ?_)
  refine .bind (fun _ => told_canDelete _) fun deletes => .ite (sober_deleteUnwanted hk _) ?_
  refine .bind (fun _ => told_canInsert _) fun inserts => .ite (sober_insertMissing hk _) ?_
  exact .of_told (Told.fail _ _)

lemma told_matchSet (hk : k.mends) (set follow : TokenSet) :
    Told k (matchSet set follow : Action (Parser σ) Token) := by
  have hfail : Sober k (fail .mismatchedSet (some set) : Action (Parser σ) Token) :=
    .of_told (Told.fail _ _)
  rw [matchSet_eq]
  refine (Told.lookahead 1).bind fun here => .ite told_matchAny (told_or_giveUp (.ite hfail ?_))
  refine .bind (fun _ => told_canDelete _) fun deletes => .ite (sober_deleteUnwanted hk _) ?_
  split
  · exact .bind (fun _ => told_canInsert _) fun inserts =>
      .ite (sober_insertMissing hk _) hfail
  · exact hfail

/-! ## Leaving a rule -/

/-- A resynchronization ends with giving up, or with a note on what was skipped. -/
lemma skipAhead_eq_some {report : Report} {f : Failure} {o : Except Fault Unit}
    (hrun : skipAhead report f r = some (o, r')) :
    r'.trace = r.trace ∧
      ((∃ s, r.state.Resembles s ∧ o = .error (.failed f) ∧ r'.state = s.escalate f) ∨
        ∃ notes : List Diagnostic,
          (∀ d ∈ notes, d.severity = .hint ∧ d.code = .skippedInput ∧ d.context = f.context) ∧
            o = .ok () ∧ (r.state.explained notes).Resembles r'.state) := by
  simp only [skipAhead, bind_apply, index_apply, updateState_apply, stepState_apply,
    stepInput_apply, Recognizer.symbol] at hrun
  split at hrun
  · obtain ⟨rfl, rfl⟩ := Prod.mk.inj (Option.some.inj hrun)
    refine ⟨rfl, .inl ⟨_, ?_, rfl, rfl⟩⟩
    exact ⟨rfl, rfl, rfl, rfl, rfl, rfl, id⟩
  · split at hrun
    · obtain ⟨rfl, rfl⟩ := Prod.mk.inj (Option.some.inj hrun)
      refine ⟨rfl, .inr ⟨[_], ?_, rfl, rfl, rfl, rfl, rfl, rfl, rfl, id⟩⟩
      intro d hd
      rw [List.mem_singleton.mp hd]
      exact ⟨rfl, rfl, rfl⟩
    · obtain ⟨rfl, rfl⟩ := Prod.mk.inj (Option.some.inj hrun)
      refine ⟨rfl, .inr ⟨[], fun d hd => absurd hd List.not_mem_nil, rfl, ?_⟩⟩
      exact ⟨rfl, rfl, rfl, rfl, (List.append_nil _).symm, rfl, id⟩

lemma resynchronize_eq_some {report : Report} {f : Failure} {o : Except Fault Unit}
    (hrun : resynchronize report f r = some (o, r')) :
    r'.trace = r.trace ∧
      ((∃ s, r.state.Resembles s ∧ o = .error (.failed f) ∧ r'.state = s.escalate f) ∨
        ∃ notes : List Diagnostic,
          (∀ d ∈ notes, d.severity = .hint ∧ d.code = .skippedInput ∧ d.context = f.context) ∧
            o = .ok () ∧ (r.state.explained notes).Resembles r'.state) := by
  rw [resynchronize_eq] at hrun
  simp only [bind_apply, index_apply, readState_apply] at hrun
  split at hrun
  · exact skipAhead_eq_some (r := { r with input := Cursor.consume r.input }) hrun
  · exact skipAhead_eq_some hrun

lemma leaving_recoverInRule (hk : k.mends) {start : RuleStart} {f : Failure}
    {o : Except Fault (Option NodeId)} (hdepth : r.state.backtracking = 0)
    (hopen : r.state.escalated = false) (hrun : recoverInRule start f r = some (o, r')) :
    (∃ ms, Leaving k (some (.failed f)) r.state ms (Fault.ofOutcome o) r'.state) ∧
      r'.trace = r.trace := by
  rcases bind_eq_some.1 hrun with ⟨report, r₁, hreport, hrest⟩ | ⟨e, hreport, rfl⟩
  · obtain ⟨_, s, hs, ⟨-, ⟨⟩, -⟩ | ⟨hgo, ⟨⟩, rfl⟩⟩ := reportFailure_eq_some hreport
    rcases bind_eq_some.1 hrest with ⟨_, r₂, hresync, hafter⟩ | ⟨e, hresync, rfl⟩
    · obtain ⟨htrace, ⟨_, _, ⟨⟩, _⟩ | ⟨notes, hnotes, -, hwork⟩⟩ := resynchronize_eq_some hresync
      obtain ⟨rfl, rfl⟩ := Prod.mk.inj (Option.some.inj hafter)
      exact ⟨⟨_, .mend hk hdepth hopen hs hgo hnotes hwork⟩, htrace⟩
    · obtain ⟨htrace, ⟨s₂, hwork, he, hstate⟩ | ⟨_, _, ⟨⟩, _⟩⟩ := resynchronize_eq_some hresync
      cases he
      refine ⟨⟨_, .giveUp hdepth hopen hs hwork ?_⟩, htrace⟩
      exact hstate ▸ .refl _
  · obtain ⟨report, s, hs, ⟨rfl, ⟨⟩, rfl⟩ | ⟨-, ⟨⟩, -⟩⟩ := reportFailure_eq_some hreport
    exact ⟨⟨_, .giveUp hdepth hopen hs (.refl s) (.refl _)⟩, rfl⟩

/-- Does the parser recover from failures that leave a rule? Not in a speculation, nor after it has
given up. -/
def recovers (s : State) : Bool := s.backtracking = 0 && !s.escalated

lemma leaving_handling (hk : k.mends) {start : RuleStart}
    {outcome o : Except Fault (Option NodeId)}
    (hrun : handling (recoverInRule start) outcome (recovers r.state) r = some (o, r')) :
    (∃ ms, Leaving k (Fault.ofOutcome outcome) r.state ms (Fault.ofOutcome o) r'.state) ∧
      r'.trace = r.trace :=
  Told.leaving_handling _ (fun _ => leaving_recoverInRule hk) hrun

lemma exitRule_eq (start : RuleStart) (outcome : Except Fault (Option NodeId)) :
    (exitRule start outcome : Action (Parser σ) (Option NodeId)) =
      readState recovers >>= fun handles =>
        (handling (recoverInRule start) outcome handles).attempt >>= leave start := by
  refine congrArg (readState recovers >>= ·) (funext fun handles => ?_)
  rcases outcome with (_ | _ | _) | _ <;> cases handles <;> rfl

lemma leaving_exitRule (hk : k.mends) {start : RuleStart}
    {outcome o : Except Fault (Option NodeId)} (hrun : exitRule start outcome r = some (o, r')) :
    ∃ ms s, Leaving k (Fault.ofOutcome outcome) r.state ms (Fault.ofOutcome o) s ∧
      r'.state = s.popFrame ∧ r'.trace = r.trace := by
  rw [exitRule_eq, bind_apply, readState_apply] at hrun
  exact Told.leaving_leave (fun _ _ => leaving_handling hk) hrun

/-! ## Calling a rule -/

lemma enters_enterRule {rule : Rule} {follow : TokenSet} {o : Except Fault (Option RuleStart)}
    (hrun : enterRule rule follow r = some (o, r')) : Enters rule r o r' := by
  refine Told.enters_of_replay (fun r o r' hrun => ?_) hrun
  obtain ⟨rfl, rfl⟩ := Prod.mk.inj (Option.some.inj hrun)
  exact ⟨_, ⟨rule, follow, Cursor.index (Cursor.symbol r.input).2⟩, rfl, rfl, rfl, rfl⟩

lemma told_call (hk : k.mends) (rule : Rule) (follow : TokenSet) {body : Action (Parser σ) Unit}
    (hbody : Told k body) : Told k (call rule follow body) :=
  Told.call _ (fun _ _ _ => enters_enterRule) (fun start => told_runBody start hbody)
    fun _ _ _ _ _ => leaving_exitRule hk

/-! ## Instructions and programs -/

lemma told_perform (hk : k.mends) {g : Grammar ParserInstruction}
    {run : Block ParserInstruction → Action (Parser σ) Unit} {i : ParserInstruction}
    (hrun : ∀ rule, Told k (run (g.body rule))) : Told k (perform g run i) := by
  have hroot : Told k (currentRoot : Action (Parser σ) (Option NodeId)) := Told.read _
  have hnote (token : Token) : Told k (note (.matchedToken token) : Action (Parser σ) Unit) :=
    Told.note trivial
  have hadd (token : Token) : Told k (do
      note (.matchedToken token)
      addLeaf (← currentRoot) token : Action (Parser σ) Unit) :=
    (hnote token).bind fun _ => hroot.bind fun root => told_addLeaf root token
  cases i with
  | token type follow => exact (told_matchToken hk type follow).bind hnote
  | child type follow =>
    refine hroot.bind fun root => Told.bind ?_ hnote
    exact (told_matchToken hk type follow).bind fun token =>
      (told_addLeaf root token).bind fun _ => Told.pure token
  | root type follow =>
    refine hroot.bind fun root => Told.bind ?_ fun node => ?_
    · exact (told_matchToken hk type follow).bind fun token => told_addRoot root token
    · exact (told_setRoot node).bind fun _ => Told.note trivial
  | set types follow => exact (told_matchSet hk types follow).bind hadd
  | any => exact told_matchAny.bind hadd
  | call rule follow =>
    exact (told_call hk (g.rule rule) follow (hrun rule)).bind fun node =>
      hroot.bind fun root => told_addSubtree root node

/-- What has to be known of programs of a parser. -/
lemma telling {g : Grammar ParserInstruction} (hk : k.mends)
    {p : Statement ParserInstruction → Prop} (hg : g.All p)
    (hraises : ∀ s, p s → s.Raises → k.raises) (hsets : ∀ s, p s → s.SetsDepth → k.sets)
    (hreframes : ∀ s, p s → s.Reframes → k.reframes)
    (hcatches : ∀ s, p s → s.Catches → k.catches)
    (hfloats : ∀ {fuel b}, g.Tries p b → Told k (run g fuel b : Action (Parser σ) Unit) →
      k.sinks ∨ Within Floats (run g fuel b : Action (Parser σ) Unit)) :
    Grammar.Telling (S := TokenStream σ) k dialect g p where
  raises := hraises
  sets := hsets
  reframes := hreframes
  catches := hcatches
  floats := hfloats
  loses := TokenStream.losesMarks
  apart hx := (told_withRoot none hx).discard
  apart_floats hx := (withRoot_within (fun _ => Within.update fun _ => id) hx).discard
  perform hrun _ := told_perform hk fun rule => hrun _ (hg.body rule)

end Parser

end Lookahead
