import Lookahead.Proofs.Parser.Lockstep

/-!
# What twins do

Everything that a parser does below the level of rules, done by two parsers in lockstep.  At depth 0
the two are twins, and what decides over matches, repairs and reports is the same for both: all of
it is in the similar parts of their states.  In a speculation matches are plain, and trees are not
built.
-/

namespace Lookahead

open Action Cursor Recognizer

variable {σ : Type} [TokenSource σ] {α : Type}

namespace State

variable {s s' : State}

lemma similar_report (h : s.Similar s') (f : Failure) :
    (s'.report f).1 = (s.report f).1 ∧ (s.report f).2.Similar (s'.report f).2 := by
  obtain ⟨failed, memo, memoize, depth, rfl⟩ := h
  simp only [report]
  split
  · exact ⟨rfl, _, _, _, _, rfl⟩
  · rename_i hrecovering
    simp only [exceededLimit]
    split <;> rename_i limit hlimit
    · rw [hlimit]
      exact ⟨rfl, _, _, _, _, rfl⟩
    · rw [hlimit]
      exact ⟨rfl, _, _, _, _, rfl⟩

lemma modest_report (f : Failure) : Modest fun s => (s.report f).2 := by
  refine ⟨fun s => Parser.report_backtracking s f, fun s => ?_, fun s => ?_,
    fun h => (similar_report h f).2⟩
  all_goals
    simp only [report]
    split
    · rfl
    · split <;> rfl

lemma modest_escalate (f : Failure) : Modest fun s => s.escalate f :=
  modest_of (fun _ => rfl) (fun _ => rfl) (fun _ => rfl) fun _ _ _ _ _ => ⟨_, _, _, _, rfl⟩

lemma modest_addDiagnostic (d : Diagnostic) : Modest fun s => s.addDiagnostic d :=
  modest_of (fun _ => rfl) (fun _ => rfl) (fun _ => rfl) fun _ _ _ _ _ => ⟨_, _, _, _, rfl⟩

lemma modest_popFrame : Modest State.popFrame :=
  modest_of (fun _ => rfl) (fun _ => rfl) (fun _ => rfl) fun _ _ _ _ _ => ⟨_, _, _, _, rfl⟩

lemma modest_pushFrame (rule : Rule) (follow : TokenSet) (index : Nat) :
    Modest fun s => s.pushFrame rule follow index :=
  modest_of (fun _ => rfl) (fun _ => rfl) (fun _ => rfl) fun _ _ _ _ _ => ⟨_, _, _, _, rfl⟩

lemma similar_follow (h : s.Similar s') (exact' : Bool) :
    (s'.follow exact').1 = (s.follow exact').1 ∧
      (s.follow exact').2.Similar (s'.follow exact').2 := by
  obtain ⟨failed, memo, memoize, depth, rfl⟩ := h
  exact ⟨rfl, _, _, _, _, rfl⟩

lemma modest_follow (exact' : Bool) : Modest fun s => (s.follow exact').2 :=
  ⟨fun _ => rfl, fun _ => rfl, fun _ => rfl, fun h => (similar_follow h exact').2⟩

end State

namespace Parser

variable {c : Trial} {i : Stage} {r s : Parser σ}

/-! ## At depth 0 -/

section

variable (hi : i.depth = 0)

include hi

lemma lockstep_readState {f : State → α} (hf : ∀ s s' : State, s.Similar s' → f s' = f s) :
    Lockstep c i (readState f : Action (Parser σ) α) (readState f) :=
  Couples.read fun _ _ h => ⟨hf _ _ (h.similar hi), h⟩

lemma lockstep_stepState {f : State → α × State} (hmodest : State.Modest fun s => (f s).2)
    (hvalue : ∀ s s' : State, s.Similar s' → (f s').1 = (f s).1) :
    Lockstep c i (stepState f : Action (Parser σ) α) (stepState f) :=
  Couples.step (fun _ => fades_of_trace_eq rfl) fun _ _ h =>
    ⟨hvalue _ _ (h.similar hi), h.updated hmodest⟩

lemma lockstep_stepTree (f : Tree → α × Tree) :
    Lockstep c i (stepTree f : Action (Parser σ) α) (stepTree f) := by
  unfold stepTree stepOwn
  refine Couples.step (fun _ => fades_of_trace_eq rfl) fun r s h =>
    ⟨?_, h.planted (f := fun t => (f t).2)⟩
  exact congrArg (fun t => (f t).1) (h.tree_eq (h.twin_of_depth hi))

omit hi in
lemma lockstep_updateTree (f : Tree → Tree) :
    Lockstep c i (updateTree f : Action (Parser σ) Unit) (updateTree f) :=
  lockstep_update (fun _ => fades_of_trace_eq rfl) fun _ _ h => h.planted

lemma lockstep_readTree (f : Tree → α) :
    Lockstep c i (readOwn fun b => f b.tree : Action (Parser σ) α) (readOwn fun b => f b.tree) :=
  Couples.read fun _ _ h => ⟨congrArg f (h.tree_eq (h.twin_of_depth hi)), h⟩

lemma lockstep_failed (f : Failure) :
    Lockstep c i (.fault (.failed f) : Action (Parser σ) α) (.fault (.failed f)) :=
  lockstep_fault fun _ _ => hi

lemma lockstep_isBacktracking :
    Lockstep c i (isBacktracking : Action (Parser σ) Bool) isBacktracking := by
  apply lockstep_readState hi
  rintro s _ ⟨_, _, _, _, rfl⟩
  rfl

lemma lockstep_failureHere (kind : FailureKind) (expected : Option TokenSet) :
    Lockstep c i (failureHere kind expected : Action (Parser σ) Failure)
      (failureHere kind expected) := by
  refine lockstep_symbol.bind fun found => lockstep_index.bind fun index => ?_
  apply lockstep_stepState hi
  · exact State.modest_of (fun _ => rfl) (fun _ => rfl) (fun _ => rfl) fun _ _ _ _ _ =>
      ⟨_, _, _, _, rfl⟩
  · rintro s _ ⟨_, _, _, _, rfl⟩
    rfl

/-! ### Repairs -/

lemma lockstep_reportFailure (f : Failure) :
    Lockstep c i (reportFailure f : Action (Parser σ) Report) (reportFailure f) := by
  refine Paired.bind (lockstep_stepState hi (State.modest_report f) fun s s' h =>
    (State.similar_report h f).1) fun report => ?_
  cases report with
  | budgetExhausted =>
    exact (lockstep_updateState (State.modest_escalate f)).bind fun _ => lockstep_failed hi f
  | recorded => exact .pure _
  | suppressed => exact .pure _

omit hi in
lemma lockstep_suggest (report : Report) (hint : String) :
    Lockstep c i (suggest report hint : Action (Parser σ) Unit) (suggest report hint) := by
  refine .ite (lockstep_updateState ?_) (.pure _)
  exact State.modest_of (fun _ => rfl) (fun _ => rfl) (fun _ => rfl) fun _ _ _ _ _ =>
    ⟨_, _, _, _, rfl⟩

omit hi in
lemma lockstep_endRepair : Lockstep c i (endRepair : Action (Parser σ) Unit) endRepair :=
  lockstep_updateState <|
    State.modest_of (fun _ => rfl) (fun _ => rfl) (fun _ => rfl) fun _ _ _ _ _ =>
      ⟨_, _, _, _, rfl⟩

lemma lockstep_deleteUnwanted (expected : TokenSet) :
    Lockstep c i (deleteUnwanted expected : Action (Parser σ) Token) (deleteUnwanted expected) := by
  refine (lockstep_failureHere hi _ _).bind fun failure => ?_
  refine (lockstep_reportFailure hi failure).bind fun report => lockstep_consume.bind fun _ => ?_
  refine (lockstep_lookBehind 1).bind fun removed => (lockstep_suggest report _).bind fun _ => ?_
  exact lockstep_symbol.bind fun token => lockstep_consume.bind fun _ =>
    lockstep_endRepair.bind fun _ => .pure token

lemma lockstep_insertMissing (type : TokenType) :
    Lockstep c i (insertMissing type : Action (Parser σ) Token) (insertMissing type) := by
  refine (lockstep_failureHere hi _ _).bind fun failure => ?_
  refine Paired.bind (lockstep_readState hi ?_) fun name => ?_
  · rintro s _ ⟨_, _, _, _, rfl⟩
    rfl
  · refine (lockstep_reportFailure hi failure).bind fun report => ?_
    exact (lockstep_suggest report _).bind fun _ => lockstep_endRepair.bind fun _ => .pure _

lemma lockstep_canFollow (follow : TokenSet) :
    Lockstep c i (canFollow follow : Action (Parser σ) Bool) (canFollow follow) := by
  have hcheck (viable : TokenSet) : Lockstep c i (do
      let type ← lookahead 1
      return viable.has type || viable.has .endOfRule : Action (Parser σ) Bool) (do
      let type ← lookahead 1
      return viable.has type || viable.has .endOfRule) :=
    (lockstep_lookahead 1).bind fun _ => .pure _
  refine .ite (.pure _) (.ite ?_ (hcheck follow))
  refine Paired.bind (lockstep_stepState hi (State.modest_follow true) fun s s' h =>
    (State.similar_follow h true).1) fun exact' => ?_
  refine Paired.bind (lockstep_readState hi ?_) fun inRule => (Paired.pure _).bind hcheck
  rintro s _ ⟨_, _, _, _, rfl⟩
  rfl

lemma lockstep_canDelete (needed : TokenType → Bool) :
    Lockstep c i (canDelete needed : Action (Parser σ) Bool) (canDelete needed) := by
  refine Paired.bind (lockstep_readState hi ?_) fun deletion => ?_
  · rintro s _ ⟨_, _, _, _, rfl⟩
    rfl
  · exact .ite ((lockstep_lookahead 2).bind fun _ => .pure _) (.pure _)

lemma lockstep_canInsert (follow : TokenSet) :
    Lockstep c i (canInsert follow : Action (Parser σ) Bool) (canInsert follow) := by
  refine Paired.bind (lockstep_readState hi ?_) fun insertion => ?_
  · rintro s _ ⟨_, _, _, _, rfl⟩
    rfl
  · exact .ite (lockstep_canFollow hi follow) (.pure _)

end

/-! ## At any depth

In a speculation an operation comes down to one that is done by any two parsers in lockstep. -/

lemma lockstep_of_eq {x y : Action (Parser σ) α} (hi : 0 < i.depth) (hx : Within Onward x)
    (heq : ∀ r : Parser σ, 0 < r.state.backtracking → x r = y r) (hy : Lockstep c i y y) :
    Lockstep c i x x :=
  hy.of_eq (fades_of_onward hx) fun r s h =>
    ⟨heq r (h.backtracking_pos hi).1, heq s (h.backtracking_pos hi).2⟩

lemma lockstep_fail (kind : FailureKind) (expected : Option TokenSet) :
    Lockstep c i (fail kind expected : Action (Parser σ) α) (fail kind expected) := by
  rcases Nat.eq_zero_or_pos i.depth with hi | hi
  · refine Paired.bind (lockstep_readState hi ?_) fun depth => .ite lockstep_giveUp ?_
    · rintro s _ ⟨_, _, _, _, rfl⟩
      rfl
    · exact (lockstep_failureHere hi kind expected).bind fun f => lockstep_failed hi f
  · exact lockstep_of_eq hi (onward_of_rests (rests_fail kind expected))
      (fun _ => fail_of_backtracking kind expected) lockstep_giveUp

lemma lockstep_matchPlainly (matches' : TokenType → Bool) :
    Lockstep c i (matchPlainly matches' : Action (Parser σ) Token) (matchPlainly matches') :=
  (lockstep_lookahead 1).bind fun _ => .ite lockstep_matchAny lockstep_giveUp

lemma lockstep_matchToken (type : TokenType) (follow : TokenSet) :
    Lockstep c i (matchToken type follow : Action (Parser σ) Token) (matchToken type follow) := by
  rcases Nat.eq_zero_or_pos i.depth with hi | hi
  · rw [matchToken_eq]
    refine (lockstep_lookahead 1).bind fun here => .ite lockstep_matchAny ?_
    refine (lockstep_isBacktracking hi).bind fun backtracking => .ite lockstep_giveUp ?_
    refine (lockstep_canDelete hi _).bind fun deletes => .ite (lockstep_deleteUnwanted hi _) ?_
    refine (lockstep_canInsert hi follow).bind fun inserts => ?_
    exact .ite (lockstep_insertMissing hi type) (lockstep_fail _ _)
  · exact lockstep_of_eq hi (mends_matchToken type follow).onward
      (fun _ => matchToken_of_backtracking type follow) (lockstep_matchPlainly _)

lemma lockstep_matchSet (set follow : TokenSet) :
    Lockstep c i (matchSet set follow : Action (Parser σ) Token) (matchSet set follow) := by
  rcases Nat.eq_zero_or_pos i.depth with hi | hi
  · rw [matchSet_eq]
    refine (lockstep_lookahead 1).bind fun here => .ite lockstep_matchAny ?_
    refine (lockstep_isBacktracking hi).bind fun backtracking => .ite lockstep_giveUp ?_
    refine .ite (lockstep_fail _ _) ((lockstep_canDelete hi _).bind fun deletes => ?_)
    refine .ite (lockstep_deleteUnwanted hi _) ?_
    split
    · refine (lockstep_canInsert hi follow).bind fun inserts => ?_
      exact .ite (lockstep_insertMissing hi _) (lockstep_fail _ _)
    · exact lockstep_fail _ _
  · exact lockstep_of_eq hi (mends_matchSet set follow).onward
      (fun _ => matchSet_of_backtracking set follow) (lockstep_matchPlainly _)

/-! ### Trees -/

lemma lockstep_beginTree :
    Lockstep c i (beginTree : Action (Parser σ) (Option NodeId)) beginTree := by
  rcases Nat.eq_zero_or_pos i.depth with hi | hi
  · exact (lockstep_isBacktracking hi).bind fun _ =>
      .ite (.pure _) ((lockstep_stepTree hi _).bind fun _ => .pure _)
  · exact lockstep_of_eq hi (onward_of_rests rests_beginTree)
      (fun _ => beginTree_of_backtracking) (.pure none)

lemma lockstep_addLeaf (parent : Option NodeId) (token : Token) :
    Lockstep c i (addLeaf parent token : Action (Parser σ) Unit) (addLeaf parent token) := by
  rcases Nat.eq_zero_or_pos i.depth with hi | hi
  · refine (lockstep_isBacktracking hi).bind fun backtracking => ?_
    split
    · exact (lockstep_stepTree hi _).bind fun leaf => lockstep_updateTree _
    · exact .pure _
  · exact lockstep_of_eq hi (onward_of_rests (rests_addLeaf parent token))
      (fun _ hr => addLeaf_of_backtracking hr parent token) (.pure ())

lemma lockstep_addSubtree (parent child : Option NodeId) :
    Lockstep c i (addSubtree parent child : Action (Parser σ) Unit) (addSubtree parent child) := by
  rcases Nat.eq_zero_or_pos i.depth with hi | hi
  · refine (lockstep_isBacktracking hi).bind fun backtracking => ?_
    split
    · exact lockstep_updateTree _
    · exact .pure _
  · exact lockstep_of_eq hi (onward_of_rests (rests_addSubtree parent child))
      (fun _ hr => addSubtree_of_backtracking hr parent child) (.pure ())

lemma lockstep_addRoot (root : Option NodeId) (token : Token) :
    Lockstep c i (addRoot root token : Action (Parser σ) (Option NodeId)) (addRoot root token) := by
  rcases Nat.eq_zero_or_pos i.depth with hi | hi
  · refine (lockstep_isBacktracking hi).bind fun backtracking => ?_
    split
    · rename_i root
      refine (lockstep_stepTree hi _).bind fun leaf => ?_
      refine (lockstep_readTree hi fun t => t.becomeRoot leaf root).bind fun made => ?_
      split
      · exact (lockstep_updateTree _).bind fun _ => .pure _
      · exact lockstep_fault fun _ _ => hi
    · exact .pure _
  · exact lockstep_of_eq hi (onward_of_rests (rests_addRoot root token))
      (fun _ hr => addRoot_of_backtracking hr root token) (.pure none)

lemma lockstep_finishTree (root : Option NodeId) (start : RuleStart) :
    Lockstep c i (finishTree root start : Action (Parser σ) (Option NodeId))
      (finishTree root start) := by
  rcases Nat.eq_zero_or_pos i.depth with hi | hi
  · refine (lockstep_isBacktracking hi).bind fun backtracking => ?_
    split
    · refine (lockstep_stepTree hi _).bind fun result => ?_
      split
      · exact (lockstep_lookBehind 1).bind fun last =>
          (lockstep_updateTree _).bind fun _ => .pure _
      · exact .pure _
    · exact .pure _
  · exact lockstep_of_eq hi (onward_of_rests (rests_finishTree root start))
      (fun _ hr => finishTree_of_backtracking hr root start) (.pure none)

/-! ## Rules at depth 0 -/

section

variable (hi : i.depth = 0)

include hi

lemma lockstep_resynchronize (report : Report) (f : Failure) :
    Lockstep c i (resynchronize report f : Action (Parser σ) Unit) (resynchronize report f) := by
  have hskip : Lockstep c i (skipAhead report f : Action (Parser σ) Unit) (skipAhead report f) := by
    refine lockstep_index.bind fun here => Paired.bind (lockstep_updateState ?_) fun _ => ?_
    · exact State.modest_of (fun _ => rfl) (fun _ => rfl) (fun _ => rfl) fun _ _ _ _ _ =>
        ⟨_, _, _, _, rfl⟩
    · refine Paired.bind (lockstep_stepState hi (State.modest_follow false) fun s s' h =>
        (State.similar_follow h false).1) fun recovery => lockstep_symbol.bind fun first => ?_
      refine Paired.bind (lockstep_stepInput (fun s s' h => h.skipUntil _)
        fun s => s.wanders_skipUntil _ _) fun skipped => lockstep_symbol.bind fun resume => ?_
      refine .ite ?_ (.ite (lockstep_updateState (State.modest_addDiagnostic _)) (.pure _))
      exact (lockstep_updateState (State.modest_escalate f)).bind fun _ => lockstep_failed hi f
  rw [resynchronize_eq]
  refine lockstep_index.bind fun here => Paired.bind (lockstep_readState hi ?_) fun last => ?_
  · rintro s _ ⟨_, _, _, _, rfl⟩
    rfl
  · exact .ite (lockstep_consume.bind fun _ => hskip) hskip

lemma lockstep_recoverInRule (start : RuleStart) (f : Failure) :
    Lockstep c i (recoverInRule start f : Action (Parser σ) (Option NodeId))
      (recoverInRule start f) := by
  refine (lockstep_reportFailure hi f).bind fun report => ?_
  refine (lockstep_resynchronize hi report f).bind fun _ => ?_
  -- the text of the error node ends with a token that both parsers have buffered
  refine Couples.bind (Q := fun o r s => Tied c i (Fault.ofOutcome o) r s ∧
      ∀ last stop, o = .ok last → last.bind Token.index = some stop →
        stop < r.input.buffer.size ∧ stop < s.input.buffer.size)
    ⟨(lockstep_lookBehind (c := c) (i := i) 1).fades, fun r o r' hrun hfair s h => ?_⟩
    (fun last => Couples.bind (Q := fun o => Tied c i (Fault.ofOutcome o))
      (Couples.read fun r s h => ⟨?_, h.1⟩) (fun text => ?_) fun _ _ _ h => h)
    fun _ _ _ h => h.1
  · obtain ⟨s', hs, htied⟩ := (lockstep_lookBehind 1).follows hrun hfair s h
    refine ⟨s', hs, htied, fun last stop hlast hstop => ?_⟩
    subst hlast
    have hbuffered {q q' : Parser σ} (hq : q.input.fill.Numbered)
        (hrun : lookBehind 1 q = some (.ok last, q')) : stop < q'.input.buffer.size := by
      obtain ⟨hlast, rfl⟩ := Prod.mk.inj (Option.some.inj hrun)
      obtain ⟨t, ht, hindex⟩ := Option.bind_eq_some_iff.1 hstop
      exact TokenStream.index_lookBehind_lt hq ((Except.ok.inj hlast).trans ht) hindex
    refine ⟨hbuffered h.facing.numbered hrun, hbuffered ?_ hs⟩
    rw [TokenStream.Numbered, h.facing.parallel.buffer_eq]
    exact h.facing.numbered
  · obtain ⟨htied, hbuffered⟩ := h
    rcases hlast : last.bind Token.index with _ | stop
    · rfl
    · obtain ⟨hr, hs⟩ := hbuffered last stop rfl hlast
      simp only
      rw [(htied.facing.abreast (.inr hi)).channelText hr hs]
  · exact (lockstep_stepTree hi _).bind fun node => .pure _

end

end Parser

end Lookahead
