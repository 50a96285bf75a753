import Lookahead.Proofs.Grammar.Parsing

/-!
# Speculation is silent

While a parser is backtracking, whatever it does is `Quiet`: of its state only the memo and the two
notes on the last match may change, and of its trees nothing.  Each operation that could report,
recover or build looks at the depth of backtracking first, so what has to be shown of it is that it
comes down to something quiet if the depth is not 0 (`quiet_of_eq`).

A rule call is quiet as a whole only: it pushes a frame, and pops it again whatever becomes of its
body.
-/

namespace Lookahead

open Action Cursor Recognizer
open Cursor.View (Ready marks)

variable {σ : Type} [TokenSource σ] {α : Type}

/-- The state without what comes and goes during speculation. -/
def State.steady (s : State) : State :=
  { s with recovering := false, failed := false, memo := .empty }

/-- A part of the state that speculation leaves alone. -/
lemma State.eq_of_steady {s s' : State} (h : s'.steady = s.steady) {f : State → α}
    (hf : ∀ s, f s.steady = f s) : f s' = f s := by
  rw [← hf s', h, hf s]

/-- A statement that does not write into the state by itself: neither the depth of backtracking, nor
the place of the last error, nor a frame. -/
def Statement.Discreet {ι : Type} : Statement ι → Prop
  | .setBacktracking _ | .setLastError _ | .pushFrame _ _ | .popFrame => False
  | _ => True

namespace Recognizer

/-! ## Records -/

variable {S X : Type} [Cursor S] {r : Recognizer S X}

/-- A state with the outcome of a rule recorded, if outcomes are recorded in that state. -/
def recorded (start : RuleStart) (stop : Nat) (outcome : Except Fault α) (s : State) : State :=
  if 0 < s.backtracking && s.options.memoize then
    s.memoize start.rule start.index (match outcome with
      | .ok _ => .parsed stop
      | .error _ => .failed)
  else s

lemma record_apply (start : RuleStart) (outcome : Except Fault α) (r : Recognizer S X) :
    record start outcome r = some (.ok (),
      { r with state := recorded start (Cursor.index r.input) outcome r.state }) := by
  simp only [record, isMemoizing, bind_apply, readState_apply, recorded]
  split
  · rfl
  · rfl

/-- Nothing is recorded at depth 0. -/
lemma record_of_depth (hr : r.state.backtracking = 0) (start : RuleStart) (o : Except Fault α) :
    record start o r = some (.ok (), r) := by
  simp [record, isMemoizing, bind_apply, hr]

lemma recorded_eq (start : RuleStart) (stop : Nat) (outcome : Except Fault α) (s : State) :
    ∃ memo, recorded start stop outcome s = { s with memo } := by
  unfold recorded
  split
  · exact ⟨_, rfl⟩
  · exact ⟨s.memo, rfl⟩

omit [Cursor S] in
lemma memoizing_of_speculating (hr : 0 < r.state.backtracking)
    (hmemoize : r.state.options.memoize = true) :
    (0 < r.state.backtracking && r.state.options.memoize) = true := by
  rw [hmemoize, decide_eq_true hr, Bool.true_and]

/-- There is no record that the rule could be replayed from. -/
def Missing (rule : Rule) (r : Recognizer S X) : Prop :=
  (0 < r.state.backtracking && r.state.options.memoize) = true →
    r.state.memoized rule (Cursor.index r.input) = none

section

variable {rule : Rule}

lemma replay_of_missing (h : Missing rule r) : replay rule r = some (.ok false, r) := by
  unfold replay isMemoizing
  simp only [bind_apply, index_apply, readState_apply]
  by_cases hmemoizing : (0 < r.state.backtracking && r.state.options.memoize) = true
  · rw [if_pos hmemoizing]
    simp only [bind_apply, readState_apply, h hmemoizing]
    rfl
  · rw [if_neg hmemoizing]
    rfl

variable (hmemoizing : (0 < r.state.backtracking && r.state.options.memoize) = true)

include hmemoizing

lemma replay_of_failed
    (hentry : r.state.memoized rule (Cursor.index r.input) = some .failed) :
    replay rule r =
      some (.error .backtracking, { r with state := { r.state with failed := true } }) := by
  unfold replay isMemoizing
  simp only [bind_apply, index_apply, readState_apply]
  rw [if_pos hmemoizing]
  simp only [bind_apply, readState_apply, hentry]
  rfl

lemma replay_of_parsed {stop : Nat}
    (hentry : r.state.memoized rule (Cursor.index r.input) = some (.parsed stop)) :
    replay rule r = some (.ok true, { r with input := Cursor.seek r.input stop }) := by
  unfold replay isMemoizing
  simp only [bind_apply, index_apply, readState_apply]
  rw [if_pos hmemoizing]
  simp only [bind_apply, readState_apply, hentry]
  rfl

end

end Recognizer

namespace Parser

variable {r r' : Parser σ}

/-- Only operations on the stream have changed the input.  If the parser was backtracking, then it
still is, as deep as before, and nothing that lasts was changed. -/
structure Quiet (r r' : Parser σ) : Prop where
  reaches : Reaches r.input r'.input
  state_eq : 0 < r.state.backtracking → r'.state.steady = r.state.steady
  tree_eq : 0 < r.state.backtracking → r'.own.tree = r.own.tree

instance : IsPreorder (Parser σ) Quiet where
  refl _ := ⟨Reaches.refl _, fun _ => rfl, fun _ => rfl⟩
  trans r r₁ r' h h' := by
    have hdepth (hr : 0 < r.state.backtracking) : 0 < r₁.state.backtracking := by
      rw [State.eq_of_steady (f := State.backtracking) (h.state_eq hr) fun _ => rfl]
      exact hr
    exact ⟨h.reaches.trans h'.reaches,
      fun hr => (h'.state_eq (hdepth hr)).trans (h.state_eq hr),
      fun hr => (h'.tree_eq (hdepth hr)).trans (h.tree_eq hr)⟩

/-! ## Reading, moving and giving up -/

lemma quiet_updateState {f : State → State} (hf : ∀ s, (f s).steady = s.steady) :
    Within Quiet (updateState f : Action (Parser σ) Unit) :=
  Within.update fun _ => ⟨Reaches.refl _, fun _ => hf _, fun _ => rfl⟩

lemma quiet_stepInput {f : TokenStream σ → α × TokenStream σ} (hf : ∀ s, Reaches s (f s).2) :
    Within Quiet (stepInput f : Action (Parser σ) α) :=
  Within.step fun r => ⟨hf r.input, fun _ => rfl, fun _ => rfl⟩

lemma quiet_tryInput {f : TokenStream σ → Except Misuse (TokenStream σ)}
    (hf : ∀ s s', f s = .ok s' → Reaches s s') :
    Within Quiet (tryInput f : Action (Parser σ) Unit) := by
  intro r o r' hrun
  unfold tryInput at hrun
  split at hrun
  · rename_i input hinput
    obtain ⟨-, rfl⟩ := Prod.mk.inj (Option.some.inj hrun)
    exact ⟨hf _ _ hinput, fun _ => rfl, fun _ => rfl⟩
  · obtain ⟨-, rfl⟩ := Prod.mk.inj (Option.some.inj hrun)
    exact refl_of Quiet r

lemma quiet_lookahead (k : Int) : Within Quiet (lookahead k : Action (Parser σ) TokenType) :=
  quiet_stepInput fun s => (Step.lookahead s k).reaches

lemma quiet_symbol : Within Quiet (symbol : Action (Parser σ) Token) :=
  quiet_stepInput fun s => (Step.symbol s).reaches

lemma quiet_consume : Within Quiet (consume : Action (Parser σ) Unit) :=
  Within.update fun r => ⟨(Step.consume r.input).reaches, fun _ => rfl, fun _ => rfl⟩

lemma quiet_seek (i : Nat) : Within Quiet (seek i : Action (Parser σ) Unit) :=
  Within.update fun r => ⟨(Step.seek r.input i).reaches, fun _ => rfl, fun _ => rfl⟩

lemma quiet_note (e : Event) : Within Quiet (note e : Action (Parser σ) Unit) :=
  Within.update fun _ => ⟨Reaches.refl _, fun _ => rfl, fun _ => rfl⟩

lemma quiet_setRoot (root : Option NodeId) : Within Quiet (setRoot root : Action (Parser σ) Unit) :=
  Within.update fun _ => ⟨Reaches.refl _, fun _ => rfl, fun _ => rfl⟩

lemma quiet_snapshot : Within Quiet (snapshot : Action (Parser σ) Snapshot) :=
  (Within.read _).bind fun _ => (quiet_lookahead 1).bind fun _ => Within.read _

lemma quiet_giveUp : Within Quiet (giveUp : Action (Parser σ) α) := by
  refine Within.bind (quiet_updateState ?_) fun _ => Within.fault _
  exact fun _ => rfl

lemma quiet_noteMatch : Within Quiet (noteMatch : Action (Parser σ) Unit) :=
  quiet_updateState fun _ => rfl

/-! ## Operations that look at the depth -/

/-- An operation is quiet if it comes down to a quiet one while the parser is backtracking. -/
lemma quiet_of_eq {x y : Action (Parser σ) α} (hx : Within Onward x) (hy : Within Quiet y)
    (heq : ∀ r : Parser σ, 0 < r.state.backtracking → x r = y r) : Within Quiet x := by
  intro r o r' hrun
  have hquiet (hr : 0 < r.state.backtracking) : Quiet r r' := by
    rw [heq r hr] at hrun
    exact hy hrun
  exact ⟨(hx hrun).roams.reaches, fun hr => (hquiet hr).state_eq hr,
    fun hr => (hquiet hr).tree_eq hr⟩

omit [TokenSource σ] in
@[simp] lemma isBacktracking_apply (r : Parser σ) :
    (isBacktracking : Action (Parser σ) Bool) r = some (.ok (0 < r.state.backtracking), r) := rfl

lemma fail_of_backtracking (kind : FailureKind) (expected : Option TokenSet)
    (hr : 0 < r.state.backtracking) : (fail kind expected : Action (Parser σ) α) r = giveUp r := by
  simp only [fail, bind_apply, readState_apply, if_pos hr]

lemma quiet_fail (kind : FailureKind) (expected : Option TokenSet) :
    Within Quiet (fail kind expected : Action (Parser σ) α) :=
  quiet_of_eq (onward_of_rests (rests_fail kind expected)) quiet_giveUp fun _ =>
    fail_of_backtracking kind expected

lemma quiet_matchAny : Within Quiet (matchAny : Action (Parser σ) Token) :=
  quiet_symbol.bind fun _ => quiet_consume.bind fun _ =>
    quiet_noteMatch.bind fun _ => Within.pure _

/-- A match without repairs. -/
def matchPlainly (matches' : TokenType → Bool) : Action (Parser σ) Token := do
  if matches' (← lookahead 1) then matchAny else giveUp

lemma quiet_matchPlainly (matches' : TokenType → Bool) :
    Within Quiet (matchPlainly matches' : Action (Parser σ) Token) :=
  (quiet_lookahead 1).bind fun _ => Within.ite quiet_matchAny quiet_giveUp

lemma matchToken_of_backtracking (type : TokenType) (follow : TokenSet)
    (hr : 0 < r.state.backtracking) : matchToken type follow r = matchPlainly (· == type) r := by
  simp only [matchToken, matchPlainly, bind_apply, lookahead_apply, beq_iff_eq]
  split
  · rfl
  · simp [bind_apply, hr]

lemma matchSet_of_backtracking (set follow : TokenSet) (hr : 0 < r.state.backtracking) :
    matchSet set follow r = matchPlainly set.has r := by
  simp only [matchSet, matchPlainly, bind_apply, lookahead_apply]
  split
  · rfl
  · simp [bind_apply, hr]

lemma quiet_matchToken (type : TokenType) (follow : TokenSet) :
    Within Quiet (matchToken type follow : Action (Parser σ) Token) :=
  quiet_of_eq (mends_matchToken type follow).onward (quiet_matchPlainly _) fun _ =>
    matchToken_of_backtracking type follow

lemma quiet_matchSet (set follow : TokenSet) :
    Within Quiet (matchSet set follow : Action (Parser σ) Token) :=
  quiet_of_eq (mends_matchSet set follow).onward (quiet_matchPlainly _) fun _ =>
    matchSet_of_backtracking set follow

/-! ## Trees -/

section

variable (hr : 0 < r.state.backtracking)

include hr

omit [TokenSource σ] in
lemma beginTree_of_backtracking :
    (beginTree : Action (Parser σ) (Option NodeId)) r = some (.ok none, r) := by
  simp [beginTree, bind_apply, hr]

omit [TokenSource σ] in
lemma addLeaf_of_backtracking (parent : Option NodeId) (token : Token) :
    addLeaf parent token r = some (.ok (), r) := by
  cases parent <;> simp [addLeaf, bind_apply, hr]

omit [TokenSource σ] in
lemma addSubtree_of_backtracking (parent child : Option NodeId) :
    addSubtree parent child r = some (.ok (), r) := by
  cases parent <;> cases child <;> simp [addSubtree, bind_apply, hr]

omit [TokenSource σ] in
lemma addRoot_of_backtracking (root : Option NodeId) (token : Token) :
    addRoot root token r = some (.ok none, r) := by
  cases root <;> simp [addRoot, bind_apply, hr]

lemma finishTree_of_backtracking (root : Option NodeId) (start : RuleStart) :
    finishTree root start r = some (.ok none, r) := by
  cases root <;> simp [finishTree, bind_apply, hr]

end

lemma quiet_beginTree : Within Quiet (beginTree : Action (Parser σ) (Option NodeId)) :=
  quiet_of_eq (onward_of_rests rests_beginTree) (Within.pure none) fun _ =>
    beginTree_of_backtracking

lemma quiet_addLeaf (parent : Option NodeId) (token : Token) :
    Within Quiet (addLeaf parent token : Action (Parser σ) Unit) :=
  quiet_of_eq (onward_of_rests (rests_addLeaf parent token)) (Within.pure ()) fun _ hr =>
    addLeaf_of_backtracking hr parent token

lemma quiet_addSubtree (parent child : Option NodeId) :
    Within Quiet (addSubtree parent child : Action (Parser σ) Unit) :=
  quiet_of_eq (onward_of_rests (rests_addSubtree parent child)) (Within.pure ()) fun _ hr =>
    addSubtree_of_backtracking hr parent child

lemma quiet_addRoot (root : Option NodeId) (token : Token) :
    Within Quiet (addRoot root token : Action (Parser σ) (Option NodeId)) :=
  quiet_of_eq (onward_of_rests (rests_addRoot root token)) (Within.pure none) fun _ hr =>
    addRoot_of_backtracking hr root token

lemma quiet_finishTree (root : Option NodeId) (start : RuleStart) :
    Within Quiet (finishTree root start : Action (Parser σ) (Option NodeId)) :=
  quiet_of_eq (onward_of_rests (rests_finishTree root start)) (Within.pure none) fun _ hr =>
    finishTree_of_backtracking hr root start

omit [TokenSource σ] in
/-- The root of the caller is back in its place, whatever becomes of the body. -/
lemma withRoot_root {root : Option NodeId} {body : Action (Parser σ) α}
    {o : Except Fault (Option NodeId)} (h : withRoot root body r = some (o, r')) :
    r'.own.root = r.own.root := by
  simp only [withRoot, currentRoot, setRoot, bind_apply, readOwn_apply, updateOwn_apply,
    attempt_apply] at h
  rcases hbody : body { r with own := { r.own with root } } with _ | ⟨outcome, r₁⟩
  · simp [hbody] at h
  · rw [hbody] at h
    cases outcome with
    | ok a =>
      obtain ⟨-, rfl⟩ := Prod.mk.inj (Option.some.inj h)
      rfl
    | error e =>
      obtain ⟨-, rfl⟩ := Prod.mk.inj (Option.some.inj h)
      rfl

omit [TokenSource σ] in
lemma apart_root {body : Action (Parser σ) Unit} {o : Except Fault Unit}
    (h : discard (withRoot none body) r = some (o, r')) : r'.own.root = r.own.root := by
  simp only [Functor.discard, Functor.mapConst, Function.comp_def] at h
  rcases bind_eq_some.1 h with ⟨inner, r₁, hroot, hpure⟩ | ⟨e, hroot, -⟩
  · obtain ⟨-, rfl⟩ := Prod.mk.inj (Option.some.inj hpure)
    exact withRoot_root hroot
  · exact withRoot_root hroot

/-! ## Rules -/

/-- The parser with its innermost frame popped. -/
def popped (r : Parser σ) : Parser σ := { r with state := r.state.popFrame }

/-- What is quiet in a rule is quiet behind it. -/
lemma Quiet.popped (h : Quiet r r') : Quiet (popped r) (popped r') where
  reaches := h.reaches
  state_eq hr := congrArg State.popFrame (h.state_eq hr)
  tree_eq := h.tree_eq

lemma quiet_replay (rule : Rule) : Within Quiet (replay rule : Action (Parser σ) Bool) := by
  refine (Within.read _).bind fun start => (Within.read _).bind fun memoizing => ?_
  refine Within.ite ((Within.read _).bind fun entry => ?_) (Within.pure _)
  split
  · exact quiet_giveUp
  · exact (quiet_seek _).bind fun _ => Within.pure _
  · exact Within.pure _

/-- During speculation a rule is left without more ado. -/
lemma exitRule_of_backtracking (hr : 0 < r.state.backtracking) (start : RuleStart)
    (outcome : Except Fault (Option NodeId)) :
    exitRule start outcome r = some (outcome,
      { r with state := (recorded start (Cursor.index r.input) outcome r.state).popFrame }) := by
  simp only [exitRule, bind_apply, readState_apply, attempt_apply, Nat.ne_of_gt hr, decide_false,
    Bool.false_and, ofExcept_apply, Option.map_some, record_apply]
  rfl

/-- Entering a rule does nothing but push a frame, and not even that if there is no rule to run. -/
lemma enterRule_quiet {rule : Rule} {follow : TokenSet} {o : Except Fault (Option RuleStart)}
    (h : enterRule rule follow r = some (o, r')) :
    (∃ start, o = .ok (some start)) ∧ Quiet r (popped r') ∨
      (∀ start, o ≠ .ok (some start)) ∧ Quiet r r' := by
  rcases bind_eq_some.1 h with ⟨replayed, r₁, hreplay, h₁⟩ | ⟨e, hreplay, rfl⟩
  · have hquiet : Quiet r r₁ := quiet_replay rule hreplay
    cases replayed with
    | true =>
      obtain ⟨rfl, rfl⟩ := Prod.mk.inj (Option.some.inj h₁)
      exact .inr ⟨fun _ heq => by (cases heq), hquiet⟩
    | false =>
      obtain ⟨rfl, rfl⟩ := Prod.mk.inj (Option.some.inj h₁)
      have hsymbol : Quiet r₁ { r₁ with input := (Cursor.symbol r₁.input).2 } :=
        ⟨(Step.symbol r₁.input).reaches, fun _ => rfl, fun _ => rfl⟩
      exact .inl ⟨⟨_, rfl⟩, trans_of Quiet hquiet hsymbol⟩
  · exact .inr ⟨fun _ heq => by (cases heq), quiet_replay rule hreplay⟩

/-- Leaving a rule pops its frame.  A failure is recovered from only if nobody is backtracking. -/
lemma exitRule_quiet {start : RuleStart} {outcome o : Except Fault (Option NodeId)}
    (h : exitRule start outcome r = some (o, r')) : Quiet (popped r) r' := by
  have hreaches : Reaches r.input r'.input := (calm_exitRule start outcome h).roams.reaches
  have hquiet (hr : 0 < r.state.backtracking) : Quiet (popped r) r' := by
    rw [exitRule_of_backtracking hr] at h
    obtain ⟨-, rfl⟩ := Prod.mk.inj (Option.some.inj h)
    obtain ⟨memo, hmemo⟩ := recorded_eq start (Cursor.index r.input) outcome r.state
    rw [hmemo]
    exact ⟨Reaches.refl _, fun _ => rfl, fun _ => rfl⟩
  exact ⟨hreaches, fun hr => (hquiet hr).state_eq hr, fun hr => (hquiet hr).tree_eq hr⟩

lemma quiet_runBody (start : RuleStart) {body : Action (Parser σ) Unit}
    (hbody : Within Quiet body) : Within Quiet (runBody start body) :=
  quiet_beginTree.bind fun _ =>
    (withRoot_within quiet_setRoot hbody).bind fun _ => quiet_finishTree _ start

/-- A rule call is quiet if its body is. -/
lemma quiet_call (rule : Rule) (follow : TokenSet) {body : Action (Parser σ) Unit}
    (hbody : Within Quiet body) : Within Quiet (call rule follow body) := by
  intro r o r' hrun
  obtain ⟨entry, r₁, hentry, hrest⟩ := attempt_bind_eq_some.1 hrun
  have hnote (e : Event) : Quiet r₁ { r₁ with trace := r₁.trace.push e } := quiet_note e rfl
  rcases enterRule_quiet hentry with ⟨⟨start, rfl⟩, hpush⟩ | ⟨hnone, hquiet⟩
  · -- the frame on top is the rule's own until `exitRule` pops it
    change ((runBody start body).attempt >>= _) _ = _ at hrest
    obtain ⟨outcome, r₂, hrunBody, hexit⟩ := attempt_bind_eq_some.1 hrest
    have hinside : Quiet r (popped r₂) :=
      trans_of Quiet hpush (trans_of Quiet (hnote _) (quiet_runBody start hbody hrunBody)).popped
    obtain ⟨result, r₃, hexitRule, hlast⟩ := attempt_bind_eq_some.1 hexit
    have hlastQuiet : Quiet r₃ r' :=
      ((Within.read _).bind fun tree => (Within.read _).bind fun index =>
        (quiet_note _).bind fun _ => Within.ofExcept result) hlast
    exact trans_of Quiet hinside (trans_of Quiet (exitRule_quiet hexitRule) hlastQuiet)
  · refine trans_of Quiet hquiet ?_
    rcases entry with e | _ | start
    · obtain ⟨-, rfl⟩ := Prod.mk.inj (Option.some.inj hrest)
      exact hnote _
    · obtain ⟨-, rfl⟩ := Prod.mk.inj (Option.some.inj hrest)
      exact hnote _
    · exact absurd rfl (hnone start)

/-! ## Speculations -/

/-- A speculation inside of another one goes back to the depth of that one. -/
lemma quiet_speculating (raise : Bool) (ending : GuardEnd) {x : Action (Parser σ) α}
    (hx : Within Quiet x) : Within Quiet (speculating raise ending x) := by
  intro r o r' hrun
  rw [speculating_apply] at hrun
  rcases hbody : x (begun raise r) with _ | ⟨outcome, r₁⟩
  · simp [hbody] at hrun
  · rw [hbody, Option.bind_some] at hrun
    obtain ⟨-, rfl⟩ := Prod.mk.inj (Option.some.inj hrun)
    have h : Quiet (begun raise r) r₁ := hx hbody
    have hdepth (hr : 0 < r.state.backtracking) : 0 < (begun raise r).state.backtracking :=
      Nat.lt_of_lt_of_le hr (Nat.le_add_right _ _)
    refine ⟨?_, fun hr => ?_, fun hr => h.tree_eq (hdepth hr)⟩
    · exact ((Step.mark r.input).reaches.trans h.reaches).trans (reaches_endGuard _ _ _)
    · have hback := congrArg
        (fun s : State => { s with backtracking := s.backtracking - raise.toNat })
        (h.state_eq (hdepth hr))
      simpa [begun, ended, State.steady] using hback

lemma quiet_synpred {x : Action (Parser σ) Unit} (hx : Within Quiet x) :
    Within Quiet (synpred x) := by
  have hclear : Within Quiet (.update cleared : Action (Parser σ) Unit) :=
    Within.update fun _ => ⟨Reaches.refl _, fun _ => rfl, fun _ => rfl⟩
  rw [synpred_eq]
  refine (quiet_speculating true .restore ?_).bind fun _ => Within.ofExcept _
  exact hx.attempt.bind fun _ => hclear.bind fun _ => Within.pure _

/-! ## Programs -/

lemma quiet_plain {s : Statement ParserInstruction} (hs : s.Discreet) (hplain : s.Plain)
    (g : Grammar ParserInstruction) (run : Block ParserInstruction → Action (Parser σ) Unit)
    (fuel : Nat) : Within Quiet (Grammar.execute dialect g run fuel s) := by
  cases s with
  | mark =>
    refine (quiet_stepInput fun s => (Step.mark s).reaches).bind fun m => Within.update fun _ => ?_
    exact ⟨Reaches.refl _, fun _ => rfl, fun _ => rfl⟩
  | rewind i =>
    exact (Within.read _).bind fun m => quiet_tryInput fun _ _ h => (Step.rewind h).reaches
  | release i =>
    exact (Within.read _).bind fun m => quiet_tryInput fun _ _ h => (Step.release h).reaches
  | consume => exact quiet_consume
  | seek i => exact quiet_seek i
  | observe => exact quiet_snapshot.bind fun _ => quiet_note _
  | setBacktracking | setLastError | pushFrame | popFrame => exact hs.elim
  | ifHolds | whileHolds | untilHolds | oneOrMore | switch | predict | loop | require | synpred
  | speculating | attempt | earlyExit | perform => exact hplain.elim

lemma quiet_perform {g : Grammar ParserInstruction}
    {run : Block ParserInstruction → Action (Parser σ) Unit}
    (hrun : ∀ i, Within Quiet (run (g.body i))) (i : ParserInstruction) :
    Within Quiet (perform g run i) := by
  have hroot : Within Quiet (currentRoot : Action (Parser σ) (Option NodeId)) := Within.read _
  cases i with
  | token type follow => exact (quiet_matchToken type follow).bind fun _ => quiet_note _
  | child type follow =>
    refine hroot.bind fun root => Within.bind ?_ fun _ => quiet_note _
    exact (quiet_matchToken type follow).bind fun token =>
      (quiet_addLeaf root token).bind fun _ => Within.pure _
  | root type follow =>
    refine hroot.bind fun root => Within.bind ?_ fun node =>
      (quiet_setRoot node).bind fun _ => quiet_note _
    exact (quiet_matchToken type follow).bind fun token => quiet_addRoot root token
  | set types follow =>
    exact (quiet_matchSet types follow).bind fun token => (quiet_note _).bind fun _ =>
      hroot.bind fun root => quiet_addLeaf root token
  | any =>
    exact quiet_matchAny.bind fun token => (quiet_note _).bind fun _ =>
      hroot.bind fun root => quiet_addLeaf root token
  | call rule follow =>
    exact (quiet_call _ follow (hrun rule)).bind fun node =>
      hroot.bind fun root => quiet_addSubtree root node

lemma quiet_kept {g : Grammar ParserInstruction} (hg : g.All Statement.Discreet) :
    Grammar.Kept (S := TokenStream σ) dialect g Statement.Discreet Quiet where
  lookahead := quiet_lookahead
  symbol := quiet_symbol
  consume := quiet_consume
  seek := quiet_seek
  note e _ := quiet_note e
  fail := quiet_fail
  synpred := quiet_synpred
  speculating := quiet_speculating
  apart hx := (withRoot_within quiet_setRoot hx).discard
  plain hs hplain run fuel := quiet_plain hs hplain _ run fuel
  perform _ _ hrun := quiet_perform (fun i => hrun _ (hg.body i)) _

/-! ## Silence -/

/-- Nothing is different that anybody but a speculation could notice. The flags of the last match,
the records and the trace may be. -/
structure Unheard (r r' : Parser σ) : Prop where
  index_eq : Cursor.index r'.input = Cursor.index r.input
  marks_eq : (marks r'.input).entries = (marks r.input).entries
  backtracking_eq : r'.state.backtracking = r.state.backtracking
  frames_eq : r'.state.frames = r.state.frames
  diagnostics_eq : r'.state.diagnostics = r.state.diagnostics
  syntaxErrors_eq : r'.state.syntaxErrors = r.state.syntaxErrors
  lastFailure_eq : r'.state.lastFailure = r.state.lastFailure
  lastErrorIndex_eq : r'.state.lastErrorIndex = r.state.lastErrorIndex
  escalated_eq : r'.state.escalated = r.state.escalated
  own_eq : r'.own = r.own

/-- A syntactic predicate makes everything quiet, at whatever depth it is tried itself. -/
lemma synpred_unheard {x : Action (Parser σ) Unit} (hx : Within Quiet x) {r₁ : Parser σ}
    (hr : Ready r.input) {outcome : Except Fault Unit}
    (hrun : dialect.apart x (begun true r) = some (outcome, r₁))
    (hopen : (marks (begun true r).input).entries <+: (marks r₁.input).entries) :
    ∃ r', synpred (dialect.apart x) r = some (answer outcome, r') ∧ Unheard r r' := by
  have hquiet : Quiet (begun true r) r₁ := (withRoot_within quiet_setRoot hx).discard hrun
  have hroot : r₁.own.root = (begun true r).own.root := apart_root hrun
  have hdeep : 0 < (begun true r).state.backtracking := Nat.succ_pos _
  have hstate := hquiet.state_eq hdeep
  have htree := hquiet.tree_eq hdeep
  obtain ⟨i, hback, hsynpred⟩ := synpred_apply hr hrun ⟨hquiet.reaches, hopen⟩
  refine ⟨_, hsynpred, ?_⟩
  constructor
  case index_eq =>
    rw [Lawful.index_eq, Lawful.index_eq]
    exact congrArg _ hback.spot_eq
  case marks_eq => exact hback.marks_eq
  case backtracking_eq =>
    have hdepth : r₁.state.backtracking = r.state.backtracking + 1 :=
      State.eq_of_steady (f := State.backtracking) hstate fun _ => rfl
    exact Nat.sub_eq_of_eq_add hdepth
  case frames_eq => exact State.eq_of_steady (f := State.frames) hstate fun _ => rfl
  case diagnostics_eq => exact State.eq_of_steady (f := State.diagnostics) hstate fun _ => rfl
  case syntaxErrors_eq => exact State.eq_of_steady (f := State.syntaxErrors) hstate fun _ => rfl
  case lastFailure_eq => exact State.eq_of_steady (f := State.lastFailure) hstate fun _ => rfl
  case lastErrorIndex_eq =>
    exact State.eq_of_steady (f := State.lastErrorIndex) hstate fun _ => rfl
  case escalated_eq => exact State.eq_of_steady (f := State.escalated) hstate fun _ => rfl
  case own_eq =>
    change (⟨r₁.own.tree, r₁.own.root⟩ : TreeBuilder) = r.own
    rw [htree, hroot]
    rfl

/-- **Speculation is silent.**  A syntactic predicate tries a fragment of a program of which no
statement writes into the state by itself (`Statement.Discreet`).  The stream is live, that is,
operated in any way since it was fresh, with its cursor on a unit; and the fragment comes to an
end, be it with a match, a failure or a misuse.  It must have popped no mark but its own: the
marks that were open when it began are open when it ends (`hopen`), which is all that need be
said, since a mark that is popped does not come back.

Then the predicate comes to an end as well.  It answers whether the fragment has matched, or
hands on the misuse, and nothing is different that anybody but a speculation could notice
(`Unheard`): the place, the open marks, the depth of backtracking, the frames, the reports and
the tree are what they were. -/
theorem synpred_silent {g : Grammar ParserInstruction} (hg : g.All Statement.Discreet)
    {fragment : Block ParserInstruction} (hfragment : Block.All Statement.Discreet fragment)
    (fuel : Nat) {r r₁ : Parser σ} (hr : Live r.input) {outcome : Except Fault Unit}
    (hrun : dialect.apart (run g fuel fragment) (begun true r) = some (outcome, r₁))
    (hopen : (marks (begun true r).input).entries <+: (marks r₁.input).entries) :
    ∃ r', synpred (dialect.apart (run g fuel fragment)) r = some (answer outcome, r') ∧
      Unheard r r' :=
  synpred_unheard (Grammar.run_within (quiet_kept hg) hg fuel hfragment) hr.ready hrun hopen

/-- A grammar of one rule, whose body fails at once. -/
def failing : Grammar ParserInstruction := ⟨[("sum", [.earlyExit 0])], [], []⟩

lemma failing_all {p : Statement ParserInstruction → Prop} (hp : p (.earlyExit 0)) :
    failing.All p where
  body i := by
    match i with
    | 0 => simpa [Grammar.body, failing, Block.All] using .intro hp (by simp [Statement.blocks])
    | i + 1 => simp [Grammar.body, failing, Block.All]
  simulation h := by simp [Grammar.simulation?, failing] at h
  predicate h := by simp [Grammar.predicate?, failing] at h

/-- A parser of one token, in front of which its stream stands. -/
def oneToken : Parser (List Token) :=
  .ofStream ((TokenStream.ofSource [Token.ofText 4 "a"] 0 "").seek 0) .standard .characters

/-- A rule call that leaves a mark open and fails is not heard of. -/
theorem synpred_silent_failing :
    ∃ r', synpred (dialect.apart (run failing 3 [.mark, .perform (.call 0 .bare)])) oneToken =
      some (.ok false, r') ∧ Unheard oneToken r' := by
  have hlive : Live oneToken.input :=
    ⟨⟨_, ⟨_, _, _, rfl⟩, (Step.seek _ 0).reaches⟩, (TokenStream.movesTo_seek _ 0).started⟩
  have hblock {p : Statement ParserInstruction → Prop} (hmark : p .mark)
      (hcall : p (.perform (.call 0 .bare))) : Block.All p [.mark, .perform (.call 0 .bare)] := by
    simp only [Block.All, List.mem_cons, List.not_mem_nil, or_false, forall_eq_or_imp, forall_eq]
    exact ⟨.intro hmark (by simp [Statement.blocks]), .intro hcall (by simp [Statement.blocks])⟩
  obtain ⟨r₁, hrun⟩ : ∃ r₁, dialect.apart (run failing 3 [.mark, .perform (.call 0 .bare)])
      (begun true oneToken) = some (.error .backtracking, r₁) := ⟨_, rfl⟩
  have htame : Tame (begun true oneToken) r₁ :=
    (tame_kept (failing_all trivial)).apart
      (tame_run (failing_all trivial) 3 (hblock trivial trivial)) hrun
  exact synpred_silent (failing_all trivial) (hblock trivial trivial) 3 hlive hrun
    (htame (Lawful.mark hlive.ready).ready).2.1

/-- A program that pops no marks at all is silent in any case. -/
theorem synpred_unheard_of_keeping {g : Grammar ParserInstruction} (hg : g.All Statement.Discreet)
    (hkeeping : g.All Statement.Keeping) {fragment : Block ParserInstruction}
    (hfragment : Block.All Statement.Discreet fragment)
    (hfragment' : Block.All Statement.Keeping fragment) (fuel : Nat) {r r' : Parser σ}
    (hr : Live r.input) {o : Except Fault Bool}
    (hrun : synpred (dialect.apart (run g fuel fragment)) r = some (o, r')) : Unheard r r' := by
  obtain ⟨outcome, r₁, hfragmentRun⟩ := synpred_eq_some hrun
  have htame : Tame (begun true r) r₁ :=
    (tame_kept hkeeping).apart (tame_run hkeeping fuel hfragment') hfragmentRun
  obtain ⟨-, hopen, -⟩ := htame (Lawful.mark hr.ready).ready
  obtain ⟨r'', hsynpred, hunheard⟩ := synpred_unheard
    (Grammar.run_within (quiet_kept hg) hg fuel hfragment) hr.ready hfragmentRun hopen
  obtain ⟨-, rfl⟩ := Prod.mk.inj (Option.some.inj (hsynpred.symm.trans hrun))
  exact hunheard

end Parser

end Lookahead
