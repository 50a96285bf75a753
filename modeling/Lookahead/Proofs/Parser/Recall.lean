import Lookahead.Proofs.Parser.Replay

/-!
# Rule calls in lockstep

At depth 0 nothing is recorded and nothing replayed, and twins go through a rule call together.

In a speculation a rule call comes down to the body of the rule, with a frame pushed around it
(`call_of_missing`).  The plain parser always runs the body.  The second one may have a record
instead (`call_follows`).  Either way the two end at the same place: what it records is what becomes
of all plain runs (`recalls_recorded`), the first parser's among them.
-/

namespace Lookahead

open Action Cursor Recognizer

variable {σ : Type} [TokenSource σ] {α : Type}

lemma State.Similar.of_steady {s s' t : State} (h : s.Similar t)
    (hsteady : s'.steady = s.steady) (hrecovering : s'.recovering = s.recovering) :
    s'.Similar t := by
  obtain ⟨failed, memo, memoize, depth, rfl⟩ := h
  refine ⟨failed, memo, memoize, depth, ?_⟩
  cases s
  cases s'
  simp only [steady, State.mk.injEq] at hsteady hrecovering ⊢
  obtain ⟨rfl, rfl, -, -, rfl, rfl, rfl, rfl, -, rfl, rfl, rfl, rfl⟩ := hsteady
  simp [hrecovering]

namespace Parser

variable {c : Trial} {i : Stage} {fault : Option Fault} {r r' s s' : Parser σ}
  {x y : Action (Parser σ) Unit} {rule : Rule} {follow : TokenSet}

/-- A rule call, with its notes taken in one step. -/
lemma call_eq (rule : Rule) (follow : TokenSet) (body : Action (Parser σ) Unit) :
    call rule follow body = (do
      let entry ← (enterRule rule follow).attempt
      .update (remarked fun r => .entered rule.name (Cursor.index r.input) (Fault.ofOutcome entry))
      match ← .ofExcept entry with
      | none => return none
      | some start =>
        let outcome ← (runBody start body).attempt
        let result ← (exitRule start outcome).attempt
        .update (remarked fun r => .exited rule.name (Cursor.index r.input)
          (Fault.ofOutcome result) (match result with
            | .ok (some node) => some (r.own.tree.render node)
            | _ => none))
        .ofExcept result) := by
  rfl

/-! ## At depth 0 -/

lemma lockstep_enterAnew :
    Lockstep c i (enterAnew rule follow : Action (Parser σ) (Option RuleStart))
      (enterAnew rule follow) :=
  lockstep_symbol.bind fun _ => lockstep_index.bind fun index =>
    (lockstep_updateState (State.modest_pushFrame rule follow index)).bind fun _ => .pure _

lemma lockstep_runBody (hxy : Lockstep c i x y) (start : RuleStart) :
    Lockstep c i (runBody start x) (runBody start y) :=
  lockstep_beginTree.bind fun root => (lockstep_withRoot hxy root).bind fun inner =>
    lockstep_finishTree inner start

/-- No record is looked for at depth 0. -/
lemma enterRule_of_depth (hr : r.state.backtracking = 0) :
    enterRule rule follow r = enterAnew rule follow r := by
  simp [enterRule, enterAnew, replay, isMemoizing, bind_apply, hr]

section

variable (hi : i.depth = 0)

include hi

lemma couples_exitRule (start : RuleStart) (outcome : Except Fault (Option NodeId)) :
    Couples (Fair c.limit) (Tied c i (Fault.ofOutcome outcome)) (exitRule start outcome)
      (exitRule start outcome : Action (Parser σ) _) fun o => Tied c i (Fault.ofOutcome o) := by
  refine Couples.read_bind (fun r s h => ?_) fun recovers => ?_
  · obtain ⟨failed, memo, memoize, depth, hs⟩ := h.similar hi
    rw [hs]
  refine Couples.attempt_bind (Q := fun o => Tied c i (Fault.ofOutcome o)) ?_ fun result => ?_
  · split
    · rename_i f
      refine (lockstep_recoverInRule hi start f).mono (fun r s h => ?_) fun _ _ _ h => h
      exact h.of_depth hi fun _ hcause => by cases hcause
    · exact Couples.ofExcept fun _ _ h => h
  · have hpop : Couples (Fair c.limit) (Tied c i (Fault.ofOutcome result))
        (do updateState State.popFrame; .ofExcept result)
        (do updateState State.popFrame; .ofExcept result : Action (Parser σ) _)
        fun o => Tied c i (Fault.ofOutcome o) :=
      Couples.update_bind (fun _ => fades_of_trace_eq rfl)
        (fun _ _ h => h.updated State.modest_popFrame) (Couples.ofExcept fun _ _ h => h)
    refine hpop.of_eq ?_ fun r s h => ?_
    · exact (fades_of_onward (onward_of_rests (rests_record start result))).bind fun _ => hpop.fades
    · have hr : r.state.backtracking = 0 := h.counterparts.depth_eq.trans hi
      have hs : s.state.backtracking = 0 := by
        rw [h.counterparts.depth_eq', h.depth_eq (h.twin_of_depth hi), hi]
      constructor
      · rw [bind_apply, record_of_depth hr]
      · rw [bind_apply, record_of_depth hs]

/-- A rule call at depth 0. -/
lemma lockstep_call_of_depth (hxy : Lockstep c i x y) :
    Lockstep c i (call rule follow x) (call rule follow y) := by
  have henter : Lockstep c i (enterRule rule follow : Action (Parser σ) (Option RuleStart))
      (enterRule rule follow) := by
    have hfades : Within (Fades (Fair c.limit)) (enterRule rule follow : Action (Parser σ) _) :=
      fades_of_onward (onward_of_still (still_enterRule rule follow))
    refine lockstep_enterAnew.of_eq hfades fun r s h =>
      ⟨enterRule_of_depth (h.counterparts.depth_eq.trans hi), enterRule_of_depth ?_⟩
    rw [h.counterparts.depth_eq', h.depth_eq (h.twin_of_depth hi), hi]
  rw [call_eq, call_eq]
  refine Couples.attempt_bind henter fun entry => couples_remark ?_
  rcases entry with e | _ | start
  · exact Couples.ofExcept (o := .error e) fun _ _ h => h
  · exact Paired.pure none
  · refine Couples.attempt_bind (lockstep_runBody hxy start) fun outcome => ?_
    refine Couples.attempt_bind (couples_exitRule hi start outcome) fun result => ?_
    exact couples_remark (Couples.ofExcept fun _ _ h => h)

end

/-! ## While speculating -/

/-- What is noted of a rule that starts at the cursor, once the current token was read. -/
def startOf (rule : Rule) (r : Parser σ) : RuleStart :=
  ⟨rule, Cursor.index (Cursor.symbol r.input).2, (Cursor.symbol r.input).1⟩

/-- A speculating parser as the body of a rule finds it, which has no root there. -/
def inside (rule : Rule) (follow : TokenSet) (r : Parser σ) : Parser σ :=
  { r with
    input := (Cursor.symbol r.input).2
    state := r.state.pushFrame rule follow (startOf rule r).index
    own := { r.own with root := none }
    trace := r.trace.push (.entered rule.name (startOf rule r).index none) }

/-- A speculating parser that has left a rule and is back under the root of the caller. -/
def outside (start : RuleStart) (root : Option NodeId) (o : Except Fault Unit) (r : Parser σ) :
    Parser σ :=
  { r with
    state := (recorded start (Cursor.index r.input) o r.state).popFrame
    own := { r.own with root }
    trace := r.trace.push
      (.exited start.rule.name (Cursor.index r.input) (Fault.ofOutcome o) none) }

lemma enterRule_of_missing (h : Missing rule r) :
    enterRule rule follow r = enterAnew rule follow r := by
  rw [enterRule, bind_apply, replay_of_missing h]
  rfl

lemma runBody_of_backtracking {body : Action (Parser σ) Unit} {o : Except Fault Unit}
    {r₁ : Parser σ} (hr : 0 < r.state.backtracking) (start : RuleStart)
    (hbody : body { r with own := { r.own with root := none } } = some (o, r₁))
    (hr₁ : 0 < r₁.state.backtracking) :
    runBody start body r =
      some (o.map fun _ => none, { r₁ with own := { r₁.own with root := r.own.root } }) := by
  have hroot : withRoot none body r = some (o.map fun _ => r₁.own.root,
      { r₁ with own := { r₁.own with root := r.own.root } }) := by
    simp only [withRoot, currentRoot, setRoot, bind_apply, readOwn_apply, updateOwn_apply,
      attempt_apply, hbody, Option.map_some]
    cases o <;> rfl
  rw [runBody, bind_apply, beginTree_of_backtracking hr]
  simp only [bind_apply, hroot]
  cases o with
  | error e => rfl
  | ok a =>
    show finishTree r₁.own.root start { r₁ with own := { r₁.own with root := r.own.root } } = _
    rw [finishTree_of_backtracking (by exact hr₁)]
    rfl

/-- A rule call that is not replayed. -/
lemma call_of_missing {body : Action (Parser σ) Unit} {o : Except Fault Unit} {r₁ : Parser σ}
    (hr : 0 < r.state.backtracking) (hmissing : Missing rule r)
    (hbody : body (inside rule follow r) = some (o, r₁)) (hr₁ : 0 < r₁.state.backtracking) :
    call rule follow body r =
      some (o.map fun _ => none, outside (startOf rule r) r.own.root o r₁) := by
  have hrunBody := runBody_of_backtracking (r := { inside rule follow r with own := r.own }) hr
    (startOf rule r) hbody hr₁
  rw [call_eq]
  refine attempt_bind_eq_some.2 ⟨_, _, enterRule_of_missing hmissing, ?_⟩
  refine attempt_bind_eq_some.2 ⟨_, _, hrunBody, ?_⟩
  refine attempt_bind_eq_some.2 ⟨_, _, exitRule_of_backtracking (by exact hr₁) _ _, ?_⟩
  cases o <;> rfl

/-- A rule call that is not replayed runs the rule's body. -/
lemma body_of_call {body : Action (Parser σ) Unit} {o : Except Fault (Option NodeId)}
    (hr : 0 < r.state.backtracking) (hmissing : Missing rule r)
    (h : call rule follow body r = some (o, r')) :
    ∃ o₁ r₁, body (inside rule follow r) = some (o₁, r₁) := by
  rw [call_eq] at h
  obtain ⟨entry, r₁, henter, hrest⟩ := attempt_bind_eq_some.1 h
  rw [enterRule_of_missing hmissing] at henter
  obtain ⟨rfl, rfl⟩ := Prod.mk.inj (Option.some.inj henter)
  obtain ⟨outcome, r₂, hrunBody, -⟩ := attempt_bind_eq_some.1 hrest
  rcases hbody : body (inside rule follow r) with _ | ⟨o₁, r₁⟩
  · have hnone : runBody (startOf rule r) body
        { inside rule follow r with own := r.own } = none := by
      have hbody : body { inside rule follow r with
          own := { r.own with root := none } } = none := hbody
      rw [runBody, bind_apply, beginTree_of_backtracking (by exact hr)]
      simp only [withRoot, currentRoot, setRoot, bind_apply, readOwn_apply, updateOwn_apply,
        attempt_apply, hbody, Option.map_none]
    cases hnone.symm.trans hrunBody
  · exact ⟨o₁, r₁, rfl⟩

/-- A rule that is recorded to fail fails at once. -/
lemma call_of_failed (follow : TokenSet) (body : Action (Parser σ) Unit)
    (hmemoizing : (0 < r.state.backtracking && r.state.options.memoize) = true)
    (hentry : r.state.memoized rule (Cursor.index r.input) = some .failed) :
    call rule follow body r = some (.error .backtracking,
      { r with
        state := { r.state with failed := true }
        trace := r.trace.push
          (.entered rule.name (Cursor.index r.input) (some .backtracking)) }) := by
  have henter : enterRule rule follow r =
      some (.error .backtracking, { r with state := { r.state with failed := true } }) := by
    rw [enterRule, bind_apply, replay_of_failed hmemoizing hentry]
  rw [call_eq]
  exact attempt_bind_eq_some.2 ⟨_, _, henter, rfl⟩

/-- A rule that is recorded to match takes the input to where it stopped. -/
lemma call_of_parsed (follow : TokenSet) (body : Action (Parser σ) Unit) {stop : Nat}
    (hmemoizing : (0 < r.state.backtracking && r.state.options.memoize) = true)
    (hentry : r.state.memoized rule (Cursor.index r.input) = some (.parsed stop)) :
    call rule follow body r = some (.ok none,
      { r with
        input := Cursor.seek r.input stop
        trace := r.trace.push
          (.entered rule.name (Cursor.index (Cursor.seek r.input stop)) none) }) := by
  have henter : enterRule rule follow r =
      some (.ok none, { r with input := Cursor.seek r.input stop }) := by
    rw [enterRule, bind_apply, replay_of_parsed hmemoizing hentry]
    rfl
  rw [call_eq]
  exact attempt_bind_eq_some.2 ⟨_, _, henter, rfl⟩

/-! ## The second parser records -/

lemma Tied.remembering {memo : MemoTable} (h : Tied c i fault r s)
    (hmemo : c.twin = true → (∀ cause, fault ≠ some (.misuse cause)) → Recalls c s.input memo) :
    Tied c i fault r { s with state := { s.state with memo } } where
  facing := h.facing
  counterparts := by
    refine ⟨h.counterparts.options_eq, h.counterparts.options_eq', h.counterparts.depth_eq,
      h.counterparts.depth_eq', fun htwin => ?_⟩
    obtain ⟨failed, _, memoize, depth, hs⟩ := h.counterparts.similar htwin
    exact ⟨failed, memo, memoize, depth, by rw [hs]⟩
  root_eq := h.root_eq
  tree_eq := h.tree_eq
  depth_eq := h.depth_eq
  pos := h.pos
  shallow := h.shallow
  recalls := hmemo

lemma Tied.inside (h : Tied c i none r s) (rule : Rule) (follow : TokenSet) :
    startOf rule s = startOf rule r ∧
      Tied c i none (inside rule follow r) (inside rule follow s) := by
  obtain ⟨htoken, habreast⟩ := (h.facing.abreast (.inl rfl)).symbol
  have hstart : startOf rule s = startOf rule r := by
    simp only [startOf, htoken]
    exact congrArg (fun n => (⟨rule, n, _⟩ : RuleStart)) habreast.place_eq
  have hmoved := h.moved (TokenStream.wanders_symbol _) (TokenStream.wanders_symbol _) habreast
  have hpushed := hmoved.updated (State.modest_pushFrame rule follow (startOf rule r).index)
  refine ⟨hstart, ?_⟩
  unfold Parser.inside
  rw [hstart]
  exact (hpushed.rooted none).traced

/-! ## The second parser replays -/

/-- A second parser that is at the place where the first one has gone, without having gone there. -/
lemma Tied.replayed {t : TokenStream σ} {failed : Bool} {e : Event} {r₁ s₁ : Parser σ}
    (h : Tied c i none r s) (htwin : c.twin = true) (hi : 0 < i.depth)
    (h₁ : Tied c i fault r₁ s₁) (hinput : r'.input = r₁.input) (hquiet : Quiet r r')
    (hrecovering : r'.state.recovering = r.state.recovering) (hroot : r'.own.root = r.own.root)
    (ht : s.input.Wanders t) (horderly : t.Orderly)
    (habreast : fault = none ∨ i.depth = 0 → r₁.input.Abreast t) :
    Tied c i fault r'
      { s with input := t, state := { s.state with failed }, trace := s.trace.push e } := by
  have hr := (h.backtracking_pos hi).1
  have hsteady := hquiet.state_eq hr
  constructor
  case facing =>
    rw [hinput]
    refine ⟨⟨h₁.facing.parallel.orderly, horderly, ?_⟩, h₁.facing.input_eq, habreast,
      fun hi' => ⟨(h₁.facing.started hi').1, ht.started (h.facing.started hi').2⟩,
      h₁.facing.numbered, h₁.facing.marks_eq, ?_⟩
    · rw [ht.input_eq, h.facing.parallel.input_eq, h.facing.input_eq, h₁.facing.input_eq]
    · exact (congrArg MarkStack.entries ht.marks_eq).trans h.facing.marks_eq'
  case counterparts =>
    refine ⟨?_, h.counterparts.options_eq', ?_, h.counterparts.depth_eq', fun _ => ?_⟩
    · exact (State.eq_of_steady (f := State.options) hsteady fun _ => rfl).trans
        h.counterparts.options_eq
    · exact (State.eq_of_steady (f := State.backtracking) hsteady fun _ => rfl).trans
        h.counterparts.depth_eq
    · have hsimilar := (h.counterparts.similar htwin).of_steady hsteady hrecovering
      obtain ⟨_, memo, memoize, depth, hs⟩ := hsimilar
      exact ⟨failed, memo, memoize, depth, by rw [hs]⟩
  case root_eq => exact h.root_eq.trans hroot.symm
  case tree_eq => exact fun _ => (h.tree_eq htwin).trans (hquiet.tree_eq hr).symm
  case depth_eq => exact h.depth_eq
  case pos => exact h.pos
  case shallow => exact h₁.shallow
  case recalls =>
    exact fun _ _ => (h.recalls htwin fun _ hcause => by cases hcause).of_input_eq ht.input_eq

/-! ## Both sides of a rule call -/

/-- All plain runs of a rule's body come to the same, wherever else they are from. -/
def Settled (σ : Type) [TokenSource σ] (c : Trial) (rule : Nat) (fuel : Nat) : Prop :=
  ∀ (q q₂ : Parser σ) (fuel₂ : Nat) (o o₂ : Except Fault Unit) (q' q₂' : Parser σ),
    Rehearses c fuel q → Rehearses c fuel₂ q₂ → View.input q₂.input = View.input q.input →
    q₂.input.place = q.input.place →
    c.grammar.run watchful fuel (c.grammar.body rule) q = some (o, q') → Fair c.limit q' →
    c.grammar.run watchful fuel₂ (c.grammar.body rule) q₂ = some (o₂, q₂') → Fair c.limit q₂' →
    o₂ = o ∧ (o = .ok () → q₂'.input.place = q'.input.place)

omit [TokenSource σ] in
lemma ofOutcome_map {β : Type} (o : Except Fault α) (f : α → β) :
    Fault.ofOutcome (o.map f) = Fault.ofOutcome o := by
  cases o <;> rfl

variable {n fuel fuel' : Nat} {r₁ s₁ : Parser σ} {o : Except Fault Unit}

lemma Tied.rehearses (h : Tied c i none r s) (hi : 0 < i.depth) (hroom : i.depth + fuel ≤ c.bound)
    (rule : Rule) (follow : TokenSet) : Rehearses c fuel (Parser.inside rule follow r) := by
  obtain ⟨-, htied⟩ := h.inside rule follow
  refine ⟨(htied.onToken (.inl hi)).1, htied.facing.numbered, htied.counterparts.options_eq, ?_, ?_,
    rfl⟩
  · exact (htied.backtracking_pos hi).1
  · rw [htied.counterparts.depth_eq]
    exact hroom

/-- What the second parser records of a rule is what becomes of all plain runs. -/
lemma recalls_recorded (h : Tied c i none r s) (hi : 0 < i.depth)
    (hroom : i.depth + fuel ≤ c.bound) (hsettled : Settled σ c n fuel) (hfair : Fair c.limit r₁)
    (hbody : c.grammar.run watchful fuel (c.grammar.body n)
      (Parser.inside (c.grammar.rule n) follow r) = some (o, r₁))
    (h₁ : Tied c i (Fault.ofOutcome o) r₁ s₁) (htwin : c.twin = true)
    (hmisuse : ∀ cause, Fault.ofOutcome o ≠ some (.misuse cause)) :
    Recalls c s₁.input (recorded (startOf (c.grammar.rule n) s) (Cursor.index s₁.input) o
      s₁.state).memo := by
  have hold := h₁.recalls htwin hmisuse
  unfold recorded
  split
  · intro rule' start' entry' hentry fuel₂ q₂ o₂ q₂' hq₂ hinput hplace hrun hfair₂
    have hinsert : (s₁.state.memo.insert n (startOf (c.grammar.rule n) s).index _).find?
        rule' start' = some entry' := hentry
    rw [MemoTable.find?_insert] at hinsert
    split at hinsert
    · rename_i hkey
      obtain ⟨rfl, hstart⟩ := Prod.mk.inj hkey
      obtain ⟨hsame, htied⟩ := h.inside (c.grammar.rule rule') follow
      have hinput' : View.input q₂.input =
          View.input (Parser.inside (c.grammar.rule rule') follow r).input := by
        rw [hinput, h₁.facing.parallel.input_eq, h₁.facing.input_eq, htied.facing.input_eq]
      have hplace' : q₂.input.place =
          (Parser.inside (c.grammar.rule rule') follow r).input.place := by
        rw [hplace, hstart, hsame]
        rfl
      obtain ⟨rfl, hstop⟩ := hsettled _ q₂ fuel₂ o o₂ r₁ q₂' (h.rehearses hi hroom _ follow) hq₂
        hinput' hplace' hbody hfair hrun hfair₂
      obtain rfl := Option.some.inj hinsert
      rcases o₂ with (f | _ | cause) | _
      · exact absurd (h₁.shallow f rfl) (by omega)
      · rfl
      · exact absurd rfl (hmisuse cause)
      · refine ⟨rfl, (hstop rfl).trans ?_⟩
        exact (h₁.facing.abreast (.inl rfl)).place_eq.symm
    · exact hold rule' start' entry' hinsert fuel₂ q₂ o₂ q₂' hq₂ hinput hplace hrun hfair₂
  · exact hold

/-- Leaving a rule on both sides. -/
lemma Tied.outside (h₁ : Tied c i fault r₁ s₁) (hr₁ : r₁.state.options.memoize = false)
    (start : RuleStart) (root : Option NodeId) (o : Except Fault Unit)
    (hrecalls : c.twin = true → (∀ cause, fault ≠ some (.misuse cause)) →
      Recalls c s₁.input (recorded start (Cursor.index s₁.input) o s₁.state).memo) :
    Tied c i fault (outside start root o r₁) (outside start root o s₁) := by
  have hleft : recorded start (Cursor.index r₁.input) o r₁.state = r₁.state := by
    unfold recorded
    rw [hr₁, Bool.and_false, if_neg Bool.false_ne_true]
  obtain ⟨memo, hmemo⟩ := recorded_eq start (Cursor.index s₁.input) o s₁.state
  rw [hmemo] at hrecalls
  have hpopped := (h₁.remembering hrecalls).updated State.modest_popFrame
  unfold Parser.outside
  rw [hleft, hmemo]
  exact (hpopped.rooted root).traced

/-- The second parser replays a record of what the first one does. -/
lemma call_recorded (h : Tied c i none r s) (hi : 0 < i.depth) (hroom : i.depth + fuel ≤ c.bound)
    (hbody : c.grammar.run watchful fuel (c.grammar.body n)
      (Parser.inside (c.grammar.rule n) follow r) = some (o, r₁)) (hfair : Fair c.limit r₁)
    (h₁ : Tied c i (Fault.ofOutcome o) r₁ s₁)
    (hquiet : Quiet r (Parser.outside (startOf (c.grammar.rule n) r) r.own.root o r₁))
    (hrecovering :
      (Parser.outside (startOf (c.grammar.rule n) r) r.own.root o r₁).state.recovering =
        r.state.recovering)
    (hrecorded : ¬Missing (c.grammar.rule n) s) (y : Action (Parser σ) Unit) :
    ∃ s', call (c.grammar.rule n) follow y s = some (o.map fun _ => none, s') ∧
      Tied c i (Fault.ofOutcome o)
        (Parser.outside (startOf (c.grammar.rule n) r) r.own.root o r₁) s' := by
  obtain ⟨hmemoizing, hfound⟩ := Classical.not_imp.1 hrecorded
  obtain ⟨entry, hentry⟩ := Option.ne_none_iff_exists'.1 hfound
  have htwin : c.twin = true := by
    by_contra htwin
    rw [h.counterparts.options_eq', Trial.second, if_neg htwin] at hmemoizing
    simp [Trial.plain, Options.plain] at hmemoizing
  obtain ⟨-, htied⟩ := h.inside (c.grammar.rule n) follow
  have hplace : (Parser.inside (c.grammar.rule n) follow r).input.place = Cursor.index s.input := by
    have hsymbol := (Lawful.symbol (S := TokenStream σ) (h.onToken (.inl hi)).1).spot_eq
    exact Eq.trans hsymbol (h.facing.abreast (.inl rfl)).place_eq.symm
  have hinput : View.input (Parser.inside (c.grammar.rule n) follow r).input =
      View.input s.input := by
    rw [htied.facing.input_eq, h.facing.parallel.input_eq, h.facing.input_eq]
  have htells := h.recalls htwin (fun _ hcause => by cases hcause) n _ entry hentry fuel _ o r₁
    (h.rehearses hi hroom _ follow) hinput hplace hbody hfair
  cases entry with
  | failed =>
    obtain rfl : o = .error .backtracking := htells
    refine ⟨_, call_of_failed follow y hmemoizing hentry, h.replayed htwin hi h₁ rfl hquiet
      hrecovering rfl (refl_of _ s.input) h.facing.parallel.orderly' fun hfault => ?_⟩
    rcases hfault with hfault | hfault
    · cases hfault
    · omega
  | parsed stop =>
    obtain ⟨rfl, hstop⟩ : o = .ok () ∧ r₁.input.place = stop := htells
    refine ⟨_, call_of_parsed follow y hmemoizing hentry, h.replayed htwin hi h₁ rfl hquiet
      hrecovering rfl (TokenStream.wanders_seek s.input stop)
      (h.facing.parallel.orderly'.step (.seek s.input stop)) fun _ => ?_⟩
    obtain ⟨hon, -⟩ := h₁.onToken (.inl hi)
    have hsame : View.input s.input = View.input r₁.input := by
      rw [h.facing.parallel.input_eq, h.facing.input_eq, h₁.facing.input_eq]
    exact hon.abreast_seek h.facing.parallel.orderly' hsame hstop

/-- **A rule call in a speculation.**  The second parser may replay a record. -/
lemma call_follows (h : Tied c i none r s) (hi : 0 < i.depth)
    (hroom : i.depth + fuel ≤ c.bound) (hsettled : c.twin = true → Settled σ c n fuel)
    (hquiet : Within Quiet (c.grammar.run watchful fuel (c.grammar.body n) :
      Action (Parser σ) Unit))
    (hblock : Lockstep c i (c.grammar.run watchful fuel (c.grammar.body n) : Action (Parser σ) Unit)
      (c.grammar.run dialect fuel' (c.grammar.body n)))
    {result : Except Fault (Option NodeId)}
    (hrun : call (c.grammar.rule n) follow (c.grammar.run watchful fuel (c.grammar.body n)) r =
      some (result, r')) (hfair : Fair c.limit r')
    (hrecovering : r'.state.recovering = r.state.recovering) :
    ∃ s', call (c.grammar.rule n) follow (c.grammar.run dialect fuel' (c.grammar.body n)) s =
      some (result, s') ∧ Tied c i (Fault.ofOutcome result) r' s' := by
  obtain ⟨hr, hs⟩ := h.backtracking_pos hi
  have hmemoize {q : Parser σ} (hq : q.state.options = c.plain) :
      q.state.options.memoize = false := by
    rw [hq]
    rfl
  have hmissing : Missing (c.grammar.rule n) r := by
    intro hmemoizing
    rw [hmemoize h.counterparts.options_eq, Bool.and_false] at hmemoizing
    cases hmemoizing
  have hquietCall : Quiet r r' := quiet_call _ follow hquiet hrun
  obtain ⟨o, r₁, hbody⟩ := body_of_call hr hmissing hrun
  obtain ⟨hstart, htied⟩ := h.inside (c.grammar.rule n) follow
  have hr₁ : 0 < r₁.state.backtracking := by
    have hinside := (htied.backtracking_pos hi).1
    have hsteady := (hquiet hbody).state_eq hinside
    rw [State.eq_of_steady (f := State.backtracking) hsteady fun _ => rfl]
    exact hinside
  rw [call_of_missing hr hmissing hbody hr₁] at hrun
  obtain ⟨rfl, rfl⟩ := Prod.mk.inj (Option.some.inj hrun)
  rw [ofOutcome_map]
  have hfair₁ : Fair c.limit r₁ := (fair_push.1 hfair).1
  obtain ⟨s₁, hbody', h₁⟩ := hblock.follows hbody hfair₁ _ htied
  by_cases hmissing' : Missing (c.grammar.rule n) s
  · refine ⟨_, call_of_missing hs hmissing' hbody' (h₁.backtracking_pos hi).2, ?_⟩
    rw [h.root_eq, hstart]
    refine h₁.outside (hmemoize h₁.counterparts.options_eq) _ _ o fun htwin hmisuse => ?_
    rw [← hstart]
    exact recalls_recorded h hi hroom (hsettled htwin) hfair₁ hbody h₁ htwin hmisuse
  · exact call_recorded h hi hroom hbody hfair₁ h₁ hquietCall hrecovering hmissing' _

/-! ## Instructions -/

lemma fades_call {x : Action (Parser σ) Unit} (hx : Within (Fades (Fair c.limit)) x) :
    Within (Fades (Fair c.limit)) (call rule follow x) := by
  have hrests {r r' : Parser σ} (h : Rests r r') : Fades (Fair c.limit) r r' :=
    fades_of_trace_eq h.trace_eq
  refine call_within (fun _ _ => hrests) (fun e _ => Within.update fun _ => fades_push) ?_ ?_ hx
  · exact fades_of_onward (onward_of_still (still_enterRule rule follow))
  · intro start outcome
    exact fades_of_onward ((calm_exitRule start outcome).mono fun _ _ h => h.toOnward)

/-- A rule call as an instruction.  While speculating, nothing is built of its tree. -/
lemma lockstep_perform_call (hroom : i.depth + fuel ≤ c.bound)
    (hsettled : c.twin = true → Settled σ c n fuel)
    (hquiet : Within Quiet (c.grammar.run watchful fuel (c.grammar.body n) :
      Action (Parser σ) Unit))
    (hblock : Lockstep c i (c.grammar.run watchful fuel (c.grammar.body n) : Action (Parser σ) Unit)
      (c.grammar.run dialect fuel' (c.grammar.body n))) (follow : TokenSet) :
    Lockstep c i (watched (perform c.grammar (c.grammar.run watchful fuel) (.call n follow)) :
        Action (Parser σ) Unit)
      (perform c.grammar (c.grammar.run dialect fuel') (.call n follow)) := by
  rcases Nat.eq_zero_or_pos i.depth with hi | hi
  · refine couples_watched ((lockstep_call_of_depth hi hblock).bind fun node => ?_)
    exact lockstep_currentRoot.bind fun root => lockstep_addSubtree root node
  · have hadd {q : Parser σ} (hq : 0 < q.state.backtracking) (node : Option NodeId) :
        (do addSubtree (← currentRoot) node : Action (Parser σ) Unit) q = some (.ok (), q) :=
      addSubtree_of_backtracking hq q.own.root node
    refine ⟨within_watched ?_, fun r o r' hrun hfair s h => ?_⟩
    · refine (fades_call hblock.fades).bind fun node => (Within.read _).bind fun root => ?_
      exact fades_of_onward (onward_of_rests (rests_addSubtree root node))
    · obtain ⟨hperform, hrecovering⟩ := watched_eq_some.1 hrun
      have hr := (h.backtracking_pos hi).1
      rcases bind_eq_some.1 hperform with ⟨node, r₁, hcall, hrest⟩ | ⟨e, hcall, rfl⟩
      · have hquietCall : Quiet r r₁ := quiet_call _ follow hquiet hcall
        have hr₁ : 0 < r₁.state.backtracking := by
          rw [State.eq_of_steady (f := State.backtracking) (hquietCall.state_eq hr) fun _ => rfl]
          exact hr
        rw [hadd hr₁] at hrest
        obtain ⟨rfl, rfl⟩ := Prod.mk.inj (Option.some.inj hrest)
        obtain ⟨s₁, hcall', h₁⟩ := call_follows h hi hroom hsettled hquiet hblock hcall hfair
          (hrecovering hr)
        refine ⟨s₁, bind_eq_some.2 (.inl ⟨node, s₁, hcall', ?_⟩), h₁⟩
        exact hadd (h₁.backtracking_pos hi).2 node
      · obtain ⟨s₁, hcall', h₁⟩ := call_follows h hi hroom hsettled hquiet hblock hcall hfair
          (hrecovering hr)
        exact ⟨s₁, bind_eq_some.2 (.inr ⟨e, hcall', rfl⟩), h₁⟩

lemma lockstep_perform (hroom : i.depth + fuel ≤ c.bound)
    (hsettled : ∀ n, c.twin = true → Settled σ c n fuel)
    (hquiet : ∀ n, Within Quiet (c.grammar.run watchful fuel (c.grammar.body n) :
      Action (Parser σ) Unit))
    (hblock : ∀ n, Lockstep c i
      (c.grammar.run watchful fuel (c.grammar.body n) : Action (Parser σ) Unit)
      (c.grammar.run dialect fuel' (c.grammar.body n))) (instruction : ParserInstruction) :
    Lockstep c i (watched (perform c.grammar (c.grammar.run watchful fuel) instruction) :
        Action (Parser σ) Unit)
      (perform c.grammar (c.grammar.run dialect fuel') instruction) := by
  cases instruction with
  | call n follow => exact lockstep_perform_call hroom (hsettled n) (hquiet n) (hblock n) follow
  | token type follow =>
    exact couples_watched ((lockstep_matchToken type follow).bind fun _ => lockstep_note _ _)
  | child type follow =>
    refine couples_watched (lockstep_currentRoot.bind fun root => Paired.bind ?_ fun token =>
      lockstep_note _ _)
    exact (lockstep_matchToken type follow).bind fun token =>
      (lockstep_addLeaf root token).bind fun _ => .pure token
  | root type follow =>
    refine couples_watched (lockstep_currentRoot.bind fun root => Paired.bind ?_ fun node =>
      (lockstep_setRoot node).bind fun _ => lockstep_note _ _)
    exact (lockstep_matchToken type follow).bind fun token => lockstep_addRoot root token
  | set types follow =>
    refine couples_watched ((lockstep_matchSet types follow).bind fun token =>
      (lockstep_note _ _).bind fun _ => ?_)
    exact lockstep_currentRoot.bind fun root => lockstep_addLeaf root token
  | any =>
    refine couples_watched (lockstep_matchAny.bind fun token =>
      (lockstep_note _ _).bind fun _ => ?_)
    exact lockstep_currentRoot.bind fun root => lockstep_addLeaf root token

end Parser

end Lookahead
