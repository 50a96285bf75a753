import Lookahead.Grammar.Walking
import Lookahead.Proofs.Grammar.Soundness
import Lookahead.Proofs.Recognizer.Course

/-!
# The records of walkers

Walkers are `Faithful`.  They have nothing of their own, so that all there is to show is that a
match takes two walkers at one place to one place again, and that a rule call runs the rule's body
or goes on from the record.
-/

namespace Lookahead

open Action Cursor Recognizer
open Cursor.View (Ready spot)

namespace Walker

variable {α : Type} {c : Setting NodeStream Unit WalkerInstruction} {m : Nat}
  {j : Footing NodeStream} {r r' : Walker}

/-! ## Passing over children -/

lemma reaches_skipLevels (fuel level : Nat) (s : NodeStream) :
    Reaches s (skipLevels fuel level s) := by
  fun_induction skipLevels fuel level s with
  | case1 | case2 | case5 => exact Reaches.refl _
  | case3 | case4 | case6 =>
    rename_i ih
    exact (Step.consume _).reaches.trans ih

/-- Streams at one place pass over the same units. -/
lemma placed_skipLevels {input : View.Input NodeStream} {ms ms' : List (Nat × View.Spot NodeStream)}
    {s s' : NodeStream} (fuel level : Nat) (h : Placed input ms s) (h' : Placed input ms' s')
    (hspot : spot s' = spot s) :
    Placed input ms (skipLevels fuel level s) ∧ Placed input ms' (skipLevels fuel level s') ∧
      spot (skipLevels fuel level s') = spot (skipLevels fuel level s) := by
  induction fuel generalizing level s s' with
  | zero => exact ⟨h, h', hspot⟩
  | succ fuel ih =>
    cases level with
    | zero => exact ⟨h, h', hspot⟩
    | succ level =>
      have hinput : View.input s' = View.input s := h'.input_eq.trans h.input_eq.symm
      have htype : s'.lookahead 1 = s.lookahead 1 :=
        Savable.lookahead_congr (S := NodeStream) 1 h.ready h'.ready hinput hspot
      have hnext := spot_consume h.ready h'.ready hinput hspot
      simp only [skipLevels, htype]
      split
      · exact ih _ h.consume h'.consume hnext
      · split
        · exact ih _ h.consume h'.consume hnext
        · split
          · exact ⟨h, h', hspot⟩
          · exact ih _ h.consume h'.consume hnext

/-! ## What is left alone -/

lemma undisturbed_takeUnit : Within Undisturbed takeUnit := by
  refine (Within.read _).bind fun node => undisturbed_consume.bind fun _ =>
    Within.bind (undisturbed_updateState ?_ ?_ ?_) fun _ => Within.pure node
  all_goals exact fun _ => rfl

lemma undisturbed_matchType (type : TokenType) : Within Undisturbed (matchType type) :=
  (undisturbed_lookahead 1).bind fun _ => Within.ite undisturbed_takeUnit (undisturbed_fail _ _)

lemma undisturbed_matchSet (set : TokenSet) : Within Undisturbed (matchSet set) :=
  (undisturbed_lookahead 1).bind fun _ => Within.ite undisturbed_takeUnit (undisturbed_fail _ _)

/-- Pass over the children of the node just taken. -/
def passChildren (w : Walker) : Walker :=
  { w with input := skipLevels w.input.units.size 1 (Cursor.consume w.input) }

lemma undisturbed_passChildren (w : Walker) : Undisturbed w (passChildren w) :=
  undisturbed_input ((Step.consume _).reaches.trans (reaches_skipLevels _ _ _))

lemma undisturbed_matchAny : Within Undisturbed matchAny := by
  refine (undisturbed_lookahead 1).bind fun type => Within.ite (undisturbed_fail _ _) ?_
  refine undisturbed_takeUnit.bind fun node => (undisturbed_lookahead 1).bind fun next => ?_
  split
  · exact (Within.update undisturbed_passChildren).bind fun _ => Within.pure node
  · exact Within.pure node

lemma undisturbed_failWalk (f : Failure) : Within Undisturbed (failWalk f) := by
  refine Within.bind (undisturbed_updateState ?_ ?_ ?_) fun _ => Within.fault _
  · exact fun s => (s.serves_report f).memo_eq
  · exact fun s => (s.serves_report f).options_eq
  · exact fun s => (s.serves_report f).backtracking_eq

lemma undisturbed_enterRule (rule : Rule) : Within Undisturbed (enterRule rule) := by
  refine (Within.read _).bind fun index => (undisturbed_replay rule).bind fun replayed =>
    Within.ite (Within.pure _) (undisturbed_symbol.bind fun token => ?_)
  refine Within.bind (undisturbed_updateState ?_ ?_ ?_) fun _ => Within.pure _
  all_goals exact fun _ => rfl

/-! ## In a speculation -/

/-- The rule that an instruction calls, if it calls one. -/
def called : WalkerInstruction → Option Nat
  | .call rule => some rule
  | _ => none

lemma echo_takeUnit :
    Echoing c m j (takeUnit : Action Walker (Option (NodeId × NodeLabel))) takeUnit := by
  have hnode : Echoing c m j (Action.read fun w : Walker => w.input.nodeAt 1)
      (Action.read fun w : Walker => w.input.nodeAt 1) := by
    refine Couples.read fun r s h => ⟨?_, h⟩
    have hunits : s.input.units = r.input.units := h.placed'.input_eq.trans h.placed.input_eq.symm
    have hplace : s.input.place = r.input.place := h.spot_eq (by simp)
    simp only [NodeStream.nodeAt, NodeStream.unitAt, hunits, hplace]
  have hnote : Echoing c m j (noteMatch : Action Walker Unit) noteMatch :=
    echo_updateState (fun _ => rfl) (fun _ => rfl) fun _ => rfl
  exact hnode.bind fun node => echo_consume.bind fun _ => hnote.bind fun _ => .pure node

lemma echo_matchType (type : TokenType) : Echoing c m j (matchType type) (matchType type) :=
  (echo_lookahead 1).bind fun _ => .ite echo_takeUnit (echo_fail _ _)

lemma echo_matchSet (set : TokenSet) : Echoing c m j (matchSet set) (matchSet set) :=
  (echo_lookahead 1).bind fun _ => .ite echo_takeUnit (echo_fail _ _)

lemma echo_passChildren :
    Echoing c m j (.update passChildren : Action Walker Unit) (.update passChildren) := by
  refine echo_update undisturbed_passChildren fun r s h => ?_
  have hunits : s.input.units = r.input.units := h.placed'.input_eq.trans h.placed.input_eq.symm
  have hnext : spot (Cursor.consume s.input) = spot (Cursor.consume r.input) :=
    spot_consume h.placed.ready h.placed'.ready hunits (h.spot_eq (by simp))
  obtain ⟨hplaced, hplaced', hspot⟩ :=
    placed_skipLevels r.input.units.size 1 h.placed.consume h.placed'.consume hnext
  refine h.onward (undisturbed_passChildren r) rfl rfl hplaced ?_ (fun _ => ?_) h.shallow
  · show Placed c.input j.marks' (skipLevels s.input.units.size 1 (Cursor.consume s.input))
    rw [hunits]
    exact hplaced'
  · show spot (skipLevels s.input.units.size 1 (Cursor.consume s.input)) = _
    rw [hunits]
    exact hspot

lemma echo_matchAny : Echoing c m j matchAny matchAny := by
  refine (echo_lookahead 1).bind fun type => .ite (echo_fail _ _) ?_
  refine echo_takeUnit.bind fun node => (echo_lookahead 1).bind fun next => ?_
  split
  · exact echo_passChildren.bind fun _ => .pure node
  · exact .pure node

/-- An instruction that calls no rule. -/
lemma echo_perform {g : Grammar WalkerInstruction} {i : WalkerInstruction} (hi : called i = none)
    (run run' : Block WalkerInstruction → Action Walker Unit) :
    Echoing c m j (perform g run i) (perform g run' i) := by
  have hunit (unit : Option (NodeId × NodeLabel)) :
      Echoing c m j (noteUnit unit) (noteUnit unit) :=
    echo_note fun _ h => by cases h
  cases i with
  | type type => exact (echo_matchType type).bind hunit
  | set types => exact (echo_matchSet types).bind hunit
  | any => exact echo_matchAny.bind hunit
  | down => exact (echo_matchType .down).discard
  | up => exact (echo_matchType .up).discard
  | call rule => cases hi

/-! ## Rule calls -/

/-- The setting in which a walker runs a tree grammar over an input. -/
def setting (g : Grammar WalkerInstruction) (options : Options) (input : View.Input NodeStream) :
    Setting NodeStream Unit WalkerInstruction :=
  ⟨dialect, g, options, input⟩

/-- What is noted of a rule that starts at the cursor. -/
def startOf (rule : Rule) (r : Walker) : RuleStart :=
  ⟨rule, Cursor.index r.input, (Cursor.symbol r.input).1⟩

/-- A walker as the body of a rule finds it. -/
def inside (rule : Rule) (r : Walker) : Walker :=
  { r with
    state := r.state.pushFrame rule (.ofWidth 0) (Cursor.index r.input)
    trace := r.trace.push (.entered rule.name (Cursor.index r.input) none) }

/-- A walker that has left a rule. -/
def outside (start : RuleStart) (o : Except Fault Unit) (r : Walker) : Walker :=
  { r with
    state := (recorded start (Cursor.index r.input) o r.state).popFrame
    trace := r.trace.push
      (.exited start.rule.name (Cursor.index r.input) (Fault.ofOutcome o) none) }

section

variable {rule : Rule} {body : Action Walker Unit}

lemma enterRule_of_missing (h : Missing rule r) :
    enterRule rule r = some (.ok (some (startOf rule r)),
      { r with state := r.state.pushFrame rule (.ofWidth 0) (Cursor.index r.input) }) := by
  rw [enterRule, bind_apply, index_apply]
  simp only [bind_apply, replay_of_missing h]
  rfl

/-- No failure is reported in a speculation. -/
lemma exitRule_of_backtracking (hr : 0 < r.state.backtracking) (start : RuleStart)
    (o : Except Fault Unit) :
    exitRule start o r = some (o,
      { r with state := (recorded start (Cursor.index r.input) o r.state).popFrame }) := by
  simp only [exitRule, bind_apply, readState_apply, attempt_apply, Nat.ne_of_gt hr, decide_false,
    Bool.false_and, ofExcept_apply, Option.map_some, record_apply]
  rfl

/-- A rule call that is not replayed. -/
lemma call_of_missing {o : Except Fault Unit} {r₁ : Walker} (hmissing : Missing rule r)
    (hbody : body (inside rule r) = some (o, r₁)) (hr₁ : 0 < r₁.state.backtracking) :
    call rule body r = some (o, outside (startOf rule r) o r₁) := by
  refine attempt_bind_eq_some.2 ⟨_, _, enterRule_of_missing hmissing, ?_⟩
  refine attempt_bind_eq_some.2 ⟨_, _, hbody, ?_⟩
  refine attempt_bind_eq_some.2 ⟨_, _, exitRule_of_backtracking hr₁ _ _, ?_⟩
  cases o <;> rfl

/-- A rule call that is not replayed runs the rule's body. -/
lemma body_of_call {o : Except Fault Unit} (hmissing : Missing rule r)
    (h : call rule body r = some (o, r')) : ∃ o₁ r₁, body (inside rule r) = some (o₁, r₁) := by
  obtain ⟨entry, r₁, henter, hrest⟩ := attempt_bind_eq_some.1 h
  rw [enterRule_of_missing hmissing] at henter
  obtain ⟨rfl, rfl⟩ := Prod.mk.inj (Option.some.inj henter)
  obtain ⟨outcome, r₂, hbody, -⟩ := attempt_bind_eq_some.1 hrest
  exact ⟨outcome, r₂, hbody⟩

variable (body) (hmemoizing : (0 < r.state.backtracking && r.state.options.memoize) = true)

include hmemoizing

/-- A rule that is recorded to fail fails at once. -/
lemma call_of_failed (hentry : r.state.memoized rule (Cursor.index r.input) = some .failed) :
    call rule body r = some (.error .backtracking,
      { r with
        state := { r.state with failed := true }
        trace := r.trace.push
          (.entered rule.name (Cursor.index r.input) (some .backtracking)) }) := by
  have henter : enterRule rule r =
      some (.error .backtracking, { r with state := { r.state with failed := true } }) := by
    rw [enterRule, bind_apply, index_apply]
    simp only [bind_apply, replay_of_failed hmemoizing hentry]
  exact attempt_bind_eq_some.2 ⟨_, _, henter, rfl⟩

/-- A rule that is recorded to match takes the input to where it stopped. -/
lemma call_of_parsed {stop : Nat}
    (hentry : r.state.memoized rule (Cursor.index r.input) = some (.parsed stop)) :
    call rule body r = some (.ok (),
      { r with
        input := Cursor.seek r.input stop
        trace := r.trace.push
          (.entered rule.name (Cursor.index (Cursor.seek r.input stop)) none) }) := by
  have henter : enterRule rule r =
      some (.ok none, { r with input := Cursor.seek r.input stop }) := by
    rw [enterRule, bind_apply, index_apply]
    simp only [bind_apply, replay_of_parsed hmemoizing hentry]
    rfl
  exact attempt_bind_eq_some.2 ⟨_, _, henter, rfl⟩

end

lemma opens_inside (rule : Rule) (r : Walker) : Opens r (inside rule r) := by
  refine ⟨⟨Reaches.refl _, ⟨[.entered rule.name (Cursor.index r.input) none], ?_, ?_⟩,
    rfl, rfl, rfl⟩, rfl⟩
  · exact Array.toList_push
  · simp

lemma calls_setting (g : Grammar WalkerInstruction) (options : Options)
    (input : View.Input NodeStream) (n : Nat) : Calls (setting g options input) (.call n) n := by
  constructor
  case anew =>
    intro r hready hr hunrecorded
    have hmissing : Missing (g.rule n) r := fun hmemoizing =>
      hunrecorded (Bool.and_eq_true_iff.1 hmemoizing).2
    refine ⟨inside (g.rule n) r, opens_inside _ r, fun run => ⟨?_, ?_⟩⟩
    · exact fun o r' hrun => body_of_call hmissing hrun
    · intro o r₁ hbody hr₁
      exact ⟨_, call_of_missing hmissing hbody hr₁,
        departs_recorded (startOf (g.rule n) r) o () _ _ none hr₁⟩
  case failed =>
    intro r hr hmemoize hentry run
    have hcall : call (g.rule n) (run (g.body n)) r = _ :=
      call_of_failed _ (memoizing_of_speculating hr hmemoize) hentry
    exact ⟨_, hcall, undisturbed_failed (fun _ h => by cases h), rfl⟩
  case parsed =>
    intro r stop hr hmemoize hentry run
    have hcall : call (g.rule n) (run (g.body n)) r = _ :=
      call_of_parsed _ (memoizing_of_speculating hr hmemoize) hentry
    exact ⟨_, hcall, undisturbed_parsed (fun _ h => by cases h) stop, rfl⟩

/-! ## Instructions -/

section

variable {R : Walker → Walker → Prop} [IsPreorder Walker R]
  (h : ∀ r r', Undisturbed r r' → R r r')
  (hrecord : ∀ {β : Type} (start : RuleStart) (o : Except Fault β),
    Within R (record start o : Action Walker Unit))

include h hrecord

lemma exitRule_of_undisturbed (start : RuleStart) (outcome : Except Fault Unit) :
    Within R (exitRule start outcome) := by
  have hpop : Within Undisturbed (updateState State.popFrame : Action Walker Unit) :=
    undisturbed_updateState (fun _ => rfl) (fun _ => rfl) fun _ => rfl
  refine (Within.read _).bind fun reports => Within.bind (Within.attempt ?_) fun result => ?_
  · split
    · exact (undisturbed_failWalk _).mono h
    · exact Within.ofExcept _
  · exact (hrecord start result).bind fun _ => (hpop.mono h).bind fun _ => Within.ofExcept _

lemma call_of_undisturbed (rule : Rule) {body : Action Walker Unit} (hbody : Within R body) :
    Within R (call rule body) := by
  have hnote {e : Event} (he : ∀ look, e ≠ .observed look) :
      Within R (note e : Action Walker Unit) :=
    (undisturbed_note he).mono h
  refine ((undisturbed_enterRule rule).mono h).attempt.bind fun entry => ?_
  refine (Within.read _).bind fun index => (hnote fun _ h => by cases h).bind fun _ => ?_
  refine (Within.ofExcept entry).bind fun entered => ?_
  cases entered with
  | none => exact Within.pure ()
  | some start =>
    refine hbody.attempt.bind fun outcome => ?_
    refine (exitRule_of_undisturbed h hrecord start outcome).attempt.bind fun result => ?_
    exact (Within.read _).bind fun index => (hnote fun _ h => by cases h).bind fun _ =>
      Within.ofExcept result

lemma perform_of_undisturbed {g : Grammar WalkerInstruction}
    {run : Block WalkerInstruction → Action Walker Unit}
    (hrun : ∀ rule, Within R (run (g.body rule))) (i : WalkerInstruction) :
    Within R (perform g run i) := by
  have hunit (unit : Option (NodeId × NodeLabel)) : Within R (noteUnit unit) :=
    (undisturbed_note fun _ h => by cases h).mono h
  cases i with
  | type type => exact ((undisturbed_matchType type).mono h).bind hunit
  | set types => exact ((undisturbed_matchSet types).mono h).bind hunit
  | any => exact (undisturbed_matchAny.mono h).bind hunit
  | down => exact ((undisturbed_matchType .down).mono h).discard
  | up => exact ((undisturbed_matchType .up).mono h).discard
  | call rule => exact call_of_undisturbed h hrecord (g.rule rule) (hrun rule)

end

/-- The instructions of tree grammars are as they have to be. -/
lemma faithful_setting (g : Grammar WalkerInstruction) (options : Options)
    (input : View.Input NodeStream) : Faithful (setting g options input) called where
  apart hxy := hxy
  apart_within _ hx := hx
  perform hi := echo_perform hi
  perform_within h hrecord hrun := perform_of_undisturbed h hrecord hrun
  call {i n} hi := by
    cases i with
    | call rule =>
      obtain rfl := Option.some.inj hi
      exact calls_setting g options input rule
    | type | set | any | down | up => cases hi

end Walker

end Lookahead
