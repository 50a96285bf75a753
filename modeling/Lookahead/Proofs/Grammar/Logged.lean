import Lookahead.Proofs.Automaton.Logged
import Lookahead.Proofs.Grammar.Run

/-!
# Running grammar programs with a log

A `LoggedDialect` says what is logged of the instructions of a dialect.  `LoggedDialect.run` is
`Grammar.run` with that log: the instructions and blocks of a program write to it, and all other
things that a statement does are taken over as they are.  Forgetting the log gives back the run
(`LoggedDialect.forget_run`), so for every run there is one log, and it is the log of that run.

What is done in order to decide is taken back afterwards.  Whether it belongs to the log is up to
the dialect (`LoggedDialect.decisions`).

The facts about logs are had as those about runs are: `Conduct` and `Kept` list what has to be known
of the single things that statements do, and a whole run composes of them.
-/

namespace Lookahead

open Logged Recognizer

variable {S X ι ε α : Type}

/-- The instructions of a dialect, with a log of what they do. Without the log they are those of the
dialect, so that a logged run tells of the run itself. -/
structure LoggedDialect (ε : Type) (d : Dialect S X ι) where
  perform : Grammar ι → (Block ι → Logged ε (Recognizer S X) Unit) → ι →
    Logged ε (Recognizer S X) Unit
  apart : Logged ε (Recognizer S X) Unit → Logged ε (Recognizer S X) Unit
  /-- What is kept of the log of a prediction or of a syntactic predicate. -/
  decisions : List ε → List ε
  forget_perform (g : Grammar ι) (run : Block ι → Logged ε (Recognizer S X) Unit) (i : ι) :
    (perform g run i).forget = d.perform g (fun b => (run b).forget) i
  forget_apart (x : Logged ε (Recognizer S X) Unit) : (apart x).forget = d.apart x.forget

namespace LoggedDialect

variable [Cursor S] {d : Dialect S X ι} (w : LoggedDialect ε d) (g : Grammar ι)

/-! ## Statements -/

section

variable (run : Block ι → Logged ε (Recognizer S X) Unit)

/-- Evaluate a semantic predicate.  Only the predicates that run a block have something to log. -/
def evaluate (id : Nat) : Logged ε (Recognizer S X) Bool :=
  match g.predicate? id with
  | some (.run block) => do
    let index ← silent index
    w.apart (run block)
    silent (note (.evaluated id index true))
    return true
  | _ => silent (Grammar.evaluate d g (fun b => (run b).forget) id)

/-- Parse an alternative of a decision speculatively, with the log of its block. -/
def speculate (decision alternative : Nat) : Logged ε (Recognizer S X) Unit := do
  let index ← silent index
  let depth ← silent (readState State.backtracking)
  silent (note (.speculated decision alternative index depth))
  match g.simulation? decision alternative with
  | some block => w.apart (run block)
  | none => silent (Hooks.none.speculate decision alternative)

omit [Cursor S] in
lemma forget_apart_run (block : Block ι) :
    (w.apart (run block)).forget = d.apart (run block).forget := w.forget_apart (run block)

lemma forget_evaluate (id : Nat) :
    (w.evaluate g run id).forget = Grammar.evaluate d g (fun b => (run b).forget) id := by
  unfold evaluate
  split
  · rename_i block hblock
    unfold Grammar.evaluate
    simp only [hblock, forget_bind, forget_silent, forget_apart_run, forget_pure,
      pure_bind]
  · exact forget_silent _

lemma forget_speculate (decision alternative : Nat) :
    (w.speculate g run decision alternative).forget =
      Grammar.speculate d g (fun b => (run b).forget) decision alternative := by
  unfold speculate Grammar.speculate
  simp only [forget_bind, forget_silent]
  congr 1
  funext index
  congr 1
  funext depth
  congr 1
  funext _
  cases g.simulation? decision alternative with
  | some block => exact w.forget_apart_run run block
  | none => exact forget_silent _

/-- The grammar's part in predictions, with the logs of the blocks that it runs. -/
def observer : Observer ε (Grammar.hooks d g fun b => (run b).forget) where
  reached _ := []
  predicate := w.evaluate g run
  speculate _ := w.speculate g run
  forget_predicate := w.forget_evaluate g run
  forget_speculate _ := w.forget_speculate g run

/-- Predict an alternative, and keep of the log what is kept of decisions. -/
def predict (a : Automaton) : Logged ε (Recognizer S X) Nat :=
  ((w.observer g run).predict a).editing w.decisions

/-- Ask whether a fragment would match, and keep of the log what is kept of decisions. -/
def synpred (fragment : Block ι) : Logged ε (Recognizer S X) Bool :=
  (Logged.synpred fun _ => w.apart (run fragment)).editing w.decisions

/-- Predict an alternative and run its block; false if it has none. The log has both. -/
def predictAndRun (a : Automaton) (arms : List (Nat × Block ι)) :
    Logged ε (Recognizer S X) Bool := do
  let index ← silent index
  let alternative ← w.predict g run a
  silent (note (.predicted a.decision alternative index))
  match arms.lookup alternative with
  | some block =>
    run block
    return true
  | none => return false

/-- Do something as long as a condition is true, for at most `fuel` rounds. -/
def repeating (condition : Logged ε (Recognizer S X) Bool)
    (body : Logged ε (Recognizer S X) Unit) : (fuel : Nat) → Logged ε (Recognizer S X) Unit
  | 0 => silent .unending
  | fuel + 1 => do
    if ← condition then
      body
      repeating condition body fuel
    else return

/-- Carry out a statement.  Those that run no block have nothing to log. -/
def execute (fuel : Nat) : Statement ι → Logged ε (Recognizer S X) Unit
  | .ifHolds test yes no => do
    if ← silent (Grammar.holds test) then run yes else run no
  | .whileHolds test body => repeating (silent (Grammar.holds test)) (run body) fuel
  | .untilHolds test body => repeating (silent (not <$> Grammar.holds test)) (run body) fuel
  | .oneOrMore decision test body => do
    if ← silent (Grammar.holds test) then
      run body
      repeating (silent (Grammar.holds test)) (run body) fuel
    else silent (earlyExit decision)
  | .switch distance arms otherwise => do
    run (← silent (Grammar.chosen distance otherwise arms))
  | .predict automaton arms => discard (w.predictAndRun g run automaton arms)
  | .loop automaton arms => repeating (w.predictAndRun g run automaton arms) (pure ()) fuel
  | .require predicate rule text => do
    if ← w.evaluate g run predicate then return else silent (failedPredicate rule text)
  | .synpred fragment yes no => do
    let holds ← w.synpred run fragment
    silent (note (.tried holds))
    if holds then run yes else run no
  | .speculating raise ending body => Logged.speculating raise ending (run body)
  | .attempt body => do
    match ← (run body).attempt with
    | .ok () => silent (note (.attempted none))
    | .error fault => silent (note (.attempted (some fault)))
  | .perform instruction => w.perform g run instruction
  | s => silent (Grammar.execute d g (fun b => (run b).forget) fuel s)

@[simp] lemma forget_predict (a : Automaton) :
    (w.predict g run a).forget =
      Recognizer.predict (Grammar.hooks d g fun b => (run b).forget) a := by
  rw [predict, forget_editing, Observer.forget_predict]

@[simp] lemma forget_synpred (fragment : Block ι) :
    (w.synpred run fragment).forget = Recognizer.synpred (d.apart (run fragment).forget) := by
  rw [synpred, forget_editing]
  exact Logged.forget_synpred fun _ => w.forget_apart_run run fragment

lemma forget_predictAndRun (a : Automaton) (arms : List (Nat × Block ι)) :
    (w.predictAndRun g run a arms).forget =
      Grammar.predictAndRun d g (fun b => (run b).forget) a arms := by
  unfold predictAndRun Grammar.predictAndRun Grammar.predicted
  simp only [forget_bind, forget_silent, forget_predict, bind_assoc, pure_bind]
  congr 1
  funext index
  congr 1
  funext alternative
  congr 1
  funext _
  cases arms.lookup alternative with
  | some block => rw [forget_bind, forget_pure]
  | none => rfl

omit [Cursor S] in
lemma forget_repeating {condition : Logged ε (Recognizer S X) Bool}
    {body : Logged ε (Recognizer S X) Unit} (fuel : Nat) :
    (repeating condition body fuel).forget =
      Grammar.repeating condition.forget body.forget fuel := by
  induction fuel with
  | zero => exact forget_silent _
  | succ fuel ih =>
    rw [repeating, Grammar.repeating, forget_bind]
    congr 1
    funext holds
    rw [forget_ite, forget_bind, ih, forget_pure]

lemma forget_execute (fuel : Nat) (s : Statement ι) :
    (w.execute g run fuel s).forget =
      Grammar.execute d g (fun b => (run b).forget) fuel s := by
  cases s with
  | ifHolds | oneOrMore | switch | require | synpred =>
    simp only [execute, Grammar.execute, forget_bind, forget_silent, forget_ite, forget_evaluate,
      forget_synpred, forget_repeating, forget_pure]
  | whileHolds | untilHolds | loop =>
    simp only [execute, Grammar.execute, forget_repeating, forget_silent, forget_predictAndRun,
      forget_pure]
  | predict => rw [execute, Grammar.execute, forget_discard, forget_predictAndRun]
  | speculating => rw [execute, Grammar.execute, forget_speculating]
  | attempt body =>
    rw [execute, Grammar.execute, forget_bind, forget_attempt]
    congr 1
    funext outcome
    rcases outcome with fault | _
    · exact forget_silent _
    · exact forget_silent _
  | perform => exact w.forget_perform g run _
  | earlyExit | mark | rewind | release | consume | seek | setBacktracking | setLastError
  | pushFrame | popFrame | observe => exact forget_silent _

end

/-! ## Programs -/

/-- Run a block with the logs of its statements, one behind the other. -/
def run : (fuel : Nat) → Block ι → Logged ε (Recognizer S X) Unit
  | 0, _ => silent .unending
  | fuel + 1, block => block.forM (w.execute g (run fuel) fuel)

/-- **Forgetting the log gives back the run**, with the same outcome from the same state; so every
run that ends has a log. -/
theorem forget_run (fuel : Nat) (block : Block ι) :
    (w.run g fuel block).forget = g.run d fuel block := by
  induction fuel generalizing block with
  | zero => exact forget_silent _
  | succ fuel ih =>
    rw [run, Grammar.run, forget_forM]
    congr 1
    funext s
    rw [forget_execute]
    congr 1
    funext b
    exact ih b

/-- Every run has its log. -/
lemma exists_log_of_run {fuel : Nat} {block : Block ι} {r r' : Recognizer S X}
    {o : Except Fault Unit} (h : g.run d fuel block r = some (o, r')) :
    ∃ log, w.run g fuel block r = some (log, o, r') :=
  exists_log (by rw [forget_run, h])

/-! ## What the log says -/

/-- All that statements do keeps `R`, if their blocks are run by `run`. -/
structure Conduct (run : Block ι → Logged ε (Recognizer S X) Unit) (p : Statement ι → Prop)
    (R : Recognizer S X → List ε → Recognizer S X → Prop) (fuel : Nat) : Prop where
  block {b : Block ι} (hb : Block.All p b) : Within R (run b)
  lookahead (k : Int) : Action.Within (Silently R) (lookahead k)
  note (e : Event) (he : e.Decision) : Action.Within (Silently R) (note e)
  fail {α : Type} (kind : FailureKind) (expected : Option TokenSet) :
    Action.Within (Silently R) (fail kind expected : Action (Recognizer S X) α)
  evaluate (id : Nat) : Within R (w.evaluate g run id)
  predict (a : Automaton) : Within R (w.predict g run a)
  synpred {b : Block ι} (hb : Block.All p b) : Within R (w.synpred run b)
  speculating {raise : Bool} {ending : Cursor.GuardEnd} {b : Block ι}
    (hs : p (.speculating raise ending b)) (hb : Block.All p b) :
    Within R (Logged.speculating raise ending (run b))
  plain {s : Statement ι} (hs : p s) (hplain : s.Plain) :
    Action.Within (Silently R) (Grammar.execute d g (fun b => (run b).forget) fuel s)
  perform {i : ι} (hi : p (.perform i)) : Within R (w.perform g run i)

variable {w g} {run : Block ι → Logged ε (Recognizer S X) Unit} {p : Statement ι → Prop}
  {R : Recognizer S X → List ε → Recognizer S X → Prop} [Composes R] {fuel : Nat}

omit [Cursor S] in
lemma repeating_within {condition : Logged ε (Recognizer S X) Bool}
    {body : Logged ε (Recognizer S X) Unit} (hcondition : Within R condition)
    (hbody : Within R body) (fuel : Nat) : Within R (repeating condition body fuel) := by
  induction fuel with
  | zero => exact Within.silent Action.Within.unending
  | succ fuel ih =>
    exact hcondition.bind fun b => Within.ite (hbody.bind fun _ => ih) (Within.pure _)

omit [Composes R] in
/-- A dialect that logs nothing of decisions asks only what becomes of them. -/
lemma predict_within_of_erased (hw : w.decisions = fun _ => []) {a : Automaton}
    (h : Action.Within (Silently R)
      (Recognizer.predict (Grammar.hooks d g fun b => (run b).forget) a)) :
    Within R (w.predict g run a) := by
  rw [predict, hw]
  exact Within.erasing (by rwa [Observer.forget_predict])

omit [Composes R] in
lemma synpred_within_of_erased (hw : w.decisions = fun _ => []) {b : Block ι}
    (h : Action.Within (Silently R) (Recognizer.synpred (d.apart (run b).forget))) :
    Within R (w.synpred run b) := by
  rw [synpred, hw]
  exact Within.erasing (by rwa [Logged.forget_synpred fun _ => w.forget_apart (run b)])

namespace Conduct

variable (h : Conduct w g run p R fuel)

include h

lemma holds (test : LookaheadTest) :
    Action.Within (Silently R) (Grammar.holds test : Action (Recognizer S X) Bool) :=
  (h.lookahead _).bind fun _ => Action.Within.pure _

lemma chosen (distance : Int) {otherwise : Block ι} {arms : List (List TokenType × Block ι)}
    (hall : ∀ b ∈ otherwise :: arms.map Prod.snd, Block.All p b) :
    Within R (silent (Grammar.chosen distance otherwise arms) >>= run) := by
  have hchosen : Action.Within (Silently R)
      (Grammar.chosen distance otherwise arms : Action (Recognizer S X) (Block ι)) := by
    clear hall
    induction arms with
    | nil => exact Action.Within.pure _
    | cons arm rest ih => exact (h.holds _).bind fun _ => Action.Within.ite (Action.Within.pure _) ih
  refine (Within.silent hchosen).bind_of (fun r log b r' hrun => ?_) fun b hb => h.block (hall b hb)
  obtain ⟨b', hb', hmem⟩ := Grammar.returns_chosen distance otherwise arms
    (forget_silent (ε := ε) _ ▸ forget_eq_some hrun)
  exact Except.ok.inj hb' ▸ hmem

lemma predictAndRun (a : Automaton) {arms : List (Nat × Block ι)}
    (harms : ∀ b ∈ arms.map Prod.snd, Block.All p b) :
    Within R (w.predictAndRun g run a arms) := by
  refine (Within.read _).bind fun index => (h.predict a).bind fun n => ?_
  refine (Within.silent (h.note (.predicted a.decision n index) trivial)).bind fun _ => ?_
  split
  · rename_i block hblock
    obtain ⟨before, after, heq, -⟩ := List.lookup_eq_some_iff.1 hblock
    have hmem : block ∈ arms.map Prod.snd := List.mem_map.2 ⟨(n, block), by simp [heq], rfl⟩
    exact (h.block (harms block hmem)).bind fun _ => Within.pure _
  · exact Within.pure _

/-- One statement. -/
lemma execute {s : Statement ι} (hs : s.All p) : Within R (w.execute g run fuel s) := by
  have hblock {b : Block ι} (hb : b ∈ s.blocks) : Within R (run b) := h.block (hs.block hb)
  have harms (b : Block ι) (hb : b ∈ s.blocks) : Block.All p b := hs.block hb
  obtain ⟨here, -⟩ := hs
  cases s with
  | ifHolds test yes no =>
    exact (Within.silent (h.holds test)).bind fun _ =>
      Within.ite (hblock (by simp [Statement.blocks])) (hblock (by simp [Statement.blocks]))
  | whileHolds test body =>
    exact repeating_within (Within.silent (h.holds test))
      (hblock (by simp [Statement.blocks])) fuel
  | untilHolds test body =>
    exact repeating_within (Within.silent ((h.holds test).map _))
      (hblock (by simp [Statement.blocks])) fuel
  | oneOrMore decision test body =>
    have hbody : Within R (run body) := hblock (by simp [Statement.blocks])
    have htest : Within R (silent (Grammar.holds test)) := Within.silent (h.holds test)
    exact htest.bind fun _ => Within.ite (hbody.bind fun _ => repeating_within htest hbody fuel)
      (Within.silent (h.fail _ _))
  | switch distance arms otherwise => exact h.chosen distance harms
  | predict automaton arms => exact (h.predictAndRun automaton harms).discard
  | loop automaton arms =>
    exact repeating_within (h.predictAndRun automaton harms) (Within.pure _) fuel
  | require predicate rule text =>
    exact (h.evaluate predicate).bind fun _ =>
      Within.ite (Within.pure _) (Within.silent (h.fail _ _))
  | synpred fragment yes no =>
    refine (h.synpred (harms fragment (by simp [Statement.blocks]))).bind fun holds => ?_
    exact (Within.silent (h.note (.tried holds) trivial)).bind fun _ =>
      Within.ite (hblock (by simp [Statement.blocks])) (hblock (by simp [Statement.blocks]))
  | speculating raise ending body =>
    exact h.speculating here (harms body (by simp [Statement.blocks]))
  | attempt body =>
    refine (hblock (b := body) (by simp [Statement.blocks])).attempt.bind fun outcome => ?_
    split
    · exact Within.silent (h.note (.attempted none) trivial)
    · exact Within.silent (h.note (.attempted _) trivial)
  | earlyExit decision => exact Within.silent (h.fail _ _)
  | mark | rewind | release | consume | seek | setBacktracking | setLastError | pushFrame
  | popFrame | observe => exact Within.silent (h.plain here trivial)
  | perform i => exact h.perform here

end Conduct

/-- A logged run keeps a relation, if each statement does under the assumption that its blocks
do. -/
theorem run_of_conduct
    (h : ∀ fuel, (∀ b, Block.All p b → Within R (w.run g fuel b)) →
      Conduct w g (w.run g fuel) p R fuel) (fuel : Nat) {block : Block ι}
    (hblock : Block.All p block) : Within R (w.run g fuel block) := by
  induction fuel generalizing block with
  | zero => exact Within.silent Action.Within.unending
  | succ fuel ih => exact Within.forM fun s hs => (h fuel fun _ hb => ih hb).execute (hblock s hs)

/-! ## Operations -/

/-- The single operations keep `R`, and decisions are logged as they are. -/
structure Kept (w : LoggedDialect ε d) (g : Grammar ι) (p : Statement ι → Prop)
    (R : Recognizer S X → List ε → Recognizer S X → Prop) : Prop where
  decisions : w.decisions = id
  lookahead (k : Int) : Action.Within (Silently R) (lookahead k)
  symbol : Action.Within (Silently R) symbol
  consume : Action.Within (Silently R) consume
  seek (i : Nat) : Action.Within (Silently R) (seek i)
  note (e : Event) (he : e.Decision) : Action.Within (Silently R) (note e)
  fail {α : Type} (kind : FailureKind) (expected : Option TokenSet) :
    Action.Within (Silently R) (fail kind expected : Action (Recognizer S X) α)
  /-- A speculation begins and ends, and a syntactic predicate forgets the failure. -/
  begun (raise : Bool) (r : Recognizer S X) : R r [] (begun raise r)
  ended (raise : Bool) (ending : Cursor.GuardEnd) (m : Mark) (r : Recognizer S X) :
    R r [] (ended raise (Cursor.endGuard r.input m ending).2 r)
  cleared (r : Recognizer S X) : R r [] (cleared r)
  apart {x : Logged ε (Recognizer S X) Unit} (hx : Within R x) : Within R (w.apart x)
  plain {s : Statement ι} (hs : p s) (hplain : s.Plain)
    (run : Block ι → Action (Recognizer S X) Unit) (fuel : Nat) :
    Action.Within (Silently R) (Grammar.execute d g run fuel s)
  perform {i : ι} (hi : p (.perform i)) {run : Block ι → Logged ε (Recognizer S X) Unit}
    (hrun : ∀ b, Block.All p b → Within R (run b)) : Within R (w.perform g run i)

namespace Kept

variable (h : Kept w g p R)

include h

omit [Composes R] in
lemma beginSpeculation (raise : Bool) :
    Within R (silent (beginSpeculation raise : Action (Recognizer S X) Mark)) := by
  refine Within.silent fun r o r' hrun => ?_
  rw [beginSpeculation_apply] at hrun
  obtain ⟨-, rfl⟩ := Prod.mk.inj (Option.some.inj hrun)
  exact h.begun raise r

omit [Composes R] in
lemma endSpeculation (raise : Bool) (m : Mark) (ending : Cursor.GuardEnd) :
    Within R (silent (endSpeculation raise m ending : Action (Recognizer S X) Unit)) := by
  refine Within.silent fun r o r' hrun => ?_
  rw [endSpeculation_apply] at hrun
  obtain ⟨-, rfl⟩ := Prod.mk.inj (Option.some.inj hrun)
  exact h.ended raise ending m r

lemma speculating (raise : Bool) (ending : Cursor.GuardEnd) {x : Logged ε (Recognizer S X) α}
    (hx : Within R x) : Within R (Logged.speculating raise ending x) :=
  (h.beginSpeculation raise).bind fun m => hx.attempt.bind fun outcome =>
    (h.endSpeculation raise m ending).bind fun _ =>
      Within.ofExcept outcome

lemma synpred {fragment : Mark → Logged ε (Recognizer S X) Unit}
    (hx : ∀ m, Within R (fragment m)) : Within R (Logged.synpred fragment) := by
  refine (h.beginSpeculation true).bind fun m => (hx m).attempt.bind fun outcome => ?_
  refine (Within.silent (Action.Within.update h.cleared)).bind fun _ => ?_
  exact (h.endSpeculation true m .restore).bind fun _ =>
    Within.ofExcept _

omit [Composes R] in
lemma decided {x : Logged ε (Recognizer S X) α} (hx : Within R x) :
    Within R (x.editing w.decisions) := by
  rw [h.decisions]
  exact hx.editing_id

variable (hg : g.All p) (hrun : ∀ b, Block.All p b → Within R (run b))

include hg hrun

lemma evaluate (id : Nat) : Within R (w.evaluate g run id) := by
  unfold LoggedDialect.evaluate
  split
  · rename_i block hblock
    refine (Within.read _).bind fun index => ?_
    refine (h.apart (hrun block (hg.predicate hblock))).bind fun _ => ?_
    exact (Within.silent (h.note (.evaluated id index true) trivial)).bind fun _ => Within.pure _
  · rename_i hother
    exact Within.silent (Grammar.evaluate_within_of h.lookahead h.symbol h.note
      (fun _ _ => h.consume) fun block hblock => absurd hblock (hother block))

lemma speculate (decision n : Nat) : Within R (w.speculate g run decision n) := by
  refine (Within.read _).bind fun index =>
    (Within.read _).bind fun depth =>
      (Within.silent (h.note (.speculated decision n index depth) trivial)).bind fun _ => ?_
  split
  · rename_i block hblock
    exact h.apart (hrun _ (hg.simulation hblock))
  · exact Within.silent (Action.Within.fault _)

/-- Statements keep what their operations keep. -/
lemma conduct (fuel : Nat) : Conduct w g run p R fuel where
  block hb := hrun _ hb
  lookahead := h.lookahead
  note := h.note
  fail := h.fail
  evaluate := h.evaluate hg hrun
  predict a := by
    refine h.decided (Observer.Kept.predict ?_ a)
    exact {
      reached _ r := Composes.refl r
      lookahead := h.lookahead 1
      consume := h.consume
      seek := h.seek
      fail := h.fail
      speculating := h.speculating
      predicate := h.evaluate hg hrun
      synpred decision n := h.synpred fun _ => h.speculate hg hrun decision n }
  synpred hb := h.decided (h.synpred fun _ => h.apart (hrun _ hb))
  speculating _ hb := h.speculating _ _ (hrun _ hb)
  plain hs hplain := h.plain hs hplain _ fuel
  perform hi := h.perform hi hrun

end Kept

/-- **A logged run keeps what its operations keep**: it is enough that each operation on the input
does, each way of speculating, and each statement and instruction that has no blocks. -/
theorem run_within (h : Kept w g p R) (hg : g.All p) (fuel : Nat) {block : Block ι}
    (hblock : Block.All p block) : Within R (w.run g fuel block) :=
  run_of_conduct (fun fuel hrun => h.conduct hg hrun fuel) fuel hblock

end LoggedDialect

end Lookahead
