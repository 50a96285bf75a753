import Lookahead.Grammar.Run
import Lookahead.Proofs.Automaton.Transparency

/-!
# What runs of programs keep

A run of a grammar program keeps a relation between recognizers if the single operations do.
`Kept` lists what has to be known of the operations: reading and moving the input, failing, the two
ways to speculate, what the kind of recognizer performs, and the plain statements that a program may
use.  `run_within` is the induction over runs, of which all facts about whole programs are cases.

A program need not use all plain statements.  Which statements may occur is a predicate `p`, and
`Grammar.All p` says that it holds of every statement of a grammar, however deep.
-/

namespace Lookahead

open Action Recognizer

variable {S X ι : Type} [Cursor S]

/-! ## Statements everywhere -/

/-- The blocks of a statement that its grammar wrote down in it; the bodies of the rules that it
calls are not among them. -/
def Statement.blocks : Statement ι → List (Block ι)
  | .ifHolds _ yes no => [yes, no]
  | .whileHolds _ body | .untilHolds _ body | .oneOrMore _ _ body => [body]
  | .switch _ arms otherwise => otherwise :: arms.map Prod.snd
  | .predict _ arms | .loop _ arms => arms.map Prod.snd
  | .synpred fragment yes no => [fragment, yes, no]
  | .speculating _ _ body | .attempt body => [body]
  | _ => []

/-- The statement has a property, and so have all statements of its blocks, at any depth. -/
inductive Statement.All (p : Statement ι → Prop) : Statement ι → Prop
  | intro {s : Statement ι} (here : p s) (below : ∀ b ∈ s.blocks, ∀ t ∈ b, All p t) : All p s

/-- All statements of a block have a property. -/
def Block.All (p : Statement ι → Prop) (b : Block ι) : Prop := ∀ s ∈ b, s.All p

lemma Statement.All.block {p : Statement ι → Prop} {s : Statement ι} (h : s.All p) {b : Block ι}
    (hb : b ∈ s.blocks) : Block.All p b := by
  cases h with
  | intro _ below => exact below b hb

lemma Statement.All.here {p : Statement ι → Prop} {s : Statement ι} (h : s.All p) : p s := by
  cases h with
  | intro here _ => exact here

lemma Statement.all_iff {p : Statement ι → Prop} {s : Statement ι} :
    s.All p ↔ p s ∧ ∀ b ∈ s.blocks, Block.All p b := by
  constructor
  · intro h
    exact ⟨h.here, fun b hb => h.block hb⟩
  · rintro ⟨here, below⟩
    exact .intro here below

@[simp] lemma Block.all_nil {p : Statement ι → Prop} : Block.All p [] := by simp [Block.All]

@[simp] lemma Block.all_cons {p : Statement ι → Prop} {s : Statement ι} {b : Block ι} :
    Block.All p (s :: b) ↔ s.All p ∧ Block.All p b := by
  simp [Block.All]

/-- The statements of its blocks are smaller than a statement. -/
lemma Statement.sizeOf_lt_of_mem_blocks {s t : Statement ι} {b : Block ι} (hb : b ∈ s.blocks)
    (ht : t ∈ b) : sizeOf t < sizeOf s := by
  have hlt : sizeOf t < sizeOf b := List.sizeOf_lt_of_mem ht
  have harm {α : Type} [SizeOf α] {arms : List (α × Block ι)} (h : b ∈ arms.map Prod.snd) :
      sizeOf b < sizeOf arms := by
    obtain ⟨⟨a, block⟩, harm, hblock⟩ := List.mem_map.1 h
    obtain rfl : block = b := hblock
    have harm := List.sizeOf_lt_of_mem harm
    rw [Prod.mk.sizeOf_spec] at harm
    omega
  cases s <;> simp only [blocks, List.mem_cons, List.not_mem_nil, or_false] at hb
  case switch =>
    rcases hb with rfl | hb
    · rw [switch.sizeOf_spec]
      omega
    · have := harm hb
      rw [switch.sizeOf_spec]
      omega
  case predict =>
    have := harm hb
    rw [predict.sizeOf_spec]
    omega
  case loop =>
    have := harm hb
    rw [loop.sizeOf_spec]
    omega
  case synpred =>
    rw [synpred.sizeOf_spec]
    rcases hb with rfl | rfl | rfl <;> omega
  case ifHolds =>
    rw [ifHolds.sizeOf_spec]
    rcases hb with rfl | rfl <;> omega
  all_goals
    subst hb
    simp only [whileHolds.sizeOf_spec, untilHolds.sizeOf_spec, oneOrMore.sizeOf_spec,
      speculating.sizeOf_spec, attempt.sizeOf_spec]
    omega

/-- Every statement has the property that all have. -/
lemma Statement.all_true (s : Statement ι) : s.All fun _ => True :=
  .intro trivial fun _ _ t _ => all_true t
termination_by sizeOf s
decreasing_by exact sizeOf_lt_of_mem_blocks ‹_› ‹_›

/-- All statements of a grammar have a property: those of its rules, its speculative parses and its
predicates. -/
structure Grammar.All (p : Statement ι → Prop) (g : Grammar ι) : Prop where
  body (i : Nat) : Block.All p (g.body i)
  simulation {decision alternative : Nat} {b : Block ι} :
    g.simulation? decision alternative = some b → Block.All p b
  predicate {id : Nat} {b : Block ι} : g.predicate? id = some (.run b) → Block.All p b

/-- It is enough to look at everything that the grammar lists. -/
lemma Grammar.all_of_mem {p : Statement ι → Prop} {g : Grammar ι}
    (hrules : ∀ rule ∈ g.rules, Block.All p rule.2)
    (hsimulations : ∀ s ∈ g.simulations, Block.All p s.2)
    (hpredicates : ∀ x ∈ g.predicates, ∀ b, x.2 = .run b → Block.All p b) : g.All p where
  body i := by
    rcases hrule : g.rules[i]? with _ | rule
    · simp [Grammar.body, hrule]
    · simpa [Grammar.body, hrule] using hrules rule (List.mem_of_getElem? hrule)
  simulation {decision alternative b} h := by
    obtain ⟨before, after, heq, -⟩ := List.lookup_eq_some_iff.1 h
    exact hsimulations ((decision, alternative), b) (by simp [heq])
  predicate {id b} h := by
    obtain ⟨before, after, heq, -⟩ := List.lookup_eq_some_iff.1 h
    exact hpredicates (id, .run b) (by simp [heq]) b rfl

lemma Grammar.all_true (g : Grammar ι) : g.All fun _ => True where
  body _ s _ := s.all_true
  simulation _ s _ := s.all_true
  predicate _ s _ := s.all_true

section

variable {p q : Statement ι → Prop} (hpq : ∀ s : Statement ι, s.All p → q s)

include hpq

/-- What a statement has by what all those in it have. -/
lemma Statement.All.imp {s : Statement ι} (h : s.All p) : s.All q := by
  induction h with
  | intro here below ih => exact .intro (hpq _ (.intro here below)) ih

lemma Block.All.imp {b : Block ι} (h : Block.All p b) : Block.All q b :=
  fun s hs => (h s hs).imp hpq

lemma Grammar.All.imp {g : Grammar ι} (h : g.All p) : g.All q where
  body i := (h.body i).imp hpq
  simulation hb := (h.simulation hb).imp hpq
  predicate hb := (h.predicate hb).imp hpq

end

section

variable {p q : Statement ι → Prop} (hpq : ∀ s, p s → q s)

include hpq

lemma Block.All.mono {b : Block ι} (h : Block.All p b) : Block.All q b :=
  h.imp fun s hs => hpq s hs.here

lemma Grammar.All.mono {g : Grammar ι} (h : g.All p) : g.All q :=
  h.imp fun s hs => hpq s hs.here

end

section

variable {p q : Statement ι → Prop}

lemma Statement.All.and {s : Statement ι} (h : s.All p) (h' : s.All q) :
    s.All fun s => p s ∧ q s := by
  induction h with
  | intro here _ ih =>
    obtain ⟨here', below'⟩ := h'
    exact .intro ⟨here, here'⟩ fun b hb t ht => ih b hb t ht (below' b hb t ht)

lemma Block.All.and {b : Block ι} (h : Block.All p b) (h' : Block.All q b) :
    Block.All (fun s => p s ∧ q s) b :=
  fun s hs => (h s hs).and (h' s hs)

lemma Grammar.All.and {g : Grammar ι} (h : g.All p) (h' : g.All q) :
    g.All fun s => p s ∧ q s where
  body i := (h.body i).and (h'.body i)
  simulation hb := (h.simulation hb).and (h'.simulation hb)
  predicate hb := (h.predicate hb).and (h'.predicate hb)

end

/-- A statement without blocks that neither reads the input to decide something nor fails, and that
no kind of recognizer has for itself. -/
def Statement.Plain : Statement ι → Prop
  | .mark | .rewind _ | .release _ | .consume | .seek _ | .setBacktracking _ | .setLastError _
  | .pushFrame _ _ | .popFrame | .observe => True
  | _ => False

/-- A statement that by itself neither pops a mark nor sets the depth of backtracking. -/
def Statement.Keeping : Statement ι → Prop
  | .rewind _ | .release _ | .setBacktracking _ => False
  | _ => True

/-- An event that a statement leaves behind without matching anything. -/
def Event.Decision : Event → Prop
  | .predicted _ _ _ | .tried _ | .evaluated _ _ _ | .speculated _ _ _ _ | .attempted _ => True
  | _ => False

/-! ## Through a run -/

namespace Grammar

/-- The single operations keep `R`, where the plain statements and instructions are those that
`p` admits. -/
structure Kept (d : Dialect S X ι) (g : Grammar ι) (p : Statement ι → Prop)
    (R : Recognizer S X → Recognizer S X → Prop) : Prop where
  lookahead (k : Int) : Within R (lookahead k)
  symbol : Within R symbol
  consume : Within R consume
  seek (i : Nat) : Within R (seek i)
  note (e : Event) (he : e.Decision) : Within R (note e)
  fail {α : Type} (kind : FailureKind) (expected : Option TokenSet) :
    Within R (fail kind expected : Action (Recognizer S X) α)
  synpred {x : Action (Recognizer S X) Unit} (hx : Within R x) : Within R (synpred x)
  speculating {α : Type} (raise : Bool) (ending : Cursor.GuardEnd)
    {x : Action (Recognizer S X) α} (hx : Within R x) : Within R (speculating raise ending x)
  apart {x : Action (Recognizer S X) Unit} (hx : Within R x) : Within R (d.apart x)
  plain {s : Statement ι} (hs : p s) (hplain : s.Plain)
    (run : Block ι → Action (Recognizer S X) Unit) (fuel : Nat) : Within R (execute d g run fuel s)
  perform {i : ι} (hi : p (.perform i)) {run : Block ι → Action (Recognizer S X) Unit}
    (hrun : ∀ b, Block.All p b → Within R (run b)) : Within R (d.perform g run i)

variable {d : Dialect S X ι} {g : Grammar ι} {p : Statement ι → Prop}
  {R : Recognizer S X → Recognizer S X → Prop} [IsPreorder (Recognizer S X) R]
  {run : Block ι → Action (Recognizer S X) Unit}

omit [IsPreorder (Recognizer S X) R] in
/-- A walk keeps what its operations keep; nothing is said about other hooks. -/
lemma Kept.surroundings (h : Kept d g p R) {hooks : Hooks S X} {start : Nat}
    (hpredicate : ∀ id, Within R (hooks.predicate id))
    (hspeculate : ∀ decision n, Within R (hooks.speculate decision n)) :
    Surroundings R (fun _ => False) start hooks hooks where
  lookahead := h.lookahead 1
  consume := h.consume
  seek := h.seek
  fail := h.fail
  predicate := hpredicate
  synpred decision n := h.synpred (hspeculate decision n)
  keeps _ _ _ hfalse := hfalse
  arrives _ hfalse := hfalse.elim
  agree_predicate _ _ hfalse := hfalse.elim
  agree_synpred _ _ _ hfalse := hfalse.elim

/-- The walk of a prediction, before it is taken back. -/
lemma Kept.walk (h : Kept d g p R) {hooks : Hooks S X}
    (hpredicate : ∀ id, Within R (hooks.predicate id))
    (hspeculate : ∀ decision n, Within R (hooks.speculate decision n)) (a : Automaton) :
    Within R (do
      let start ← index
      let options ← readState State.options
      walk hooks a start options.maxLookahead 0 : Action (Recognizer S X) Nat) :=
  (Within.read _).bind fun _ => (Within.read _).bind fun _ =>
    ((h.surroundings hpredicate hspeculate).walk a _ 0).within

lemma Kept.predict (h : Kept d g p R) {hooks : Hooks S X}
    (hpredicate : ∀ id, Within R (hooks.predicate id))
    (hspeculate : ∀ decision n, Within R (hooks.speculate decision n)) (a : Automaton) :
    Within R (predict hooks a) :=
  h.speculating false .restore (h.walk hpredicate hspeculate a)

lemma Kept.holds (h : Kept d g p R) (test : LookaheadTest) :
    Within R (holds test : Action (Recognizer S X) Bool) :=
  (h.lookahead _).bind fun _ => Within.pure _

omit [Cursor S] in
lemma repeating_within {condition : Action (Recognizer S X) Bool}
    {body : Action (Recognizer S X) Unit} (hcondition : Within R condition) (hbody : Within R body)
    (fuel : Nat) : Within R (repeating condition body fuel) := by
  induction fuel with
  | zero => exact Within.unending
  | succ fuel ih =>
    exact hcondition.bind fun b => Within.ite (hbody.bind fun _ => ih) (Within.pure _)

/-- One of the blocks of a switch is chosen. -/
lemma returns_chosen (distance : Int) (otherwise : Block ι)
    (arms : List (List TokenType × Block ι)) :
    Returns (chosen distance otherwise arms : Action (Recognizer S X) (Block ι))
      fun b => b ∈ otherwise :: arms.map Prod.snd := by
  induction arms with
  | nil => exact Returns.pure (by simp)
  | cons arm rest ih =>
    obtain ⟨types, block⟩ := arm
    have hholds : Returns (holds ⟨distance, types⟩ : Action (Recognizer S X) Bool)
        fun _ => True := by
      unfold Grammar.holds Recognizer.lookahead stepInput
      exact Returns.step.bind fun _ _ => Returns.pure trivial
    refine hholds.bind fun b _ => ?_
    cases b with
    | true => exact Returns.pure (by simp)
    | false =>
      intro r o r' hrun
      obtain ⟨b, hb, hmem⟩ := ih hrun
      refine ⟨b, hb, ?_⟩
      rcases List.mem_cons.1 hmem with rfl | hmem
      · simp
      · simp [hmem]

/-! ## Statements

What a statement does besides running its blocks comes down to a few things.  Predictions and
speculations are among them as wholes, so that they may keep a relation that their parts do not. -/

/-- All that statements do keeps `R`, if their blocks are run by `run`. -/
structure Conduct (d : Dialect S X ι) (g : Grammar ι) (p : Statement ι → Prop)
    (R : Recognizer S X → Recognizer S X → Prop) (run : Block ι → Action (Recognizer S X) Unit)
    (fuel : Nat) : Prop where
  block {b : Block ι} (hb : Block.All p b) : Within R (run b)
  lookahead (k : Int) : Within R (lookahead k)
  note (e : Event) (he : e.Decision) : Within R (note e)
  fail {α : Type} (kind : FailureKind) (expected : Option TokenSet) :
    Within R (fail kind expected : Action (Recognizer S X) α)
  evaluate (id : Nat) : Within R (evaluate d g run id)
  predict (a : Automaton) : Within R (predict (hooks d g run) a)
  synpred {b : Block ι} (hb : Block.All p b) : Within R (synpred (d.apart (run b)))
  speculating {raise : Bool} {ending : Cursor.GuardEnd} {b : Block ι}
    (hs : p (.speculating raise ending b)) (hb : Block.All p b) :
    Within R (speculating raise ending (run b))
  plain {s : Statement ι} (hs : p s) (hplain : s.Plain) : Within R (execute d g run fuel s)
  perform {i : ι} (hi : p (.perform i)) : Within R (d.perform g run i)

namespace Conduct

variable {fuel : Nat} (h : Conduct d g p R run fuel)

include h

lemma holds (test : LookaheadTest) : Within R (holds test : Action (Recognizer S X) Bool) :=
  (h.lookahead _).bind fun _ => Within.pure _

lemma predictAndRun (a : Automaton) {arms : List (Nat × Block ι)}
    (harms : ∀ b ∈ arms.map Prod.snd, Block.All p b) : Within R (predictAndRun d g run a arms) := by
  unfold Grammar.predictAndRun predicted
  simp only [bind_assoc, pure_bind]
  refine (Within.read _).bind fun index => (h.predict a).bind fun n => ?_
  refine (h.note (.predicted a.decision n index) trivial).bind fun _ => ?_
  split
  · rename_i block hblock
    obtain ⟨before, after, heq, -⟩ := List.lookup_eq_some_iff.1 hblock
    have hmem : block ∈ arms.map Prod.snd := List.mem_map.2 ⟨(n, block), by simp [heq], rfl⟩
    exact (h.block (harms block hmem)).bind fun _ => Within.pure _
  · exact Within.pure _

lemma chosen (distance : Int) {otherwise : Block ι} {arms : List (List TokenType × Block ι)}
    (hall : ∀ b ∈ otherwise :: arms.map Prod.snd, Block.All p b) :
    Within R (chosen distance otherwise arms >>= run) := by
  induction arms with
  | nil => exact h.block (hall otherwise (by simp))
  | cons arm rest ih =>
    obtain ⟨types, block⟩ := arm
    rw [Grammar.chosen, bind_assoc]
    refine (h.holds _).bind fun holds => ?_
    split
    · exact h.block (hall block (by simp))
    · refine ih fun b hb => hall b ?_
      rcases List.mem_cons.1 hb with rfl | hb
      · simp
      · simp [hb]

/-- One statement. -/
lemma execute {s : Statement ι} (hs : s.All p) : Within R (execute d g run fuel s) := by
  have hblock {b : Block ι} (hb : b ∈ s.blocks) : Within R (run b) := h.block (hs.block hb)
  have harms (b : Block ι) (hb : b ∈ s.blocks) : Block.All p b := hs.block hb
  obtain ⟨here, -⟩ := hs
  cases s with
  | ifHolds test yes no =>
    exact (h.holds test).bind fun _ =>
      Within.ite (hblock (by simp [Statement.blocks])) (hblock (by simp [Statement.blocks]))
  | whileHolds test body =>
    exact repeating_within (h.holds test) (hblock (by simp [Statement.blocks])) fuel
  | untilHolds test body =>
    exact repeating_within ((h.holds test).map _) (hblock (by simp [Statement.blocks])) fuel
  | oneOrMore decision test body =>
    have hbody : Within R (run body) := hblock (by simp [Statement.blocks])
    exact (h.holds test).bind fun _ =>
      Within.ite (hbody.bind fun _ => repeating_within (h.holds test) hbody fuel) (h.fail _ _)
  | switch distance arms otherwise => exact h.chosen distance harms
  | predict automaton arms => exact (h.predictAndRun automaton harms).discard
  | loop automaton arms =>
    exact repeating_within (h.predictAndRun automaton harms) (Within.pure _) fuel
  | require predicate rule text =>
    exact (h.evaluate predicate).bind fun _ => Within.ite (Within.pure _) (h.fail _ _)
  | synpred fragment yes no =>
    refine (h.synpred (harms fragment (by simp [Statement.blocks]))).bind fun holds => ?_
    exact (h.note (.tried holds) trivial).bind fun _ =>
      Within.ite (hblock (by simp [Statement.blocks])) (hblock (by simp [Statement.blocks]))
  | speculating raise ending body =>
    exact h.speculating here (harms body (by simp [Statement.blocks]))
  | attempt body =>
    refine (hblock (b := body) (by simp [Statement.blocks])).attempt.bind fun outcome => ?_
    split
    · exact h.note (.attempted none) trivial
    · exact h.note (.attempted _) trivial
  | earlyExit decision => exact h.fail _ _
  | mark | rewind | release | consume | seek | setBacktracking | setLastError | pushFrame
  | popFrame | observe => exact h.plain here trivial
  | perform i => exact h.perform here

end Conduct

/-- A run keeps a relation between the recognizer before and after it, if each statement does under
the assumption that its blocks do. -/
theorem run_of_conduct
    (h : ∀ fuel, (∀ b, Block.All p b → Within R (g.run d fuel b)) →
      Conduct d g p R (g.run d fuel) fuel) (fuel : Nat) {block : Block ι}
    (hblock : Block.All p block) : Within R (g.run d fuel block) := by
  induction fuel generalizing block with
  | zero => exact Within.unending
  | succ fuel ih => exact Within.forM fun s hs => (h fuel fun _ hb => ih hb).execute (hblock s hs)

/-! ## Operations -/

/-- An evaluation keeps what it asks of its surroundings, as far as its predicate needs it. -/
lemma evaluate_within_of {id : Nat} (hlookahead : ∀ k, Within R (Recognizer.lookahead k))
    (hsymbol : Within R symbol) (hnote : ∀ e : Event, e.Decision → Within R (note e))
    (hconsume : ∀ value, g.predicate? id = some (.consume value) → Within R consume)
    (hrun : ∀ block, g.predicate? id = some (.run block) → Within R (d.apart (run block))) :
    Within R (evaluate d g run id) := by
  unfold evaluate
  split
  · exact Within.fault _
  · rename_i predicate hpredicate
    refine (Within.read _).bind fun index => ?_
    have hdone (value : Bool) : Within R (do
        note (.evaluated id index value)
        return value : Action (Recognizer S X) Bool) :=
      (hnote (.evaluated id index value) trivial).bind fun _ => Within.pure _
    cases predicate with
    | constant value => exact hdone value
    | text texts => exact hsymbol.bind fun token => hdone (texts.contains token.text)
    | lookahead test => exact ((hlookahead _).bind fun _ => Within.pure _).bind hdone
    | consume value => exact (hconsume value hpredicate).bind fun _ => hdone value
    | depth least => exact (Within.read _).bind hdone
    | run block => exact (hrun block hpredicate).bind fun _ => hdone true

/-- The operations that evaluate predicates keep `R`. -/
structure Asks (d : Dialect S X ι) (R : Recognizer S X → Recognizer S X → Prop) : Prop where
  lookahead (k : Int) : Within R (lookahead k)
  symbol : Within R symbol
  consume : Within R consume
  note (e : Event) (he : e.Decision) : Within R (note e)
  apart {x : Action (Recognizer S X) Unit} (hx : Within R x) : Within R (d.apart x)

omit [IsPreorder (Recognizer S X) R] in
lemma Kept.asks (h : Kept d g p R) : Asks d R := ⟨h.lookahead, h.symbol, h.consume, h.note, h.apart⟩

section

variable (hg : g.All p) (hrun : ∀ b, Block.All p b → Within R (run b))

include hg hrun

lemma evaluate_within (h : Asks d R) (id : Nat) : Within R (evaluate d g run id) :=
  evaluate_within_of h.lookahead h.symbol h.note (fun _ _ => h.consume)
    fun block hblock => h.apart (hrun block (hg.predicate hblock))

variable (h : Kept d g p R)

include h

lemma speculate_within (decision n : Nat) : Within R (speculate d g run decision n) := by
  unfold speculate
  refine (Within.read _).bind fun index => (Within.read _).bind fun depth =>
    (h.note (.speculated decision n index depth) trivial).bind fun _ => ?_
  split
  · rename_i block hblock
    exact h.apart (hrun _ (hg.simulation hblock))
  · exact Within.fault _

/-- Statements keep what their operations keep. -/
lemma Kept.conduct (fuel : Nat) : Conduct d g p R run fuel where
  block hb := hrun _ hb
  lookahead := h.lookahead
  note := h.note
  fail := h.fail
  evaluate := evaluate_within hg hrun h.asks
  predict := h.predict (evaluate_within hg hrun h.asks) (speculate_within hg hrun h)
  synpred hb := h.synpred (h.apart (hrun _ hb))
  speculating _ hb := h.speculating _ _ (hrun _ hb)
  plain hs hplain := h.plain hs hplain run fuel
  perform hi := h.perform hi hrun

end

/-- **A run keeps what its operations keep**: it is enough that each operation on the input does,
each way of speculating, and each statement and instruction that has no blocks. -/
theorem run_within (h : Kept d g p R) (hg : g.All p) (fuel : Nat) {block : Block ι}
    (hblock : Block.All p block) : Within R (g.run d fuel block) :=
  run_of_conduct (fun fuel hrun => h.conduct hg hrun fuel) fuel hblock

/-- The plain statements that pop no mark are tame. -/
lemma tame_plain [Cursor.View S] [Cursor.Lawful S] {s : Statement ι} (hs : s.Keeping)
    (hplain : s.Plain) (d : Dialect S X ι) (g : Grammar ι)
    (run : Block ι → Action (Recognizer S X) Unit) (fuel : Nat) :
    Within Tame (execute d g run fuel s) := by
  have hnote {f : Recognizer S X → Recognizer S X} (hinput : ∀ r, (f r).input = r.input)
      (hdepth : ∀ r, (f r).state.backtracking = r.state.backtracking) : Within Tame (.update f) :=
    Within.update fun r => Tame.of_input_eq (hinput r) (hdepth r)
  cases s with
  | mark =>
    refine Tame.mark.bind fun m => hnote ?_ ?_
    all_goals exact fun _ => rfl
  | consume => exact Tame.consume
  | seek i => exact Tame.seek i
  | setLastError i =>
    refine hnote ?_ ?_
    all_goals exact fun _ => rfl
  | pushFrame rule follow =>
    refine (Within.read _).bind fun index => hnote ?_ ?_
    all_goals exact fun _ => rfl
  | popFrame =>
    refine hnote ?_ ?_
    all_goals exact fun _ => rfl
  | observe =>
    refine Within.bind ?_ fun seen => hnote ?_ ?_
    · exact (Within.read _).bind fun index => (Tame.lookahead 1).bind fun type => Within.read _
    all_goals exact fun _ => rfl
  | rewind | release | setBacktracking => exact hs.elim
  | ifHolds | whileHolds | untilHolds | oneOrMore | switch | predict | loop | require | synpred
  | speculating | attempt | earlyExit | perform => exact hplain.elim

end Grammar

end Lookahead
