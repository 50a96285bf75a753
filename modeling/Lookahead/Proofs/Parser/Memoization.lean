import Lookahead.Proofs.Parser.Recall

/-!
# Memoization is invisible

With records, a rule call in a speculation may be replaced by a single seek.  A parser that records
comes to the same as one that does not (`memoization_invisible`), if the run leaves behind nothing
that a record does not tell.

A run with records is compared to a *plain* run, which has none and in which predictions may nest
speculations as deep as it takes (`Options.plain`).  The proof has three parts.

* `lockstep_run` puts together what the single statements do.  It asks that the runs of a rule's
  body agree (`Settled`) in order to know that a record stands for all of them.
* `settled` shows that they do: two plain runs are strangers in lockstep, and strangers have no
  records, so that nothing is asked in turn.
* A parser and its twin start in lockstep (`tied_ofSource`).

The conditions are those of `Lookahead.Proofs.Parser.Replayable`.  `memoization_visible` has a run
for every condition on what a rule is tried under: the bound on nested speculations, a speculative
match that failed or was misused and is gone on from, a recovery that a match ends, a guard that
keeps what it has matched, and a depth that is set.  A record does not tell either of marks, of
frames and of the place of the last error, so that programs which take or set these by hand are left
out as well, and so are predicates that ask for the depth; no run is given for them.
-/

namespace Lookahead

open Action Cursor Recognizer

namespace Parser

variable {σ : Type} [TokenSource σ] {c : Trial} {i : Stage} {fuel fuel' : Nat}

/-! ## Programs in lockstep -/

/-- What statements do keeps two parsers in lockstep, if their blocks do. -/
lemma concord (hg : c.grammar.All Statement.Repeatable) (hpositional : c.grammar.Positional)
    (hsettled : c.twin = true → ∀ n, Settled σ c n fuel)
    (hblocks : ∀ j b, Room c j fuel fuel' → Block.All Statement.Repeatable b →
      Lockstep c j (c.grammar.run watchful fuel b : Action (Parser σ) Unit)
        (c.grammar.run dialect fuel' b))
    (hroom : Room c i (fuel + 1) (fuel' + 1)) :
    Grammar.Concord (Fair c.limit) (Tied c i) watchful dialect c.grammar Statement.Repeatable
      (c.grammar.run watchful fuel : Block ParserInstruction → Action (Parser σ) Unit)
      (c.grammar.run dialect fuel') fuel fuel' := by
  have hhere : Room c i fuel fuel' := hroom.below (by omega) (by omega)
  constructor
  case block => exact fun hb => hblocks i _ hhere hb
  case lookahead => exact fun k => lockstep_lookahead k
  case fail => exact fun kind expected => lockstep_fail kind expected
  case index => exact lockstep_index
  case note => exact fun e _ => lockstep_note e e
  case evaluate => exact fun id => lockstep_evaluate hg hpositional hblocks hhere id
  case predict => exact fun a => lockstep_predict hg hpositional hblocks hroom a
  case synpred =>
    exact fun _ hb => lockstep_synpred fun j hj hj' =>
      lockstep_apart (hblocks j _ (hroom.below (by omega) (by omega)) hb)
  case speculating =>
    intro raise ending b hs hb
    have hraise := raise.toNat_le
    exact lockstep_speculating hs fun j hj hj' =>
      hblocks j _ (hroom.below (by omega) (by omega)) hb
  case attempt => exact fun _ hb => lockstep_attempt (hblocks i _ hhere hb)
  case plain => exact fun hs hplain => lockstep_plain hs hplain
  case perform =>
    intro instruction _
    exact lockstep_perform hhere.le (fun n htwin => hsettled htwin n)
      (fun n => quiet_watchful hg fuel (hg.body n)) (fun n => hblocks i _ hhere (hg.body n))
      instruction

/-- A program keeps two parsers in lockstep. -/
lemma lockstep_run (hg : c.grammar.All Statement.Repeatable) (hpositional : c.grammar.Positional)
    (hsettled : c.twin = true → ∀ n fuel, Settled σ c n fuel) (hle : fuel ≤ fuel')
    (hroom : Room c i fuel fuel') {b : Block ParserInstruction}
    (hb : Block.All Statement.Repeatable b) :
    Lockstep c i (c.grammar.run watchful fuel b : Action (Parser σ) Unit)
      (c.grammar.run dialect fuel' b) := by
  refine Grammar.run_of_concord (I := Stage) (C := Room c) ?_ hle hroom hb
  intro fuel fuel' _ hblocks i hroom
  exact concord hg hpositional (fun htwin n => hsettled htwin n fuel) hblocks hroom

/-! ## Plain runs -/

/-- The trial in which a stranger is met. -/
def Trial.apart (c : Trial) : Trial := { c with twin := false }

/-- Where two parsers are that meet somewhere. -/
def Stage.meeting (q s : Parser σ) : Stage :=
  ⟨View.input q.input, q.state.backtracking, s.state.backtracking, q.input.marks.entries,
    s.input.marks.entries⟩

section

variable {q s q' : Parser σ} {n : Nat} {o : Except Fault Unit}

/-- Two parsers that rehearse at one place are strangers in lockstep. -/
lemma Rehearses.tied (hq : Rehearses c fuel q) (hs : Rehearses c fuel' s)
    (hinput : View.input s.input = View.input q.input)
    (hplace : s.input.place = q.input.place) : Tied c.apart (.meeting q s) none q s := by
  have hstarted : q.input.started = true ∧ s.input.started = true :=
    ⟨hq.onToken.started, hs.onToken.started⟩
  have habreast : q.input.Abreast s.input :=
    ⟨⟨hq.onToken.orderly, hs.onToken.orderly, hinput⟩, hstarted.2.trans hstarted.1.symm, hplace⟩
  constructor
  case facing =>
    exact ⟨habreast.toParallel, rfl, fun _ => habreast, fun _ => hstarted, hq.numbered, rfl, rfl⟩
  case counterparts =>
    exact ⟨hq.options_eq, hs.options_eq, rfl, rfl, fun htwin => by cases htwin⟩
  case root_eq => exact hs.root_eq.trans hq.root_eq.symm
  case tree_eq => exact fun htwin => by cases htwin
  case depth_eq => exact fun htwin => by cases htwin
  case pos => exact fun _ => ⟨hq.pos, hs.pos⟩
  case shallow => exact fun _ hf => by cases hf
  case recalls => exact fun htwin => by cases htwin

variable (hg : c.grammar.All Statement.Repeatable) (hpositional : c.grammar.Positional)

include hg hpositional

/-- A run of a rule's body is followed by any other one that starts at the same place and has at
least as much fuel. -/
lemma Rehearses.follows (hq : Rehearses c fuel q) (hs : Rehearses c fuel' s) (hle : fuel ≤ fuel')
    (hinput : View.input s.input = View.input q.input) (hplace : s.input.place = q.input.place)
    (hrun : c.grammar.run watchful fuel (c.grammar.body n) q = some (o, q'))
    (hfair : Fair c.limit q') :
    ∃ s', c.grammar.run dialect fuel' (c.grammar.body n) s = some (o, s') ∧
      (o = .ok () → s'.input.place = q'.input.place) := by
  have hroom : Room c.apart (.meeting q s) fuel fuel' := ⟨hq.room, fun _ => hs.room⟩
  have hlockstep : Lockstep c.apart (.meeting q s)
      (c.grammar.run watchful fuel (c.grammar.body n) : Action (Parser σ) Unit)
      (c.grammar.run dialect fuel' (c.grammar.body n)) :=
    lockstep_run (c := c.apart) hg hpositional (fun htwin => by cases htwin) hle hroom (hg.body n)
  obtain ⟨s', hrun', htied⟩ := hlockstep.follows hrun hfair s (hq.tied hs hinput hplace)
  refine ⟨s', hrun', fun ho => ?_⟩
  subst ho
  exact (htied.facing.abreast (.inl rfl)).place_eq

/-- **What becomes of a rule depends on the place only.**  Two runs of its body are compared to a
third one, which has the fuel of both. -/
lemma settled (n fuel : Nat) : Settled σ c n fuel := by
  intro q q₂ fuel₂ o o₂ q' q₂' hq hq₂ hinput hplace hrun hfair hrun₂ hfair₂
  have hcommon {s s' s₂' : Parser σ} {m : Nat}
      (h : c.grammar.run dialect m (c.grammar.body n) s = some (o, s') ∧
        (o = .ok () → s'.input.place = q'.input.place))
      (h₂ : c.grammar.run dialect m (c.grammar.body n) s = some (o₂, s₂') ∧
        (o₂ = .ok () → s₂'.input.place = q₂'.input.place)) :
      o₂ = o ∧ (o = .ok () → q₂'.input.place = q'.input.place) := by
    obtain ⟨rfl, rfl⟩ := Prod.mk.inj (Option.some.inj (h₂.1.symm.trans h.1))
    exact ⟨rfl, fun ho => (h₂.2 ho).symm.trans (h.2 ho)⟩
  rcases Nat.le_total fuel fuel₂ with hle | hle
  · obtain ⟨s', h⟩ := hq.follows hg hpositional hq₂ hle hinput hplace hrun hfair
    obtain ⟨s₂', h₂⟩ := hq₂.follows hg hpositional hq₂ (Nat.le_refl _) rfl rfl hrun₂ hfair₂
    exact hcommon h h₂
  · obtain ⟨s', h⟩ := hq.follows hg hpositional hq (Nat.le_refl _) rfl rfl hrun hfair
    obtain ⟨s₂', h₂⟩ := hq₂.follows hg hpositional hq hle hinput.symm hplace.symm hrun₂ hfair₂
    exact hcommon h h₂

end

/-! ## Parses -/

/-- What is seen of a parse from outside: what it returns, where it leaves the cursor and in which
mode, the nodes that it has built and what it has reported. -/
structure Upshot where
  outcome : Except Fault (Option NodeId)
  place : Nat
  mode : Mode
  tree : Tree
  diagnostics : List Diagnostic

/-- What the caller of a parser sees of its result. -/
def upshot (result : Except Fault (Option NodeId) × Parser σ) : Upshot where
  outcome := result.1
  place := Cursor.index result.2.input
  mode := result.2.state.mode
  tree := result.2.own.tree
  diagnostics := result.2.state.diagnostics

/-- A new parser of what a source yields. -/
def ofSource (source : σ) (channel : Channel) (name : String) (vocabulary : Vocabulary)
    (options : Options) : Parser σ :=
  .ofStream (.ofSource source channel name) options vocabulary

/-- What a new parser can be asked for: a block of statements, or a rule by its number. -/
inductive Task where
  /-- Run a block with a new root. -/
  | block (b : Block ParserInstruction)
  | rule (n : Nat) (follow : TokenSet)

namespace Task

/-- All statements of a block can be replayed; about those of a rule the grammar has to say that. -/
def Repeatable : Task → Prop
  | .block b => Block.All Statement.Repeatable b
  | .rule _ _ => True

/-- Do what a parser is asked for. -/
def parse (g : Grammar ParserInstruction) (fuel : Nat) : Task → Action (Parser σ) (Option NodeId)
  | .block b => runBlock g fuel b
  | .rule n follow => callRule g fuel n follow

/-- Do what a parser is asked for, as long as no recovery ends during speculation. -/
def rehearse (g : Grammar ParserInstruction) (fuel : Nat) : Task → Action (Parser σ) (Option NodeId)
  | .block b => do withRoot (← beginTree) (g.run watchful fuel b)
  | .rule n follow => call (g.rule n) follow (g.run watchful fuel (g.body n))

end Task

section

variable {source : σ} {channel : Channel} {name : String} {vocabulary : Vocabulary}
  {g : Grammar ParserInstruction} {options : Options} {o : Except Fault (Option NodeId)}
  {r' : Parser σ}

/-- A new parser and its twin. -/
lemma tied_ofSource (htwin : c.twin = true) :
    Tied c ⟨View.input (TokenStream.ofSource source channel name), 0, 0, [], []⟩ none
      (.ofSource source channel name vocabulary c.plain)
      (.ofSource source channel name vocabulary c.options) := by
  have horderly := TokenStream.orderly_ofSource source channel name
  have hnumbered : (TokenStream.ofSource source channel name).fill.Numbered := by
    refine TokenStream.fill_within (R := fun s t => s.Numbered → t.Numbered)
      TokenStream.numbered_pull _ ?_
    intro j t ht
    simp [TokenStream.ofSource] at ht
  constructor
  case facing =>
    refine ⟨(TokenStream.Abreast.refl horderly).toParallel, rfl,
      fun _ => TokenStream.Abreast.refl horderly, fun hi => ?_, hnumbered, rfl, rfl⟩
    rcases hi with hi | hi
    · exact absurd hi (Nat.lt_irrefl 0)
    · exact absurd rfl hi
  case counterparts =>
    refine ⟨rfl, ?_, rfl, rfl, fun _ =>
      ⟨false, .empty, c.options.memoize, c.options.maxSpeculationDepth, rfl⟩⟩
    rw [Trial.second, if_pos htwin]
    rfl
  case root_eq => rfl
  case tree_eq => exact fun _ => rfl
  case depth_eq => exact fun _ => rfl
  case pos => exact fun hstranger => absurd (htwin.symm.trans hstranger) Bool.true_eq_false.mp
  case shallow => exact fun _ hf => by cases hf
  case recalls => exact fun _ _ _ _ _ hentry => by cases hentry

/-- Twins come to the same upshot. -/
lemma upshot_of_lockstep {x y : Action (Parser σ) (Option NodeId)} (htwin : c.twin = true)
    (hxy : Lockstep c ⟨View.input (TokenStream.ofSource source channel name), 0, 0, [], []⟩ x y)
    (hrun : x (.ofSource source channel name vocabulary c.plain) = some (o, r'))
    (hfair : Fair c.limit r') :
    (y (.ofSource source channel name vocabulary c.options)).map upshot =
      some (upshot (o, r')) := by
  obtain ⟨s', hrun', htied⟩ := hxy.follows hrun hfair _ (tied_ofSource htwin)
  obtain ⟨failed, memo, memoize, depth, hs⟩ := htied.similar rfl
  have hplace : Cursor.index s'.input = Cursor.index r'.input :=
    (htied.facing.abreast (.inr rfl)).place_eq
  simp only [hrun', Option.map_some, upshot, hplace, htied.tree_eq htwin, hs]
  rfl

variable (hg : g.All Statement.Repeatable) (hpositional : g.Positional)

include hg hpositional

/-- A plain run and a run with any options, from the start of the same input. -/
lemma lockstep_twins {block : Block ParserInstruction}
    (hblock : Block.All Statement.Repeatable block) (options : Options)
    (input : Array Token × Channel) :
    Lockstep ⟨g, options, fuel, true⟩ ⟨input, 0, 0, [], []⟩
      (g.run watchful fuel block : Action (Parser σ) Unit) (g.run dialect fuel block) := by
  refine lockstep_run (c := ⟨g, options, fuel, true⟩) hg hpositional
    (fun _ => settled hg hpositional) (Nat.le_refl _) ⟨?_, fun hstranger => ?_⟩ hblock
  · exact Nat.le_of_eq (Nat.zero_add fuel)
  · cases hstranger

lemma lockstep_task {task : Task} (htask : task.Repeatable) (options : Options)
    (input : Array Token × Channel) :
    Lockstep ⟨g, options, fuel, true⟩ ⟨input, 0, 0, [], []⟩
      (task.rehearse g fuel : Action (Parser σ) (Option NodeId)) (task.parse g fuel) := by
  cases task with
  | block block =>
    exact lockstep_beginTree.bind fun root =>
      lockstep_withRoot (lockstep_twins hg hpositional htask options input) root
  | rule rule follow =>
    exact lockstep_call_of_depth rfl (lockstep_twins hg hpositional (hg.body rule) options input)

/-- **Memoization is invisible.**  A task is a block to run or a rule to call.  Its grammar and
the task itself leave nothing behind that a record would have to tell (`Repeatable`), and no
predicate asks how deep the parser is speculating (`hpositional`).

The plain run is the one without records in which speculations may nest as deep as the fuel lets
them (`Options.plain`), and in which no match ends a recovery while speculating (`rehearse`).
If it comes to an end, and if it was fair, which its trace tells (no alternative was tried
deeper than the bound that the options set, and nothing was gone on from a speculative match
that failed or from a misuse), then the runs with and without records come to an end under that
bound.  Both look like the plain run from outside: they have its outcome, its place and mode,
its tree, and its reports in the same order (`upshot`). -/
theorem memoization_invisible {task : Task} (htask : task.Repeatable)
    (hrun : task.rehearse g fuel
      (.ofSource source channel name vocabulary (options.plain fuel)) = some (o, r'))
    (hfair : Fair options.maxSpeculationDepth r') :
    (task.parse g fuel (.ofSource source channel name vocabulary
        { options with memoize := true })).map upshot = some (upshot (o, r')) ∧
      (task.parse g fuel (.ofSource source channel name vocabulary
        { options with memoize := false })).map upshot = some (upshot (o, r')) := by
  have hparse (memoize : Bool) : (task.parse g fuel (.ofSource source channel name vocabulary
      { options with memoize })).map upshot = some (upshot (o, r')) :=
    upshot_of_lockstep (c := ⟨g, { options with memoize }, fuel, true⟩) rfl
      (lockstep_task hg hpositional htask _ _) hrun hfair
  exact ⟨hparse true, hparse false⟩

end

/-! ## Records at work -/

/-- A decision for the first alternative if it parses, or else for the second one. -/
def trying : Automaton where
  decision := 0
  description := ""
  states := #[⟨none, some 0, none, none, 0, #[]⟩, ⟨some 2, none, none, none, 0, #[]⟩]
  specials := #[⟨[], [1], some 1⟩]
  alternatives := [1, 2]

/-- An item is a couple of tokens, or else the first one of them. -/
def items : Grammar ParserInstruction where
  rules := [
    ("item", [.predict trying [(1, [.perform (.call 1 .bare)]), (2, [.perform (.token 4 .bare)])]]),
    ("couple", [.perform (.token 4 .bare), .perform (.token 5 .bare)])]
  predicates := []
  simulations := [((0, 1), [.perform (.call 1 .bare)])]

/-- An item that is tried first, and another one. -/
def triedItems : Task :=
  .block [.synpred [.perform (.call 0 .bare)] [.perform (.call 0 .bare)] [],
    .perform (.call 0 .bare)]

/-- A parser in front of tokens of the given types. -/
def inFrontOf (types : List TokenType) (options : Options) : Parser (List Token) :=
  .ofSource (types.map fun type => Token.ofText type "x") 0 "" (.tokens #[]) options

/-- A couple and the first token of one. -/
def itemsAhead (options : Options) : Parser (List Token) := inFrontOf [4, 5, 4] options

/-- Records of a couple that matches, of an item, and of a couple that does not match are replayed,
and both items are matched all the same. -/
theorem memoization_invisible_items :
    ((triedItems.parse items 8 (itemsAhead { Options.standard with memoize := true })).map
        fun result => result.2.state.memo.size) = some 3 ∧
      ∃ u : Upshot, u.place = 3 ∧
        (triedItems.parse items 8 (itemsAhead { Options.standard with memoize := true })).map
          upshot = some u ∧
        (triedItems.parse items 8 (itemsAhead { Options.standard with memoize := false })).map
          upshot = some u := by
  have hitems : items.All Statement.Repeatable := by
    apply Grammar.all_of_mem
    all_goals simp [items, Statement.all_iff, Statement.blocks, Statement.Repeatable]
  have hpositional : items.Positional := by
    intro id least h
    simp [Grammar.predicate?, items] at h
  have htask : triedItems.Repeatable := by
    simp [triedItems, Task.Repeatable, Statement.all_iff, Statement.blocks, Statement.Repeatable]
  have hplain : ((triedItems.rehearse items 8 (itemsAhead (Options.standard.plain 8))).map
      fun result => ((upshot result).place, decide (Fair 64 result.2))) = some (3, true) := by
    decide +kernel
  obtain ⟨⟨o, r'⟩, hrun, hvalues⟩ := Option.map_eq_some_iff.1 hplain
  obtain ⟨hplace, hfair⟩ := Prod.mk.inj hvalues
  refine ⟨by decide +kernel, upshot (o, r'), hplace, ?_⟩
  exact memoization_invisible hitems hpositional htask hrun (of_decide_eq_true hfair)

/-! ## Records that do not tell all -/

/-- Two rules of which more is left behind than where they stop. -/
def blunders : Grammar ParserInstruction where
  rules := [("assigning", [.setBacktracking 2]), ("misusing", [.require 0 "" ""])]
  predicates := []
  simulations := []

/-- Where parses without and with records end, and in which mode. -/
def endings (g : Grammar ParserInstruction) (types : List TokenType)
    (block : Block ParserInstruction) : Option (Nat × Mode) × Option (Nat × Mode) :=
  let ending (memoize : Bool) := (runBlock g 8 block (inFrontOf types
    { Options.withoutRepairs with memoize, maxSpeculationDepth := 2 })).map fun result =>
      ((upshot result).place, (upshot result).mode)
  (ending false, ending true)

/-- An item is tried so deep that its decision does without speculating, and then less deep. -/
def triedTooDeep : Block ParserInstruction :=
  [.synpred [.synpred [.perform (.call 0 .bare)] [] []] [] [],
    .synpred [.perform (.call 0 .bare), .perform (.token 4 .bare)] [.perform .any] []]

/-- It is gone on from where a couple has failed to match. -/
def goneOn : Block ParserInstruction :=
  [.synpred [.perform (.call 1 .bare)] [] [],
    .synpred [.attempt [.perform (.call 1 .bare)], .perform (.token 6 .bare)] [.perform .any] []]

/-- A couple that has been tried before is tried when the parser has just recovered. -/
def triedInRecovery : Block ParserInstruction :=
  [.synpred [.consume, .perform (.call 1 .bare)] [] [], .perform (.call 1 (.ofTypes [4])),
    .synpred [.perform (.call 1 .bare)] [] []]

/-- The parser stays where a couple has failed to match. -/
def keptSpeculation : Block ParserInstruction :=
  [.synpred [.perform (.call 1 .bare)] [] [], .speculating true .keep [.perform (.call 1 .bare)]]

/-- A rule sets the depth of backtracking. -/
def triedAssignment : Block ParserInstruction :=
  [.synpred [.perform (.call 0 .bare)] [] [], .setBacktracking 0,
    .synpred [.perform (.call 0 .bare)] [] []]

/-- It is gone on from a misuse. -/
def goneOnMisuse : Block ParserInstruction :=
  [.attempt [.synpred [.perform (.call 1 .bare)] [] []],
    .attempt [.synpred [.perform (.call 1 .bare)] [] [.perform .any]]]

/-- Memoization shows where a record has to stand for more than it tells: the ends of six runs,
without records and with them. -/
theorem memoization_visible :
    endings items [4, 5, 4] triedTooDeep = (some (1, .normal), some (0, .normal)) ∧
      endings items [4, 6] goneOn = (some (1, .normal), some (0, .normal)) ∧
      endings items [6, 4, 5] triedInRecovery = (some (1, .normal), some (1, .recovering)) ∧
      endings items [4, 6] keptSpeculation = (some (1, .normal), some (0, .normal)) ∧
      endings blunders [4] triedAssignment = (some (0, .backtracking 1), some (0, .normal)) ∧
      endings blunders [4] goneOnMisuse = (some (0, .normal), some (1, .normal)) := by
  refine ⟨?_, ?_, ?_, ?_, ?_, ?_⟩
  all_goals decide +kernel

end Parser

end Lookahead
