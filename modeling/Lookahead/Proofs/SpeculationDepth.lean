import Lookahead.Proofs.Automaton.Start
import Lookahead.Proofs.Grammar.Depth
import Lookahead.Proofs.Grammar.Lexing
import Lookahead.Proofs.Parser.Records
import Lookahead.Proofs.Walker.Records

/-!
# The depth of speculation is bounded

Parsers, walkers and lexers: none of them does anything about the depth of backtracking by itself,
so the depth is a matter of the predictions in their programs (`speculation_bounded`).
-/

namespace Lookahead

open Action Recognizer

/-! ## Parsers -/

namespace Parser

variable {σ : Type} [TokenSource σ] {α : Type} {r : Parser σ}

lemma agrees_withRoot {P : ℕ → Parser σ → Prop} (hP : Tiers P) {n : ℕ} (root : Option NodeId)
    {x y : Action (Parser σ) α} (h : Agrees P n x y) :
    Agrees P n (withRoot root x) (withRoot root y) := by
  have hset (root : Option NodeId) :
      Agrees P n (setRoot root : Action (Parser σ) Unit) (setRoot root) :=
    hP.agrees (undisturbed_of_upkeep upkeep_updateOwn)
  refine (hP.read _).bind fun outer => (hset root).bind fun _ => h.attempt.bind fun outcome => ?_
  refine (hP.read _).bind fun inner => (hset outer).bind fun _ => ?_
  exact (hP.ofExcept outcome).discard.bind fun _ => .pure inner

/-- A call hangs on what the body of its rule does with the parser that has entered it. -/
lemma same_call (rule : Rule) (follow : TokenSet) {x y : Action (Parser σ) Unit}
    (h : SameFrom Undisturbed r x y) :
    SameFrom Undisturbed r (call rule follow x) (call rule follow y) := by
  have hbody (start : RuleStart) :
      SameFrom Undisturbed r (runBody start x) (runBody start y) := by
    have hroot (root : Option NodeId) :
        SameFrom Undisturbed r (withRoot root x) (withRoot root y) :=
      .bind_right (Within.read _) fun outer =>
        .bind_right (undisturbed_of_upkeep upkeep_updateOwn) fun _ => h.attempt.bind_left
    exact .bind_right (undisturbed_of_upkeep upkeep_beginTree) fun root => (hroot root).bind_left
  refine .bind_right (undisturbed_of_upkeep (upkeep_enterRule rule follow)).attempt fun entry => ?_
  refine .bind_right (Within.read _) fun index =>
    .bind_right (undisturbed_note fun _ h => by cases h) fun _ => ?_
  refine .bind_right (Within.ofExcept entry) fun entered => ?_
  cases entered with
  | none => exact .refl _
  | some start => exact (hbody start).attempt.bind_left

lemma levelled (g : Grammar ParserInstruction) :
    Grammar.Levelled (dialect : Dialect (TokenStream σ) _ _) g where
  apart hP h := (agrees_withRoot hP none h).discard
  perform_eq {run run' r} h i := by
    cases i with
    | call rule follow =>
      exact (same_call (g.rule rule) follow (h rule)).bind_left r (refl_of Undisturbed r)
    | token | child | root | set | any => rfl
  perform_levels h i :=
    perform_of_undisturbed (fun _ _ => .of_undisturbed) (fun start o => levels_record start o) h i

end Parser

/-! ## Walkers -/

namespace Walker

variable {r : Walker}

lemma same_call (rule : Rule) {x y : Action Walker Unit} (h : SameFrom Undisturbed r x y) :
    SameFrom Undisturbed r (call rule x) (call rule y) := by
  refine .bind_right (undisturbed_enterRule rule).attempt fun entry => ?_
  refine .bind_right (Within.read _) fun index =>
    .bind_right (undisturbed_note fun _ h => by cases h) fun _ => ?_
  refine .bind_right (Within.ofExcept entry) fun entered => ?_
  cases entered with
  | none => exact .refl _
  | some start => exact h.attempt.bind_left

lemma levelled (g : Grammar WalkerInstruction) : Grammar.Levelled dialect g where
  apart _ h := h
  perform_eq {run run' r} h i := by
    cases i with
    | call rule => exact same_call (g.rule rule) (h rule) r (refl_of Undisturbed r)
    | type | set | any | down | up => rfl
  perform_levels h i :=
    perform_of_undisturbed (fun _ _ => .of_undisturbed) (fun start o => levels_record start o) h i

end Walker

/-! ## Lexers -/

namespace Lexer

lemma levels_matching : Matching Levels where
  lookahead k := (Told.lookahead k).levels
  consume := Told.consume.levels
  fail kind expected := (Told.fail kind expected).levels
  note _ := Within.update fun _ => .of_eq rfl rfl
  draft _ := Within.update fun _ => .of_eq rfl rfl

lemma levelled (g : Grammar LexerInstruction) : Grammar.Levelled dialect g where
  apart _ h := h
  perform_eq {run run' r} h i := by
    cases i with
    | call rule => exact h rule r (refl_of Undisturbed r)
    | char | range | chars | set | any | noViable | setType | setChannel | setText | skip | emit
    | beginToken | observeDraft => rfl
  perform_levels {run} h i := by
    have hupdate (f : TokenDraft → TokenDraft) : Within Levels (updateOwn f : Action Lexer Unit) :=
      Within.update fun _ => .of_eq rfl rfl
    have hmatching (hi : i.Matches) : Within Levels (perform g run i) :=
      levels_matching.perform hi run
    cases i with
    | call rule => exact h rule
    | emit =>
      refine Within.bind ?_ fun token => Within.update fun _ => .of_eq rfl rfl
      exact (Within.read _).bind fun token => (hupdate _).bind fun _ => Within.pure token
    | beginToken => exact Within.update fun _ => .of_eq rfl rfl
    | setText text => exact hupdate fun d => { d with text := some text }
    | char | range | chars | set | any | noViable | setType | setChannel | skip | observeDraft =>
      exact hmatching trivial

end Lexer

/-! ## Main result -/

/-- **The depth of speculation is bounded.**  The program speculates through predictions only
(`Statement.OnlyPredicts`): no syntactic predicate, no guard that raises the depth, and no
statement that sets it.  The recognizers are of any of the three kinds, on any input and with
any options.

No run passes through a recognizer beyond the bound, nested blocks and hooks included, whether
they come to an end or not.  A prediction calls its hooks one level deeper, within the bound,
and at the bound it calls none; and whatever comes of it, it leaves the depth as it was
(`Grammar.DepthBounded`). -/
theorem speculation_bounded :
    (∀ (σ : Type) [TokenSource σ] (g : Grammar ParserInstruction), g.All Statement.OnlyPredicts →
      Grammar.DepthBounded (Parser.dialect : Dialect (TokenStream σ) _ _) g) ∧
    (∀ g : Grammar WalkerInstruction, g.All Statement.OnlyPredicts →
      Grammar.DepthBounded Walker.dialect g) ∧
    (∀ g : Grammar LexerInstruction, g.All Statement.OnlyPredicts →
      Grammar.DepthBounded Lexer.dialect g) :=
  ⟨fun _ _ g hg => (Parser.levelled g).depthBounded hg,
    fun g hg => (Walker.levelled g).depthBounded hg,
    fun g hg => (Lexer.levelled g).depthBounded hg⟩

/-! ## A decision within itself -/

namespace Lexer

/-- A decision that tries the first alternative by parsing, and takes the second one otherwise. -/
def dithering : Automaton where
  decision := 0
  description := "item"
  states := #[⟨none, some 0, none, none, 0, #[]⟩, ⟨some 2, none, none, none, 0, #[]⟩]
  specials := #[⟨[], [1], some 1⟩]
  alternatives := [1, 2]

def dither : Block LexerInstruction := [.predict dithering []]

/-- The first alternative is a character, after the same decision. -/
def ditherAgain : Block LexerInstruction := dither ++ [.perform (.char 'a')]

def dithers : Grammar LexerInstruction := ⟨[], [], [((0, 1), ditherAgain)]⟩

/-- A lexer that may speculate one level deep. -/
def oneDeep : Lexer :=
  .ofStream (.ofString "a" "") { Options.standard with maxSpeculationDepth := 1 }

/-- The lexer with which the first alternative is begun. -/
def trying : Lexer :=
  let l := Recognizer.begun false oneDeep
  let l := Recognizer.begun true { l with input := Cursor.seek l.input 0 }
  { l with trace := #[.speculated 0 1 0 1] }

/-- The prediction does not end if the trial does not. -/
lemma predict_dithering_of_none {run : Block LexerInstruction → Action Lexer Unit}
    (h : run ditherAgain trying = none) :
    predict (Grammar.hooks dialect dithers run) dithering oneDeep = none := by
  let l := Recognizer.begun false oneDeep
  let hooks := Grammar.hooks dialect dithers run
  have hspeculate : hooks.speculate 0 1
      (Recognizer.begun true { l with input := Cursor.seek l.input 0 }) = none := h
  have htry : visiting 0 (synpred (hooks.speculate 0 1)) l = none := by
    simp only [visiting, synpred, bind_apply, index_apply, seek_apply, attempt_apply,
      beginSpeculation_apply, hspeculate, Option.map_none]
  have hascending : Automaton.ascending [1] = [1] := by decide +kernel
  have hbelow : ¬ l.state.options.maxSpeculationDepth ≤ l.state.backtracking := by decide
  have hsimulate : simulate hooks dithering 0 [1] l = none := by
    simp only [simulate, bind_apply, readState_apply, hascending, if_neg hbelow, firstParsing,
      dithering, htry]
  have hresolve : resolve hooks dithering 0 ⟨[], [1], some 1⟩ l = none := by
    simp only [resolve, bind_apply, lookahead_apply, firstOpen, pure_apply, List.isEmpty_cons]
    exact bind_of_none hsimulate
  have hsettle : settle hooks dithering 0 2 0 l = none := by
    show (resolve hooks dithering 0 ⟨[], [1], some 1⟩ >>= _) l = none
    exact bind_of_none hresolve
  have hwalk : walkOf hooks dithering oneDeep = none := bind_of_none hsettle
  rw [predict_apply, hwalk]
  rfl

lemma begins_ditherAgain :
    Grammar.Begins dialect dithers (.predict dithering []) oneDeep ditherAgain trying := by
  classical
  let run : Block LexerInstruction → Action Lexer Unit := fun b l =>
    if b = ditherAgain ∧ l = trying then none else dithers.run dialect 3 b l
  have hnone : predict (Grammar.hooks dialect dithers run) dithering oneDeep = none :=
    predict_dithering_of_none (if_pos ⟨rfl, rfl⟩)
  have hpredicted : Grammar.predicted dialect dithers run dithering [] oneDeep = none := by
    show (predict (Grammar.hooks dialect dithers run) dithering >>= _) oneDeep = none
    exact bind_of_none hnone
  have hpredict : Grammar.predictAndRun dialect dithers run dithering [] oneDeep = none :=
    bind_of_none hpredicted
  have hexecute : Grammar.execute dialect dithers run 3 (.predict dithering []) oneDeep = none := by
    show ((fun _ => ()) <$> Grammar.predictAndRun dialect dithers run dithering []) oneDeep = none
    rw [map_eq_bind]
    exact bind_of_none hpredict
  have hends : (Grammar.execute dialect dithers (dithers.run dialect 3) 3
      (.predict dithering []) oneDeep).isSome = true := by
    decide +kernel
  refine ⟨3, run, fun b l hne => if_neg hne, fun heq => ?_⟩
  rw [← heq, hexecute] at hends
  cases hends

end Lexer

open Lexer in
/-- The trial is at the bound, so that the decision within it falls back, whatever a hook would
do. -/
theorem speculation_bounded_dithers :
    dithers.All Statement.OnlyPredicts ∧
    Grammar.Visits Lexer.dialect dithers dither oneDeep trying ∧
    trying.state.backtracking = 1 ∧ Shallow trying ∧
    ∀ speculate, ∃ l, predict { Grammar.hooks Lexer.dialect dithers (dithers.run Lexer.dialect 3)
        with speculate } dithering trying = some (.ok 2, l) ∧ l.state.backtracking = 1 := by
  have hall : dithers.All Statement.OnlyPredicts := by
    apply Grammar.all_of_mem
    all_goals
      simp [dithers, ditherAgain, dither, Statement.all_iff, Statement.blocks,
        Statement.OnlyPredicts]
  have hblock : Block.All Statement.OnlyPredicts dither := by
    simp [dither, Statement.all_iff, Statement.blocks, Statement.OnlyPredicts]
  have hbounded := speculation_bounded.2.2 dithers hall
  have hvisits : Grammar.Visits Lexer.dialect dithers dither oneDeep trying :=
    .inside begins_ditherAgain (.start _ _)
  have hfallback : (predict (Grammar.hooks Lexer.dialect dithers (dithers.run Lexer.dialect 3))
      dithering.unsimulated trying).map (fun result => result.1.toOption) = some (some 2) := by
    decide +kernel
  obtain ⟨⟨outcome, l⟩, hpredict, houtcome⟩ := Option.map_eq_some_iff.1 hfallback
  obtain rfl : outcome = .ok 2 := by
    cases outcome with
    | ok n => rw [Option.some.inj houtcome]
    | error fault => cases houtcome
  have hshallow : Shallow trying := (hbounded.bounded hblock (Nat.zero_le _) hvisits).1
  refine ⟨hall, hvisits, rfl, hshallow, fun speculate => ⟨l, ?_, ?_⟩⟩
  · rw [hbounded.atLimit 3 dithering trying speculate (by decide)]
    exact hpredict
  · exact hbounded.returns 3 dithering.unsimulated hpredict

end Lookahead
