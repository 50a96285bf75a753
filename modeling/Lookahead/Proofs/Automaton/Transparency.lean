import Lookahead.Automaton.Prediction
import Lookahead.Proofs.Recognizer.Speculation
import Lookahead.Proofs.Stream.Characters
import Lookahead.Proofs.Stream.Nodes
import Lookahead.Proofs.Stream.Tokens

/-!
# Prediction is transparent

A prediction consumes input, and the hooks of the grammar that it calls may move the cursor, leave
marks open and fail.  None of this is seen from outside: whatever comes of the prediction, the
cursor, the open marks and the depth of backtracking are back.  Nor does a hook see anything of the
walk: it is always called at the start of the decision.  `predict_transparent` says both.

That hooks are called at the start only is said by what they may be replaced with.  Hooks that agree
at the start, however they differ at other places, make no difference to a prediction.

`Surroundings` has what the proof needs to know of a relation between recognizers to carry it
through a walk; `Surroundings.walk` is about any such relation.
-/

namespace Lookahead

open Action Cursor
open Cursor.View (Ready spot marks)

variable {S X α : Type} [Cursor S]

/-- The second hooks are the same as the first where the cursor is at `start`. -/
def Hooks.AgreeAt (start : Nat) (hooks hooks' : Hooks S X) : Prop :=
  ∀ r : Recognizer S X, Cursor.index r.input = start →
    (∀ id, hooks.predicate id r = hooks'.predicate id r) ∧
      ∀ decision n, hooks.speculate decision n r = hooks'.speculate decision n r

/-- Hooks that pop no mark which they did not take, and that leave the depth of backtracking as they
found it. -/
structure Hooks.Tame [View S] (hooks : Hooks S X) : Prop where
  predicate (id : Nat) : Within Recognizer.Tame (hooks.predicate id)
  speculate (decision n : Nat) : Within Recognizer.Tame (hooks.speculate decision n)

namespace Recognizer

/-! ## Through a walk -/

/-- All that a walk does keeps the relation `R`, and where `P` holds, the second hooks are as good
as the first at the start of the decision. -/
structure Surroundings (R : Recognizer S X → Recognizer S X → Prop) (P : Recognizer S X → Prop)
    (start : Nat) (hooks hooks' : Hooks S X) : Prop where
  lookahead : Within R (lookahead 1)
  consume : Within R consume
  seek (i : Nat) : Within R (seek i)
  fail {α : Type} (kind : FailureKind) (expected : Option TokenSet) :
    Within R (fail kind expected : Action (Recognizer S X) α)
  predicate (id : Nat) : Within R (hooks.predicate id)
  synpred (decision n : Nat) : Within R (synpred (hooks.speculate decision n))
  keeps (r r' : Recognizer S X) : R r r' → P r → P r'
  arrives (r : Recognizer S X) : P r → Cursor.index (Cursor.seek r.input start) = start
  agree_predicate (r : Recognizer S X) (id : Nat) : P r → Cursor.index r.input = start →
    hooks.predicate id r = hooks'.predicate id r
  agree_synpred (r : Recognizer S X) (decision n : Nat) : P r → Cursor.index r.input = start →
    Recognizer.synpred (hooks.speculate decision n) r =
      Recognizer.synpred (hooks'.speculate decision n) r

namespace Surroundings

variable {R : Recognizer S X → Recognizer S X → Prop} [IsPreorder (Recognizer S X) R]
  {P : Recognizer S X → Prop} {start : Nat} {hooks hooks' : Hooks S X}

/-- A visit brings the cursor to the start. -/
lemma visiting (h : Surroundings R P start hooks hooks') {x y : Action (Recognizer S X) α}
    (hx : Within R x) (hxy : ∀ r, P r → Cursor.index r.input = start → x r = y r) :
    Alike R P (visiting start x) (visiting start y) := by
  have hvisit : Alike R P (Recognizer.seek start >>= fun _ => x.attempt)
      (Recognizer.seek start >>= fun _ => y.attempt) := by
    refine ⟨(h.seek start).bind fun _ => hx.attempt, fun r hr => ?_⟩
    have hafter : P { r with input := Cursor.seek r.input start } :=
      h.keeps _ _ (h.seek start (seek_apply start r)) hr
    simp only [bind_apply, seek_apply, attempt_apply]
    rw [hxy _ hafter (h.arrives r hr)]
  have hrest (here : Nat) (outcome : Except Fault α) :
      Alike R P (Recognizer.seek here >>= fun _ => Action.ofExcept outcome)
        (Recognizer.seek here >>= fun _ => Action.ofExcept outcome) :=
    .refl ((h.seek here).bind fun _ => Within.ofExcept outcome)
  refine (Alike.refl (Within.read _)).bind h.keeps fun here => ?_
  have hall := hvisit.bind h.keeps (hrest here)
  simpa only [bind_assoc] using hall

lemma firstOpen (h : Surroundings R P start hooks hooks') (type : TokenType)
    (edges : List PredicatedEdge) :
    Alike R P (firstOpen hooks start type edges) (firstOpen hooks' start type edges) := by
  induction edges with
  | nil => exact .refl (Within.pure _)
  | cons e rest ih =>
    rw [Recognizer.firstOpen, Recognizer.firstOpen]
    refine .ite (.bind h.keeps ?_ fun holds => .ite (.refl (Within.pure _)) ih) ih
    rw [isOpen, isOpen]
    split
    · rename_i id _
      exact h.visiting (h.predicate id) fun r hr => h.agree_predicate r id hr
    · exact .refl (Within.pure _)

lemma firstParsing (h : Surroundings R P start hooks hooks') (decision : Nat) (tryAll : Bool)
    (alternatives : List Nat) :
    Alike R P (firstParsing hooks decision start tryAll alternatives)
      (firstParsing hooks' decision start tryAll alternatives) := by
  induction alternatives with
  | nil => exact .refl (Within.pure _)
  | cons n rest ih =>
    rw [Recognizer.firstParsing, Recognizer.firstParsing]
    have htry := h.visiting (h.synpred decision n) fun r hr => h.agree_synpred r decision n hr
    refine htry.bind h.keeps fun parses => .ite (.ite ?_ (.refl (Within.pure _))) ih
    exact (ih.discard h.keeps).bind h.keeps fun _ => .refl (Within.pure _)

lemma resolve (h : Surroundings R P start hooks hooks') (a : Automaton) (special : SpecialState) :
    Alike R P (resolve hooks a start special) (resolve hooks' a start special) := by
  rw [Recognizer.resolve, Recognizer.resolve]
  refine (Alike.refl h.lookahead).bind h.keeps fun type => ?_
  refine (h.firstOpen type special.edges).bind h.keeps fun target => ?_
  split
  · exact .refl (Within.pure _)
  · refine .ite (.refl (Within.pure _)) (.bind h.keeps ?_ fun parsed => .refl ?_)
    · rw [simulate, simulate]
      refine (Alike.refl (Within.read _)).bind h.keeps fun options => ?_
      refine (Alike.refl (Within.read _)).bind h.keeps fun depth => ?_
      exact .ite (.refl (Within.pure _)) (h.firstParsing _ _ _)
    · cases parsed with
      | none => exact Within.pure _
      | some n => exact Within.pure _

lemma arrivingAt (h : Surroundings R P start hooks hooks') (a : Automaton) (s : Nat)
    {follow follow' : SpecialState → Action (Recognizer S X) Settled}
    (hfollow : ∀ special, Alike R P (follow special) (follow' special)) :
    Alike R P (arrivingAt a s follow) (arrivingAt a s follow') := by
  rw [Recognizer.arrivingAt, Recognizer.arrivingAt]
  refine (Alike.refl (Within.ofExcept _)).bind h.keeps fun state => ?_
  split
  · exact .refl (Within.pure _)
  · split
    · exact hfollow _
    · exact .refl (h.fail _ _)

lemma settle (h : Surroundings R P start hooks hooks') (a : Automaton) (hops s : Nat) :
    Alike R P (settle hooks a start hops s) (settle hooks' a start hops s) := by
  induction hops generalizing s with
  | zero => exact h.arrivingAt a s fun _ => .refl (h.fail _ _)
  | succ hops ih =>
    refine h.arrivingAt a s fun special => ?_
    refine (h.resolve a special).bind h.keeps fun resolution => ?_
    split
    · exact .refl (Within.pure _)
    · exact .ite (.refl (h.fail _ _)) (ih _)
    · exact .refl (h.fail _ _)

lemma deciding (h : Surroundings R P start hooks hooks') (a : Automaton) (s : Nat)
    {onward onward' : Nat → Action (Recognizer S X) Nat}
    (honward : ∀ t, Alike R P (onward t) (onward' t)) :
    Alike R P (deciding hooks a start s onward) (deciding hooks' a start s onward') := by
  rw [Recognizer.deciding, Recognizer.deciding]
  refine (h.settle a a.stateCount s).bind h.keeps fun settled => ?_
  split
  · exact .refl (Within.pure _)
  · split
    · exact .refl (Within.pure _)
    · exact honward _

/-- A walk keeps what its parts keep, and it does not tell hooks apart that are the same at the
start. -/
lemma walk (h : Surroundings R P start hooks hooks') (a : Automaton) (budget s : Nat) :
    Alike R P (walk hooks a start budget s) (walk hooks' a start budget s) := by
  induction budget generalizing s with
  | zero => exact h.deciding a s fun _ => .refl (h.fail _ _)
  | succ budget ih =>
    refine h.deciding a s fun t => ?_
    refine (Alike.refl h.lookahead).bind h.keeps fun type => ?_
    split
    · exact .refl (Within.pure _)
    · exact (Alike.refl h.consume).bind h.keeps fun _ => ih _
    · exact (Alike.refl h.consume).bind h.keeps fun _ => ih _
    · exact .refl (h.fail _ _)

end Surroundings

/-! ## Through a prediction -/

variable [View S] [Lawful S]

/-- A syntactic predicate runs its fragment from where the recognizer is. -/
lemma synpred_congr {fragment fragment' : Action (Recognizer S X) Unit} {r : Recognizer S X}
    (hr : Ready r.input)
    (h : ∀ r' : Recognizer S X, Cursor.index r'.input = Cursor.index r.input →
      fragment r' = fragment' r') : synpred fragment r = synpred fragment' r := by
  simp only [synpred, bind_apply, beginSpeculation_apply, attempt_apply, h _ (index_begun true hr)]

/-- Tame hooks keep a walk tame, and are seen at the start only. -/
lemma surroundings_tame {hooks hooks' : Hooks S X} {start : Nat} (htame : hooks.Tame)
    (hagree : hooks.AgreeAt start hooks') :
    Surroundings Tame
      (fun r => Ready r.input ∧ View.Stands (View.input r.input) start) start hooks hooks' where
  lookahead := Tame.lookahead 1
  consume := Tame.consume
  seek := Tame.seek
  fail := Tame.fail
  predicate := htame.predicate
  synpred decision n := Tame.synpred (htame.speculate decision n)
  keeps r r' h hr := by
    obtain ⟨hready, hinput⟩ := (h hr.1).1.ready hr.1
    exact ⟨hready, hinput ▸ hr.2⟩
  arrives r hr := by
    obtain ⟨p, hland, hplace⟩ := Lawful.seek start hr.1
    rw [hland.index_eq, hplace hr.2]
  agree_predicate r id _ hat := (hagree r hat).1 id
  agree_synpred r decision n hr hat :=
    synpred_congr hr.1 fun r' hr' => (hagree r' (hr'.trans hat)).2 decision n

/-- **Prediction is transparent.**  The stream is of any lawful kind and live, and the hooks are
tame: no predicate and no speculation pops a mark that it has not taken, or leaves the depth of
backtracking changed.

Then hooks are called at the start of the decision only, so that others which agree with them
there are as good: what predicates and simulations do elsewhere has no influence.  And whatever
comes of the prediction, an alternative, a failure or a misuse, the cursor, the open marks with
the spots that they save, and the depth of backtracking are what they were. -/
theorem predict_transparent {hooks : Hooks S X} (htame : hooks.Tame) {r : Recognizer S X}
    (hlive : Live r.input) (a : Automaton) :
    (∀ hooks', hooks.AgreeAt (Cursor.index r.input) hooks' →
      predict hooks' a r = predict hooks a r) ∧
    ∀ outcome r', predict hooks a r = some (outcome, r') →
      spot r'.input = spot r.input ∧ Cursor.index r'.input = Cursor.index r.input ∧
        (marks r'.input).entries = (marks r.input).entries ∧
        r'.state.backtracking = r.state.backtracking := by
  have hr : Ready r.input := hlive.ready
  constructor
  · intro hooks' hagree
    have hmark := lands_begun false hr
    have hindex := index_begun false hr
    have hstands : View.Stands (View.input (begun false r).input) (Cursor.index r.input) := by
      rw [hmark.input_eq]
      exact Lawful.stands hr
    have hwalk := ((surroundings_tame htame hagree).walk a r.state.options.maxLookahead 0).eq_of
      (begun false r) ⟨hmark.ready, hstands⟩
    simp only [predict, speculating_apply, bind_apply, index_apply, readState_apply, hindex]
    rw [show (begun false r).state.options = r.state.options from rfl, hwalk]
  · intro outcome r' h
    have hbody : Within Tame (do
        let start ← index
        let options ← readState State.options
        walk hooks a start options.maxLookahead 0 : Action (Recognizer S X) Nat) := by
      refine (Within.read _).bind fun start => (Within.read _).bind fun options => ?_
      have hself : hooks.AgreeAt start hooks := fun _ _ => ⟨fun _ => rfl, fun _ _ => rfl⟩
      exact ((surroundings_tame htame hself).walk a _ 0).within
    obtain ⟨hback, hdepth⟩ := speculating_of_tame hr hbody h
    refine ⟨hback.spot_eq, ?_, hback.marks_eq, hdepth⟩
    rw [Lawful.index_eq, Lawful.index_eq, hback.spot_eq]

/-- Hooks that move on, leave a mark open, and parse nothing. -/
def wandering : Hooks S X where
  predicate _ := do
    consume
    let _ ← mark
    return true
  speculate _ _ := do
    consume
    .fault .backtracking

lemma tame_wandering : (wandering : Hooks S X).Tame where
  predicate _ := Tame.consume.bind fun _ => Tame.mark.bind fun _ => Within.pure _
  speculate _ _ := Tame.consume.bind fun _ => Within.fault _

/-- A decision that asks two predicates. -/
def askingAutomaton : Automaton where
  decision := 0
  description := ""
  states := #[⟨none, some 0, none, none, 0, #[]⟩, ⟨none, some 1, none, none, 0, #[]⟩,
    ⟨some 2, none, none, none, 0, #[]⟩]
  specials := #[⟨[⟨none, some 7, 1⟩], [], none⟩, ⟨[⟨none, some 8, 2⟩], [], none⟩]
  alternatives := [2]

/-- A recognizer of two units. -/
def twoUnits : Recognizer NodeStream Unit :=
  .ofInput ⟨#[.down, .up], 0, .empty, ""⟩ () .standard .characters

lemma live_twoUnits : Live twoUnits.input := ⟨⟨_, ⟨rfl, rfl⟩, .refl _⟩, trivial⟩

/-- The three kinds of streams, with hooks that do not come back. -/
theorem predict_transparent_wandering :
    (∃ r', predict wandering askingAutomaton twoUnits = some (.ok 2, r') ∧
      r'.input.place = 0 ∧ r'.input.marks.entries = []) ∧
    (∀ outcome r', predict wandering askingAutomaton
        (.ofInput (.ofString "ab" "") () .standard .characters : Recognizer CharacterStream _) =
          some (outcome, r') → r'.input.place = .start) ∧
    ∀ outcome r', predict wandering askingAutomaton
        (.ofInput ((TokenStream.ofSource [Token.ofText 4 "a"] 0 "").seek 0) () .standard
          .characters : Recognizer (TokenStream (List Token)) _) = some (outcome, r') →
      r'.input.place = ((TokenStream.ofSource [Token.ofText 4 "a"] 0 "").seek 0).place := by
  refine ⟨⟨_, rfl, ?_⟩, fun outcome r' h => ?_, fun outcome r' h => ?_⟩
  · obtain ⟨hspot, -, hmarks, -⟩ :=
      (predict_transparent tame_wandering live_twoUnits askingAutomaton).2 _ _ rfl
    exact ⟨hspot, hmarks⟩
  · have hlive : Live (CharacterStream.ofString "ab" "") := ⟨⟨_, ⟨rfl, rfl⟩, .refl _⟩, trivial⟩
    exact ((predict_transparent tame_wandering hlive askingAutomaton).2 outcome r' h).1
  · have hlive : Live ((TokenStream.ofSource [Token.ofText 4 "a"] 0 "").seek 0) :=
      ⟨⟨_, ⟨_, _, _, rfl⟩, (Step.seek _ 0).reaches⟩, (TokenStream.movesTo_seek _ 0).started⟩
    exact ((predict_transparent tame_wandering hlive askingAutomaton).2 outcome r' h).1

end Recognizer

end Lookahead
