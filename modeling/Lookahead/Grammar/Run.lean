import Lookahead.Automaton.Prediction
import Lookahead.Grammar.Program

/-!
# Running grammar programs

`Grammar.run` runs a block on a recognizer.  `Dialect` says what the instructions of a kind of
recognizer do, and how a fragment is run that is to build nothing.

Programs can recurse and loop, so a run is given *fuel*: it bounds the nesting of blocks and the
rounds of a loop.  A run that is out of fuel is `Action.unending`, which is neither a value nor a
fault.
-/

namespace Lookahead

/-- The meaning of the instructions `ι` for recognizers over `S` with belongings `X`. -/
structure Dialect (S X ι : Type) where
  /-- Carry out an instruction. A block that belongs to it, such as the body of a rule that it
  calls, is run by the function given. -/
  perform : Grammar ι → (Block ι → Action (Recognizer S X) Unit) → ι →
    Action (Recognizer S X) Unit
  /-- Run something apart from what is being built, so that nothing is added to that. -/
  apart : Action (Recognizer S X) Unit → Action (Recognizer S X) Unit

namespace Grammar

open Recognizer

variable {S X ι : Type} [Cursor S]

/-- Does a test hold at the cursor? -/
def holds (test : LookaheadTest) : Action (Recognizer S X) Bool := do
  return test.types.contains (← lookahead test.distance)

/-- Do something as long as a condition is true, for at most `fuel` rounds. Out of fuel, it does not
end. -/
def repeating (condition : Action (Recognizer S X) Bool) (body : Action (Recognizer S X) Unit) :
    (fuel : Nat) → Action (Recognizer S X) Unit
  | 0 => .unending
  | fuel + 1 => do
    if ← condition then
      body
      repeating condition body fuel
    else return

/-- The first block whose types hold the lookahead, or else `otherwise`. -/
def chosen (distance : Int) (otherwise : Block ι) :
    List (List TokenType × Block ι) → Action (Recognizer S X) (Block ι)
  | [] => return otherwise
  | (types, block) :: rest => do
    if ← holds ⟨distance, types⟩ then return block
    else chosen distance otherwise rest

/-- The mark with a handle. Handles count the marks that statements took, from 0 on. -/
def handle (i : Nat) : Action (Recognizer S X) Mark := .read fun r => r.handles.getD i default

/-- Evaluate a semantic predicate at the cursor, and note what it answers. To ask for one that the
grammar does not have is a misuse. -/
def evaluate (d : Dialect S X ι) (g : Grammar ι) (run : Block ι → Action (Recognizer S X) Unit)
    (id : Nat) : Action (Recognizer S X) Bool := do
  match g.predicate? id with
  | none => Hooks.none.predicate id
  | some predicate =>
    let index ← index
    let value ← match predicate with
      | .constant value => pure value
      | .text texts => do pure (texts.contains (← symbol).text)
      | .lookahead test => holds test
      | .consume value => do
        consume
        pure value
      | .depth least => readState fun s => least ≤ s.backtracking
      | .run block => do
        d.apart (run block)
        pure true
    note (.evaluated id index value)
    return value

/-- Parse an alternative of a decision speculatively, apart from what is being built, and note that
it was begun. To ask for one that the grammar does not have is a misuse. -/
def speculate (d : Dialect S X ι) (g : Grammar ι) (run : Block ι → Action (Recognizer S X) Unit)
    (decision alternative : Nat) : Action (Recognizer S X) Unit := do
  note (.speculated decision alternative (← index) (← readState State.backtracking))
  match g.simulation? decision alternative with
  | some block => d.apart (run block)
  | none => Hooks.none.speculate decision alternative

/-- What a grammar program contributes to decisions: its predicates and its speculative parses. -/
def hooks (d : Dialect S X ι) (g : Grammar ι) (run : Block ι → Action (Recognizer S X) Unit) :
    Hooks S X where
  predicate := evaluate d g run
  speculate := speculate d g run

/-- Predict an alternative, note it with the place of the decision, and return its block if it has
one. -/
def predicted (d : Dialect S X ι) (g : Grammar ι) (run : Block ι → Action (Recognizer S X) Unit)
    (automaton : Automaton) (arms : List (Nat × Block ι)) :
    Action (Recognizer S X) (Option (Block ι)) := do
  let index ← index
  let alternative ← predict (hooks d g run) automaton
  note (.predicted automaton.decision alternative index)
  return arms.lookup alternative

/-- Predict an alternative and run its block; the answer is false if it has none, which ends a
loop. -/
def predictAndRun (d : Dialect S X ι) (g : Grammar ι)
    (run : Block ι → Action (Recognizer S X) Unit) (automaton : Automaton)
    (arms : List (Nat × Block ι)) : Action (Recognizer S X) Bool := do
  match ← predicted d g run automaton arms with
  | some block =>
    run block
    return true
  | none => return false

/-- Carry out a statement. Its blocks are run by `run`, and its loops for at most `fuel` rounds. -/
def execute (d : Dialect S X ι) (g : Grammar ι) (run : Block ι → Action (Recognizer S X) Unit)
    (fuel : Nat) : Statement ι → Action (Recognizer S X) Unit
  | .ifHolds test yes no => do
    if ← holds test then run yes else run no
  | .whileHolds test body => repeating (holds test) (run body) fuel
  | .untilHolds test body => repeating (not <$> holds test) (run body) fuel
  | .oneOrMore decision test body => do
    if ← holds test then
      run body
      repeating (holds test) (run body) fuel
    else earlyExit decision
  | .switch distance arms otherwise => do
    run (← chosen distance otherwise arms)
  | .predict automaton arms => discard (predictAndRun d g run automaton arms)
  | .loop automaton arms =>
    repeating (predictAndRun d g run automaton arms) (pure ()) fuel
  | .require predicate rule text => do
    if ← evaluate d g run predicate then return else failedPredicate rule text
  | .synpred fragment yes no => do
    let matches' ← synpred (d.apart (run fragment))
    note (.tried matches')
    if matches' then run yes else run no
  | .speculating raise ending body => Recognizer.speculating raise ending (run body)
  | .attempt body => do
    match ← (run body).attempt with
    | .ok () => note (.attempted none)
    | .error fault => note (.attempted (some fault))
  | .earlyExit decision => earlyExit decision
  | .mark => do
    let m ← mark
    .update fun r => { r with handles := r.handles.push m }
  | .rewind i => do
    let m ← handle i
    tryInput fun input => Cursor.rewind input m
  | .release i => do
    let m ← handle i
    tryInput fun input => Cursor.release input m
  | .consume => consume
  | .seek i => seek i
  | .setBacktracking depth => updateState fun s => { s with backtracking := depth }
  | .setLastError i => updateState fun s => { s with lastErrorIndex := i }
  | .pushFrame rule follow => do
    let index ← index
    updateState fun s => s.pushFrame rule follow index
  | .popFrame => updateState State.popFrame
  | .observe => do
    note (.observed (← snapshot))
  | .perform instruction => d.perform g run instruction

/-- Run a block, statement by statement, in blocks nested no deeper than `fuel`. A fault of a
statement ends the block. -/
def run (d : Dialect S X ι) (g : Grammar ι) : (fuel : Nat) → Block ι → Action (Recognizer S X) Unit
  | 0, _ => .unending
  | fuel + 1, block => block.forM (execute d g (run d g fuel) fuel)

end Grammar

end Lookahead
