import Lookahead.Automaton.Basic
import Lookahead.Recognizer.State
import Lookahead.Stream.Cursor

/-!
# Grammar programs

A grammar is given by programs: a block of statements for each rule, one for each alternative that
can be parsed speculatively, and the semantic predicates.  Statements decide by the lookahead or by
an automaton, speculate, and move or mark the input.  What a statement matches, builds or makes
depends on the kind of recognizer, so those instructions are a parameter `ι`.

`Lookahead.Grammar.Run` says what programs do.
-/

namespace Lookahead

/-- A condition on the lookahead: the unit `distance` places from the cursor has one of the types.
To test it moves nothing. -/
structure LookaheadTest where
  distance : Int
  types : List TokenType
  deriving DecidableEq, Repr

/-- A statement of a grammar program, with the instructions `ι` of a kind of recognizer. -/
inductive Statement (ι : Type) where
  /-- Run one of two blocks, by whether a test holds. -/
  | ifHolds (test : LookaheadTest) (yes no : List (Statement ι))
  /-- Run a block as long as a test holds. -/
  | whileHolds (test : LookaheadTest) (body : List (Statement ι))
  /-- Run a block as long as a test does not hold. -/
  | untilHolds (test : LookaheadTest) (body : List (Statement ι))
  /-- Run a block as long as a test holds, and fail if it does not hold even once. -/
  | oneOrMore (decision : Nat) (test : LookaheadTest) (body : List (Statement ι))
  /-- Run the first block whose types hold the lookahead, or else the last one. -/
  | switch (distance : Int) (arms : List (List TokenType × List (Statement ι)))
      (otherwise : List (Statement ι))
  /-- Predict an alternative and run its block. -/
  | predict (automaton : Automaton) (arms : List (Nat × List (Statement ι)))
  /-- Predict and run alternatives up to one that has no block. -/
  | loop (automaton : Automaton) (arms : List (Nat × List (Statement ι)))
  /-- Fail if a predicate is false. The failure names the rule and quotes the text. -/
  | require (predicate : Nat) (rule text : String)
  /-- Run one of two blocks, by whether a fragment would match. -/
  | synpred (fragment yes no : List (Statement ι))
  /-- Run a block under a mark, which is ended on every way out. With `raise` its failures are only
  signalled. -/
  | speculating (raise : Bool) (ending : Cursor.GuardEnd) (body : List (Statement ι))
  /-- Run a block, and go on whatever comes of it. -/
  | attempt (body : List (Statement ι))
  /-- Fail because the loop of a decision did not run. -/
  | earlyExit (decision : Nat)
  /-- Take a mark, which gets the next handle. -/
  | mark
  /-- Go back to a mark that a statement took, and pop it with all newer ones. -/
  | rewind (handle : Nat)
  /-- Pop a mark that a statement took, and stay. -/
  | release (handle : Nat)
  | consume
  | seek (index : Nat)
  /-- Set the depth of backtracking by hand. -/
  | setBacktracking (depth : Nat)
  /-- Set the place of the last resynchronization by hand. -/
  | setLastError (index : Option Nat)
  /-- Put a frame on the stack by hand. -/
  | pushFrame (rule : Rule) (follow : TokenSet)
  /-- Take a frame off the stack by hand. -/
  | popFrame
  /-- Add a look at the recognizer to the trace. -/
  | observe
  /-- Carry out an instruction that only this kind of recognizer has. -/
  | perform (instruction : ι)

instance {ι : Type} : Inhabited (Statement ι) := ⟨.mark⟩

/-- A block of statements, run in order. -/
abbrev Block (ι : Type) := List (Statement ι)

/-- A semantic predicate. It is evaluated at the cursor, which a decision puts back to its own start
for it. -/
inductive Predicate (ι : Type) where
  | constant (value : Bool)
  /-- Is the text of the current unit one of these? -/
  | text (texts : List String)
  | lookahead (test : LookaheadTest)
  /-- Move past a unit, and then always the same. -/
  | consume (value : Bool)
  /-- Is the depth of backtracking at least this? -/
  | depth (least : Nat)
  /-- Run a block apart from what is being built; its faults are those of the predicate, which holds
  otherwise. -/
  | run (block : Block ι)

/-- A grammar: programs for its rules, its semantic predicates, and its speculative parses. -/
structure Grammar (ι : Type) where
  /-- The rules by number: name and block. -/
  rules : List (String × Block ι)
  /-- The semantic predicates by number. -/
  predicates : List (Nat × Predicate ι)
  /-- The speculative parses by decision and alternative. -/
  simulations : List ((Nat × Nat) × Block ι)

namespace Grammar

variable {ι : Type}

/-- The rule with a number, as frames know it; a number that the grammar does not have has no
name. -/
def rule (g : Grammar ι) (i : Nat) : Rule := ⟨i, (g.rules[i]?.map Prod.fst).getD ""⟩

/-- The block of the rule with a number, which does nothing if the grammar does not have it. -/
def body (g : Grammar ι) (i : Nat) : Block ι := (g.rules[i]?.map Prod.snd).getD []

/-- The semantic predicate with a number, if the grammar has it. -/
def predicate? (g : Grammar ι) (id : Nat) : Option (Predicate ι) := g.predicates.lookup id

/-- The speculative parse of an alternative of a decision, if the grammar has one. -/
def simulation? (g : Grammar ι) (decision alternative : Nat) : Option (Block ι) :=
  g.simulations.lookup (decision, alternative)

end Grammar

end Lookahead
