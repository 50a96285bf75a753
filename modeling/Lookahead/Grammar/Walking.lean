import Lookahead.Grammar.Run
import Lookahead.Walker

/-!
# Tree grammars

The instructions of grammars that walk trees.
-/

namespace Lookahead

/-- What a rule of a tree grammar can do besides the statements of all grammars. -/
inductive WalkerInstruction where
  /-- Match a unit of a type. -/
  | type (type : TokenType)
  /-- Match a unit of one of some types. -/
  | set (types : TokenSet)
  /-- Match a node with all that is below it. -/
  | any
  /-- Match the marker in front of a node's children. -/
  | down
  /-- Match the marker behind a node's children. -/
  | up
  /-- Call a rule. -/
  | call (rule : Nat)
  deriving DecidableEq, Repr

namespace Walker

open Recognizer

/-- Add a matched unit to the trace, by the text of its node. -/
def noteUnit (unit : Option (NodeId × NodeLabel)) : Action Walker Unit :=
  note (.matchedNode (unit.map fun (_, label) => label.text))

/-- Call a rule that has the given body: enter it, run the body, and leave it with what became of
the body. Entry and exit are noted. -/
def call (rule : Rule) (body : Action Walker Unit) : Action Walker Unit := do
  let entry ← (enterRule rule).attempt
  note (.entered rule.name (← index) (Fault.ofOutcome entry))
  match ← .ofExcept entry with
  | none => return
  | some start =>
    let outcome ← body.attempt
    let result ← (exitRule start outcome).attempt
    note (.exited rule.name (← index) (Fault.ofOutcome result) none)
    .ofExcept result

/-- Carry out an instruction, and note what is matched, markers apart. -/
def perform (g : Grammar WalkerInstruction)
    (run : Block WalkerInstruction → Action Walker Unit) :
    WalkerInstruction → Action Walker Unit
  | .type type => do
    noteUnit (← matchType type)
  | .set types => do
    noteUnit (← matchSet types)
  | .any => do
    noteUnit (← matchAny)
  | .down => discard (matchType .down)
  | .up => discard (matchType .up)
  | .call rule => call (g.rule rule) (run (g.body rule))

/-- The instructions of tree grammars, which build nothing that fragments could disturb. -/
def dialect : Dialect NodeStream Unit WalkerInstruction where
  perform := perform
  apart body := body

/-- Run a block of a tree grammar with the given fuel. -/
def run (g : Grammar WalkerInstruction) (fuel : Nat) (block : Block WalkerInstruction) :
    Action Walker Unit :=
  g.run dialect fuel block

end Walker

end Lookahead
