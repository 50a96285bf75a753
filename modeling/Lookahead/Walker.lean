import Lookahead.Parser.Basic
import Lookahead.Stream.Nodes

/-!
# Tree walkers

A walker recognizes a tree by a tree grammar.  The tree was built by a parser, so a mismatch means
that tree and grammar disagree, and there is nothing to mend: the failure is reported by the first
rule that it leaves, and the walk is over.
-/

namespace Lookahead

/-- A recognizer of trees, read as a stream of nodes. It has no belongings of its own. -/
abbrev Walker := Recognizer NodeStream Unit

namespace Walker

open Recognizer

/-- A walker that has not run. -/
def ofStream (input : NodeStream) (options : Options) (vocabulary : Vocabulary) : Walker :=
  .ofInput input () options vocabulary

/-! ## Rules -/

/-- Enter a rule. A rule that is recorded to match is not entered: the input goes to where it
stopped, and there is nothing to do. A rule that is recorded to fail gives up. -/
def enterRule (rule : Rule) : Action Walker (Option RuleStart) := do
  let index ← index
  if ← replay rule then return none
  else
    let token ← symbol
    updateState fun s => s.pushFrame rule (.ofWidth 0) index
    return some ⟨rule, index, token⟩

/-- Report a failure and end the walk: the walker gives up whatever the error budget says. -/
def failWalk (f : Failure) : Action Walker Unit := do
  updateState fun s => ((s.report f).2).escalate f
  .fault (.failed f)

/-- Leave a rule, whose body came out as `outcome`. A failure ends the walk, unless the walker is
speculating or has given up already; anything else is handed on. What comes out is recorded during
speculation, and the rule's frame is taken off. -/
def exitRule (start : RuleStart) (outcome : Except Fault Unit) : Action Walker Unit := do
  let reports ← readState fun s => s.backtracking = 0 && !s.escalated
  let result ← Action.attempt <|
    match outcome, reports with
    | .error (.failed f), true => failWalk f
    | outcome, _ => .ofExcept outcome
  record start result
  updateState State.popFrame
  .ofExcept result

/-! ## Matching -/

/-- Take the current unit, and return its node unless it is a marker. That counts as a match. -/
def takeUnit : Action Walker (Option (NodeId × NodeLabel)) := do
  let node ← .read fun w : Walker => w.input.nodeAt 1
  consume
  noteMatch
  return node

/-- Match a unit of the given type, or fail in front of it. -/
def matchType (type : TokenType) : Action Walker (Option (NodeId × NodeLabel)) := do
  if (← lookahead 1) = type then takeUnit
  else fail (.mismatchedToken type) (some (.ofTypes [type]))

/-- Match a unit of one of the given types, or fail in front of it. -/
def matchSet (set : TokenSet) : Action Walker (Option (NodeId × NodeLabel)) := do
  if set.has (← lookahead 1) then takeUnit
  else fail .mismatchedSet (some set)

/-- Move past the units up to the marker that closes `level` open levels, or to the end of input.
No more than `fuel` units are passed. -/
def skipLevels : (fuel level : Nat) → NodeStream → NodeStream
  | 0, _, s => s
  | _, 0, s => s
  | fuel + 1, level + 1, s =>
    let type := s.lookahead 1
    if type = .down then skipLevels fuel (level + 2) (Cursor.consume s)
    else if type = .up then skipLevels fuel level (Cursor.consume s)
    else if type = .eof then s
    else skipLevels fuel (level + 1) (Cursor.consume s)

/-- Match a node with all that is below it. Where there is no node, at a marker or at the end of
input, this fails and nothing is passed. -/
def matchAny : Action Walker (Option (NodeId × NodeLabel)) := do
  let type ← lookahead 1
  if type = .eof ∨ type = .down ∨ type = .up then
    fail .mismatchedNotSet (some (.ofTypes [.eof, .down, .up]))
  else
    let node ← takeUnit
    if (← lookahead 1) = .down then
      .update fun w : Walker =>
        { w with input := skipLevels w.input.units.size 1 (Cursor.consume w.input) }
    return node

end Walker

end Lookahead
