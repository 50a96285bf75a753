import Lookahead.TokenType

/-!
# Misuse

The ways in which a caller can break the contract of an operation: a mark that is no longer open,
a table that describes no automaton, edits that contradict each other.  A misuse is never
recovered from.  Each cause is a constructor that holds the facts of the case, and `Misuse.message`
is the only place where they are put into words.
-/

namespace Lookahead

/-- The role of an automaton edge, named when the edge leads nowhere. -/
inductive EdgeRole where
  | table
  /-- The edge taken when no table edge applies. -/
  | endOfToken
  | endOfInput
  | predicated
  | fallback
  deriving DecidableEq, Repr

/-- The words for an edge in the message about its missing target. -/
def EdgeRole.describe : EdgeRole → String
  | table => "edge"
  | endOfToken => "eot edge"
  | endOfInput => "eof edge"
  | predicated => "predicated edge"
  | fallback => "fallback"

/-- What a caller did wrong. Every cause holds the facts of the case that its message tells. -/
inductive Misuse where
  /-- A position of a token set that is below zero. -/
  | negativeBit (bit : Int)
  /-- A mark that was popped, or was never taken on this stream. -/
  | staleMark (depth : Nat)
  /-- A release of a mark that has newer marks on top of it. -/
  | releaseOutOfOrder (depth openMarks : Nat)
  /-- A range of tokens to replace whose end lies before its start. -/
  | reversedRange (first last : Nat)
  /-- Two replacements that overlap, neither of which contains the earlier one. -/
  | overlappingReplace (first last earlierFirst earlierLast : Nat)
  /-- An insertion into the middle of a range that is already replaced. -/
  | insertInsideReplace (index first last : Nat)
  /-- Two edits that remain at one token after all foldings. -/
  | conflictingEdits (index : Nat)
  /-- A list of several nodes offered as the root of a tree. -/
  | listAsRoot
  /-- A state number the automaton of the decision does not have. -/
  | noState (decision state : Nat)
  /-- An automaton without a state to start from. -/
  | noStates (decision : Nat)
  /-- An edge to a state that does not exist. -/
  | missingTarget (decision : Nat) (role : EdgeRole) (target : Nat)
  /-- A state that refers to a special state that does not exist. -/
  | unknownSpecial (decision : Nat)
  /-- A packed array that ends in the middle of a pair. -/
  | oddPackedArray
  /-- A packed column that does not have one entry for each state. -/
  | packedColumn (decision : Nat) (column : String) (entries states : Nat)
  /-- Packed tables in a layout other than the one that is understood. -/
  | packedVersion (decision version expected : Nat)
  /-- Packed tables that do not have one row for each state. -/
  | packedRows (decision rows states : Nat)
  /-- A packed row with more entries than its range of types. -/
  | packedRowWidth (decision row low high : Nat)
  /-- A semantic predicate the grammar does not define. -/
  | noPredicate (predicate : Nat)
  /-- An alternative the grammar gives no speculative parse for. -/
  | noSimulation (decision alternative : Nat)
  deriving DecidableEq, Repr

/-- The message for a misuse, which is the same wherever it comes up. -/
def Misuse.message : Misuse → String
  | negativeBit bit => s!"negative bit index {bit}"
  | staleMark depth => s!"stale mark at depth {depth}"
  | releaseOutOfOrder depth openMarks =>
    s!"release of mark at depth {depth} while {openMarks} marks are open"
  | reversedRange first last => s!"replace range {first}..{last} is reversed"
  | overlappingReplace first last earlierFirst earlierLast =>
    s!"replace {first}..{last} overlaps previous replace {earlierFirst}..{earlierLast}"
  | insertInsideReplace index first last =>
    s!"insert at {index} falls inside previous replace {first}..{last}"
  | conflictingEdits index => s!"more than one rewrite operation at index {index}"
  | listAsRoot => "a list of several nodes cannot become a root"
  | noState decision state => s!"decision {decision}: no state {state}"
  | noStates decision => s!"decision {decision} has no states"
  | missingTarget decision role target =>
    s!"decision {decision}: {role.describe} targets missing state {target}"
  | unknownSpecial decision => s!"decision {decision}: unknown special state"
  | oddPackedArray => "packed array has an odd number of entries"
  | packedColumn decision column entries states =>
    s!"decision {decision}: packed " ++ "`" ++ column ++ "`" ++
      s!" has {entries} entries for {states} states"
  | packedVersion decision version expected =>
    s!"decision {decision}: packed format version {version} (expected {expected})"
  | packedRows decision rows states =>
    s!"decision {decision}: {rows} transition rows for {states} states"
  | packedRowWidth decision row low high =>
    s!"decision {decision}: transition row {row} is wider than {low}..{high}"
  | noPredicate predicate => s!"no semantic predicate {predicate} in this recognizer"
  | noSimulation decision alternative =>
    s!"decision {decision} cannot simulate alternative {alternative}"

end Lookahead
