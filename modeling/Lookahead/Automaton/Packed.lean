import Lookahead.Automaton.Basic

/-!
# Packed tables

Generated recognizers carry their automata as arrays of 16-bit numbers.  Every array is a list of
pairs, a count and a value, and stands for so many copies of the value.  The value `absent` stands
for no state, no special state, or no alternative.
-/

namespace Lookahead

/-- The tables of an automaton in packed form, one column for each part of its states. -/
structure PackedTables where
  /-- The layout of the tables. -/
  version : Nat
  decision : Nat
  /-- The decision in the words of the grammar. -/
  description : String
  /-- The edges taken when the table has none, by state. -/
  endOfToken : List Nat
  /-- The edges taken at the end of input, by state. -/
  endOfInput : List Nat
  /-- The first type of the table, by state. -/
  low : List Nat
  /-- The last type of the table, by state. -/
  high : List Nat
  /-- The alternatives predicted, by state; 0 stands for none as well. -/
  accept : List Nat
  /-- The numbers of the special states, by state. -/
  special : List Nat
  /-- The tables of the states, one row for each. -/
  rows : List (List Nat)
  deriving DecidableEq, Repr

namespace PackedTables

/-- The layout that is understood. -/
def currentVersion : Nat := 3

/-- The value that stands for nothing. -/
def absent : Nat := 65535

/-- The values that a packed array stands for; an array that ends in the middle of a pair is
refused. -/
def expand : List Nat → Except Misuse (List Nat)
  | [] => .ok []
  | [_] => .error .oddPackedArray
  | count :: value :: rest => (expand rest).map (List.replicate count value ++ ·)

/-- A value, unless it stands for nothing. -/
def present (value : Nat) : Option Nat := if value = absent then none else some value

/-- The values of a column. It is refused unless it has one for each of `states` states. -/
def column (p : PackedTables) (name : String) (packed : List Nat) (states : Nat) :
    Except Misuse (List Nat) := do
  let values ← expand packed
  if values.length = states then .ok values
  else .error (.packedColumn p.decision name values.length states)

/-- The values of row number `row`, which covers the types from `low` to `high`; a range whose end
lies before its start counts as one type wide. A row with more entries than that is refused, one
with fewer is not. -/
def rowEntries (p : PackedTables) (row : Nat) (packed : List Nat) (low high : Nat) :
    Except Misuse (List Nat) := do
  let values ← expand packed
  if high - low + 1 < values.length then .error (.packedRowWidth p.decision row low high)
  else .ok values

end PackedTables

/-- The states of packed tables, whose column of alternatives is `accept`. That column says how many
there are. -/
def PackedTables.states (p : PackedTables) (accept : List Nat) :
    Except Misuse (List AutomatonState) := do
  let count := accept.length
  let endOfToken ← p.column "eot" p.endOfToken count
  let endOfInput ← p.column "eof" p.endOfInput count
  let low ← p.column "min" p.low count
  let high ← p.column "max" p.high count
  let special ← p.column "special" p.special count
  if p.rows.length ≠ count then .error (.packedRows p.decision p.rows.length count)
  else (List.range count).mapM fun s => do
    let entries ← p.rowEntries s (p.rows.getD s []) (low.getD s 0) (high.getD s 0)
    .ok {
      accept := (present (accept.getD s 0)).filter (1 ≤ ·)
      special := present (special.getD s 0)
      endOfToken := present (endOfToken.getD s 0)
      endOfInput := present (endOfInput.getD s 0)
      low := (low.getD s 0 : Nat)
      edges := (entries.map present).toArray }

/-- The automaton that packed tables stand for, if they are in the layout that is understood and
describe a closed one. -/
def Automaton.ofPacked (p : PackedTables) (specials : List SpecialState) :
    Except Misuse Automaton :=
  if p.version ≠ PackedTables.currentVersion then
    .error (.packedVersion p.decision p.version PackedTables.currentVersion)
  else do
    let accept ← PackedTables.expand p.accept
    let states ← p.states accept
    Automaton.ofStates p.decision p.description states specials

end Lookahead
