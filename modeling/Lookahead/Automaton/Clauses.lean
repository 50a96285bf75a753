import Lookahead.Automaton.Basic

/-!
# Automata from clauses

An automaton is described by clauses, each of which adds edges or says something about a state.  A
state exists as soon as a clause mentions it, and a later clause wins over an earlier one.
`Automaton.ofClauses` turns the clauses into dense tables.
-/

namespace Lookahead

/-- A part of the description of an automaton. It mentions the states that it names. -/
inductive AutomatonClause where
  /-- An edge on a token type, or on the end of input. -/
  | edge (source : Nat) (type : TokenType) (target : Nat)
  /-- Edges on all types from `low` to `high`. -/
  | range (source : Nat) (low high : TokenType) (target : Nat)
  /-- Edges on all types of a set. -/
  | set (source : Nat) (types : TokenSet) (target : Nat)
  /-- The edge taken when the table has none. -/
  | endOfToken (source target : Nat)
  /-- The alternative that a state predicts. -/
  | accept (state alternative : Nat)
  /-- Other means by which a state is to decide. -/
  | special (state : Nat) (special : SpecialState)
  deriving DecidableEq, Repr

namespace Automaton

/-- A state under construction, whose edges are not in a table yet. -/
structure Draft where
  /-- The alternative that is predicted here. -/
  accept : Option Nat
  /-- The number of the special state that decides here. -/
  special : Option Nat
  /-- The edge taken when the table has none. -/
  endOfToken : Option Nat
  /-- The edge taken at the end of input. -/
  endOfInput : Option Nat
  /-- The edges on token types, the latest first. -/
  edges : List (TokenType × Nat)
  deriving DecidableEq, Repr, Inhabited

/-- The draft of a state that was only mentioned. -/
def Draft.blank : Draft := ⟨none, none, none, none, []⟩

/-- The table of some edges, the latest of which are first: the type of its first entry, and its
entries. -/
def Draft.table : List (TokenType × Nat) → TokenType × Array (Option Nat)
  | [] => (0, #[])
  | (type, target) :: rest =>
    let low := rest.foldl (fun m e => min m e.1) type
    let high := rest.foldl (fun m e => max m e.1) type
    let blank : Array (Option Nat) := Array.replicate ((high - low).toNat + 1) none
    (low, ((type, target) :: rest).foldr
      (fun e entries => entries.setIfInBounds (e.1 - low).toNat (some e.2)) blank)

/-- The state that a draft becomes, with its edges in a table that is as wide as their types
need. -/
def Draft.state (d : Draft) : AutomatonState :=
  let (low, edges) := Draft.table d.edges
  { accept := d.accept, special := d.special, endOfToken := d.endOfToken,
    endOfInput := d.endOfInput, low, edges }

/-- An automaton under construction: its states by number, and its special states. -/
structure Drafts where
  states : Array Draft
  specials : Array SpecialState
  deriving DecidableEq, Repr

namespace Drafts

/-- The start: only the first state exists. -/
def initial : Drafts := ⟨#[.blank], #[]⟩

/-- Make sure that a state exists, and with it all those in front of it. -/
def mention (d : Drafts) (s : Nat) : Drafts :=
  { d with states := d.states ++ Array.replicate (s + 1 - d.states.size) .blank }

/-- Change the draft of a state, which is mentioned by that. -/
def change (d : Drafts) (s : Nat) (f : Draft → Draft) : Drafts :=
  let d := d.mention s
  { d with states := d.states.modify s f }

/-- Add the edge on a type, in the place of an earlier one on that type. The end of input is not in
the table. -/
def addEdge (d : Drafts) (source : Nat) (type : TokenType) (target : Nat) : Drafts :=
  (d.mention target).change source fun s =>
    if type = .eof then { s with endOfInput := some target }
    else { s with edges := (type, target) :: s.edges }

/-- Add the edges on several types, one after another. -/
def addEdges (d : Drafts) (source : Nat) (types : List TokenType) (target : Nat) : Drafts :=
  types.foldl (fun d type => d.addEdge source type target) d

/-- The types from `low` to `high`. -/
def typesBetween (low high : TokenType) : List TokenType :=
  (List.range (high - low + 1).toNat).map fun (i : Nat) => low + (i : Int)

/-- Take a clause into account, behind those that were. -/
def apply (d : Drafts) : AutomatonClause → Drafts
  | .edge source type target => d.addEdge source type target
  | .range source low high target => d.addEdges source (typesBetween low high) target
  | .set source types target => d.addEdges source types.types target
  | .endOfToken source target =>
    (d.mention target).change source fun s => { s with endOfToken := some target }
  | .accept state alternative => d.change state fun s => { s with accept := some alternative }
  | .special state special =>
    let targets := special.edges.map PredicatedEdge.target ++ special.fallback.toList
    let d := targets.foldl mention d
    let index := d.specials.size
    { d with specials := d.specials.push special }.change state fun s =>
      { s with special := some index }

end Drafts

/-- The automaton that some clauses describe, taken in their order, if it is closed. -/
def ofClauses (decision : Nat) (description : String) (clauses : List AutomatonClause) :
    Except Misuse Automaton :=
  let drafts := clauses.foldl Drafts.apply .initial
  ofStates decision description (drafts.states.toList.map Draft.state) drafts.specials.toList

end Automaton

end Lookahead
