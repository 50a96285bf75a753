import Lookahead.Automaton.Basic
import Lookahead.Recognizer.Speculation

/-!
# Prediction

`predict` runs the automaton of a decision over the units ahead and puts the cursor back.  The walk
alternates between two phases.  `settle` follows special states, which consume nothing, until it is
at an ordinary one; it takes no more hops than there are states.  `walk` then accepts or steps over
one unit, at most `maxLookahead` times.  Both bounds are the structure of the recursion, so every
prediction ends as far as the grammar's hooks do.

A special state tries its edges in order, evaluating predicates as if the decision had not consumed
anything; then it parses its listed alternatives speculatively, in ascending order; then it falls
back.
-/

namespace Lookahead.Recognizer

variable {S X : Type} [Cursor S]

/-- Fail because a decision found no alternative at a state. What was expected are the types with an
edge of their own out of it. -/
def noViable {α : Type} (a : Automaton) (s : Nat) : Action (Recognizer S X) α :=
  fail (.noViableAlternative a.decision s a.alternatives a.description)
    (a.states[s]?.map AutomatonState.viableTypes)

/-- Do something at another place, and come back whatever becomes of it. -/
def visiting {α : Type} (i : Nat) (body : Action (Recognizer S X) α) :
    Action (Recognizer S X) α := do
  let here ← index
  seek i
  let outcome ← body.attempt
  seek here
  .ofExcept outcome

/-! ## Special states -/

/-- Is an edge open, as far as its predicate goes? The predicate is evaluated where the decision
began. -/
def isOpen (hooks : Hooks S X) (start : Nat) (e : PredicatedEdge) : Action (Recognizer S X) Bool :=
  match e.predicate with
  | some predicate => visiting start (hooks.predicate predicate)
  | none => return true

/-- The target of the first open edge for a type. The predicates of edges for other types, and of
those behind the first open one, are not evaluated. -/
def firstOpen (hooks : Hooks S X) (start : Nat) (type : TokenType) :
    List PredicatedEdge → Action (Recognizer S X) (Option Nat)
  | [] => return none
  | e :: rest => do
    if (e.type.map (· == type)).getD true then
      if ← isOpen hooks start e then return some e.target
      else firstOpen hooks start type rest
    else firstOpen hooks start type rest

/-- The first of some alternatives that parses.  The others are tried as well if ambiguities are
to be reported, and change nothing. -/
def firstParsing (hooks : Hooks S X) (decision start : Nat) (tryAll : Bool) :
    List Nat → Action (Recognizer S X) (Option Nat)
  | [] => return none
  | alternative :: rest => do
    if ← visiting start (synpred (hooks.speculate decision alternative)) then
      if tryAll then discard (firstParsing hooks decision start tryAll rest)
      return some alternative
    else firstParsing hooks decision start tryAll rest

/-- The lowest of the alternatives that parses from where the decision began. There is none if
speculation is as deep as it may be. -/
def simulate (hooks : Hooks S X) (a : Automaton) (start : Nat) (alternatives : List Nat) :
    Action (Recognizer S X) (Option Nat) := do
  let options ← readState State.options
  let candidates := Automaton.ascending alternatives
  if options.maxSpeculationDepth ≤ (← readState State.backtracking) then return none
  else firstParsing hooks a.decision start options.reportAmbiguities candidates

/-- Where a special state leads: to another state, to an alternative at once, or nowhere. -/
inductive Resolution where
  | state (s : Nat)
  | alternative (n : Nat)
  | stuck
  deriving DecidableEq, Repr

/-- Apply the means of a special state, in their order: its edges, its alternatives, its
fallback. -/
def resolve (hooks : Hooks S X) (a : Automaton) (start : Nat) (special : SpecialState) :
    Action (Recognizer S X) Resolution := do
  let type ← lookahead 1
  match ← firstOpen hooks start type special.edges with
  | some target => return .state target
  | none =>
    let parsed ←
      if special.simulate.isEmpty then pure none
      else simulate hooks a start special.simulate
    match parsed with
    | some alternative => return .alternative alternative
    | none => return (special.fallback.map .state).getD .stuck

/-! ## The walk -/

/-- Where the special states at one place of the input lead in the end: to an ordinary state, or to
an alternative at once. -/
inductive Settled where
  | state (s : Nat) (state : AutomatonState)
  | alternative (n : Nat)
  deriving DecidableEq, Repr

/-- Be at state `s`: an ordinary state is where the special states lead, a special one is left to
`follow`. -/
def arrivingAt (a : Automaton) (s : Nat) (follow : SpecialState → Action (Recognizer S X) Settled) :
    Action (Recognizer S X) Settled := do
  let state ← .ofExcept ((a.state s).mapError .misuse)
  match state.special with
  | none => return .state s state
  | some index =>
    match a.special index with
    | some special => follow special
    | none => noViable a s

/-- Follow special states from state `s`, in at most `hops` hops. The decision fails where they lead
nowhere, or lead a state to itself. -/
def settle (hooks : Hooks S X) (a : Automaton) (start : Nat) :
    (hops s : Nat) → Action (Recognizer S X) Settled
  | 0, s => arrivingAt a s fun _ => noViable a s
  | hops + 1, s => arrivingAt a s fun special => do
    match ← resolve hooks a start special with
    | .alternative n => return .alternative n
    | .state next => if next = s then noViable a s else settle hooks a start hops next
    | .stuck => noViable a s

/-- Find the alternative at state `s`, if it is found without a further unit; go on by `onward` from
the ordinary state that the special states lead to. -/
def deciding (hooks : Hooks S X) (a : Automaton) (start s : Nat)
    (onward : Nat → Action (Recognizer S X) Nat) : Action (Recognizer S X) Nat := do
  match ← settle hooks a start a.stateCount s with
  | .alternative n => return n
  | .state s state =>
    match state.accept with
    | some n => return n
    | none => onward s

/-- Find the alternative from state `s`, over at most `budget` units. The units are consumed, and
special states are resolved in front of each. -/
def walk (hooks : Hooks S X) (a : Automaton) (start : Nat) :
    (budget s : Nat) → Action (Recognizer S X) Nat
  | 0, s => deciding hooks a start s (noViable a)
  | budget + 1, s => deciding hooks a start s fun s => do
    match a.step s (← lookahead 1) with
    | .accept n => return n
    | .next target | .special target =>
      consume
      walk hooks a start budget target
    | .none => noViable a s

/-- The alternative of a decision that the input starts with. It is looked for under a guard, which
takes the cursor back on every way out. -/
def predict (hooks : Hooks S X) (a : Automaton) : Action (Recognizer S X) Nat :=
  speculating false .restore do
    let start ← index
    let options ← readState State.options
    walk hooks a start options.maxLookahead 0

end Lookahead.Recognizer
