import Lookahead.TokenSet

/-!
# Decision automata

Each decision of a grammar has an automaton that finds out, from the units ahead, which alternative
to take.  It runs from state 0 along the edges of its table until it reaches a state that accepts an
alternative.  A *special* state is one that the table cannot decide; it lists other means, which
`Lookahead.Automaton.Prediction` applies.

`Automaton.ofStates` accepts only closed tables: every state that an edge leads to exists, and so
does every special state that a state refers to.
-/

namespace Lookahead

/-- A state of an automaton, with its edges. What it accepts and whether it is special is asked
before the edges are. -/
structure AutomatonState where
  /-- The alternative that is predicted here, if any is. -/
  accept : Option Nat
  /-- The number of the special state that decides here, if the table does not. -/
  special : Option Nat
  /-- The edge that is taken when the table has none. -/
  endOfToken : Option Nat
  /-- The edge that is taken at the end of input, if there is no other one. -/
  endOfInput : Option Nat
  /-- The token type of the first table entry. -/
  low : TokenType
  /-- The table: the states reached on `low`, `low + 1`, and so on. -/
  edges : Array (Option Nat)
  deriving DecidableEq, Repr, Inhabited

namespace AutomatonState

/-- The table's edge on a token type; types outside the range of the table have none. -/
def edge (s : AutomatonState) (t : TokenType) : Option Nat :=
  if t < s.low then none else s.edges.getD (t - s.low).toNat none

/-- The edge on a token type: the table wins over the edge for the end of the token, and that over
the edge for the end of input. -/
def target (s : AutomatonState) (t : TokenType) : Option Nat :=
  (s.edge t).orElse fun _ =>
    s.endOfToken.orElse fun _ => if t = .eof then s.endOfInput else none

/-- The token types with an edge of their own, the end of input included. -/
def viableTypes (s : AutomatonState) : TokenSet :=
  let table := s.edges.toList.zipIdx.filterMap fun (target, i) =>
    target.map fun _ => s.low + (i : Int)
  let end' := if s.endOfInput.isSome then [TokenType.eof] else []
  .ofTypes (table ++ end')

end AutomatonState

/-- An edge of a special state. It is open if the lookahead is of its type and its predicate
holds. -/
structure PredicatedEdge where
  /-- The lookahead that the edge is for; any, if there is none. -/
  type : Option TokenType
  /-- The predicate that has to hold; the edge asks for nothing more if there is none. -/
  predicate : Option Nat
  /-- The state that the edge leads to. -/
  target : Nat
  deriving DecidableEq, Repr

/-- What decides where the table does not: the first edge that applies, then the lowest of the
alternatives in `simulate` that parses, then `fallback`.  No unit is consumed. -/
structure SpecialState where
  /-- The edges, in the order in which they are tried. -/
  edges : List PredicatedEdge
  /-- The alternatives that are tried by parsing. -/
  simulate : List Nat
  /-- The state to go to if neither an edge is open nor an alternative parses. -/
  fallback : Option Nat
  deriving DecidableEq, Repr, Inhabited

namespace SpecialState

/-- The special state with nothing to decide by. -/
def empty : SpecialState := ⟨[], [], none⟩

/-- Add an edge that a predicate has to open, behind those that are tried before. -/
def gated (s : SpecialState) (type : Option TokenType) (predicate target : Nat) : SpecialState :=
  { s with edges := s.edges ++ [⟨type, some predicate, target⟩] }

/-- Add an edge that opens on its type alone, behind those that are tried before. -/
def on (s : SpecialState) (type : Option TokenType) (target : Nat) : SpecialState :=
  { s with edges := s.edges ++ [⟨type, none, target⟩] }

/-- Add alternatives to try by parsing, if no edge is open. -/
def simulating (s : SpecialState) (alternatives : List Nat) : SpecialState :=
  { s with simulate := s.simulate ++ alternatives }

/-- Set the state to go to if everything else fails. -/
def fallingBack (s : SpecialState) (target : Nat) : SpecialState :=
  { s with fallback := some target }

end SpecialState

/-- What a step of the table leads to. A state that is special counts as such even if it accepts. -/
inductive AutomatonStep where
  /-- A state from which the next unit is read. -/
  | next (state : Nat)
  /-- A state that predicts an alternative. -/
  | accept (alternative : Nat)
  /-- A state that the table does not decide. -/
  | special (state : Nat)
  /-- No edge. -/
  | none
  deriving DecidableEq, Repr

/-- The automaton of a decision. That its edges stay inside it is checked where it is made. -/
structure Automaton where
  /-- The number of the decision. -/
  decision : Nat
  /-- The decision in the words of the grammar. -/
  description : String
  /-- The states; the run starts from the first one. -/
  states : Array AutomatonState
  /-- The special states, by the numbers under which states refer to them. -/
  specials : Array SpecialState
  /-- The alternatives that can be predicted, ascending. -/
  alternatives : List Nat
  deriving DecidableEq, Repr

namespace Automaton

/-! ## Closed tables -/

/-- Refuse a target that is not among `count` states. -/
def checkTarget (decision count : Nat) (role : EdgeRole) (target : Nat) : Except Misuse Unit :=
  if target < count then .ok () else .error (.missingTarget decision role target)

/-- Where the edges of a state lead. -/
def stateTargets (s : AutomatonState) : List (EdgeRole × Nat) :=
  (s.edges.toList.filterMap id).map (.table, ·) ++ s.endOfToken.toList.map (.endOfToken, ·) ++
    s.endOfInput.toList.map (.endOfInput, ·)

/-- Where the edges of a special state lead. -/
def specialTargets (s : SpecialState) : List (EdgeRole × Nat) :=
  s.edges.map (fun e => (.predicated, e.target)) ++ s.fallback.toList.map (.fallback, ·)

/-- Refuse a state with an edge to nowhere, or with an unknown special state. -/
def checkState (decision count specials : Nat) (s : AutomatonState) : Except Misuse Unit := do
  (stateTargets s).forM fun (role, target) => checkTarget decision count role target
  s.special.toList.forM fun index =>
    if index < specials then .ok () else .error (.unknownSpecial decision)

/-- Refuse a special state with an edge to nowhere. -/
def checkSpecial (decision count : Nat) (s : SpecialState) : Except Misuse Unit :=
  (specialTargets s).forM fun (role, target) => checkTarget decision count role target

/-- Some numbers in ascending order, each of them once. -/
def ascending (ns : List Nat) : List Nat := (ns.mergeSort (· ≤ ·)).eraseReps

/-- The automaton with the given states. It is refused unless there is a state to start from and the
states are closed: every edge leads to one of them, and every special state exists. -/
def ofStates (decision : Nat) (description : String) (states : List AutomatonState)
    (specials : List SpecialState) : Except Misuse Automaton :=
  if states.isEmpty then .error (.noStates decision)
  else do
    states.forM (checkState decision states.length specials.length)
    specials.forM (checkSpecial decision states.length)
    .ok {
      decision
      description
      states := states.toArray
      specials := specials.toArray
      alternatives :=
        ascending (states.filterMap AutomatonState.accept ++
          specials.flatMap SpecialState.simulate) }

/-! ## Running the table -/

/-- The number of states. -/
def stateCount (a : Automaton) : Nat := a.states.size

/-- The state with a number; to ask for another number is a misuse. -/
def state (a : Automaton) (s : Nat) : Except Misuse AutomatonState :=
  match a.states[s]? with
  | some state => .ok state
  | none => .error (.noState a.decision s)

/-- The special state with a number. -/
def special (a : Automaton) (index : Nat) : Option SpecialState := a.specials[index]?

/-- The alternative that a state predicts, if it exists and predicts one. -/
def acceptedAt (a : Automaton) (s : Nat) : Option Nat :=
  a.states[s]?.bind AutomatonState.accept

/-- What it means to arrive at a state: special states come first, then those that accept. -/
def arrive (a : Automaton) (target : Nat) : AutomatonStep :=
  match a.states[target]? with
  | some state =>
    if state.special.isSome then .special target
    else match state.accept with
      | some alternative => .accept alternative
      | none => .next target
  | none => .none

/-- The step from a state on a token type, without a look at what the state itself accepts. -/
def step (a : Automaton) (s : Nat) (t : TokenType) : AutomatonStep :=
  match a.states[s]? with
  | some state =>
    match state.target t with
    | some target => a.arrive target
    | none => .none
  | none => .none

end Automaton

end Lookahead
