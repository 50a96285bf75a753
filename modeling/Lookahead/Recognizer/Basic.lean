import Lookahead.Recognizer.Action
import Lookahead.Recognizer.State
import Lookahead.Stream.Cursor

/-!
# Recognizers

A recognizer has an input, a state, and what only its kind has: the trees that a parser builds, or
the token that a lexer is about to make.  It also keeps a trace of what its grammar did, and the
marks that the grammar took.

This module lifts the operations of the input to actions and raises failures.  A failure during
speculation is only signalled; otherwise it is recorded with the current unit, the rule path and
the words of the vocabulary.
-/

namespace Lookahead

/-- A look at a recognizer, which holds its whole state beside what its input shows. -/
structure Snapshot where
  index : Nat
  /-- The type of the current unit. -/
  type : TokenType
  openMarks : Nat
  state : State

/-- Something that a grammar did. Events are added to the trace of a recognizer and never taken
back, also if what they tell of is undone. -/
inductive Event where
  /-- A decision predicted an alternative. -/
  | predicted (decision alternative index : Nat)
  /-- A syntactic predicate had this answer. -/
  | tried (holds : Bool)
  /-- A semantic predicate had this answer at a place. -/
  | evaluated (predicate index : Nat) (holds : Bool)
  /-- An alternative was begun speculatively, at a place and a depth of speculation. -/
  | speculated (decision alternative index depth : Nat)
  /-- A parser matched a token, or put one in. -/
  | matchedToken (token : Token)
  /-- A node was matched, or a marker, which has no text. -/
  | matchedNode (text : Option String)
  /-- A token was put over the root of a rule, and this is the root now, if a tree is being
  built. -/
  | rooted (node : Option Nat)
  /-- A rule was entered, or could not be. If its match was recorded, the place is the one behind
  it. -/
  | entered (rule : String) (index : Nat) (fault : Option Fault)
  /-- A rule was left, with the fault that it hands on, or with a tree if it built one. -/
  | exited (rule : String) (index : Nat) (fault : Option Fault) (tree : Option String)
  /-- A block was run whatever comes of it, and this came of it. -/
  | attempted (fault : Option Fault)
  /-- The grammar looked at the recognizer. -/
  | observed (snapshot : Snapshot)
  /-- A lexer rule made its token ahead of time. -/
  | emitted (token : Token)
  /-- The token in the making was looked at. -/
  | shown (type : TokenType) (text : String)

/-- A recognizer over the input `S`, with the belongings `X` of its kind: the trees of a parser, the
token that a lexer is about to make, nothing for a walker. -/
structure Recognizer (S X : Type) where
  input : S
  state : State
  /-- What only its kind has. -/
  own : X
  /-- What the grammar did, oldest first. -/
  trace : Array Event
  /-- The marks that statements of the grammar took, oldest first; guards keep theirs to
  themselves. -/
  handles : Array Mark

namespace Recognizer

variable {S X : Type}

/-- A recognizer that has not run, over an input that may stand anywhere. -/
def ofInput (input : S) (own : X) (options : Options) (vocabulary : Vocabulary) :
    Recognizer S X :=
  { input, state := .initial options vocabulary, own, trace := #[], handles := #[] }

/-! ## Parts -/

/-- Compute a value from the state, which stays as it is. -/
def readState {α : Type} (f : State → α) : Action (Recognizer S X) α := .read fun r => f r.state

/-- Change the state and nothing else. -/
def updateState (f : State → State) : Action (Recognizer S X) Unit :=
  .update fun r => { r with state := f r.state }

/-- Compute a value from the state and change the state, and nothing else. -/
def stepState {α : Type} (f : State → α × State) : Action (Recognizer S X) α :=
  .step fun r => let (a, state) := f r.state; (a, { r with state })

/-- Compute a value from what only the kind has. -/
def readOwn {α : Type} (f : X → α) : Action (Recognizer S X) α := .read fun r => f r.own

/-- Change what only the kind has, and nothing else. -/
def updateOwn (f : X → X) : Action (Recognizer S X) Unit :=
  .update fun r => { r with own := f r.own }

/-- Compute a value from what only the kind has and change that, and nothing else. -/
def stepOwn {α : Type} (f : X → α × X) : Action (Recognizer S X) α :=
  .step fun r => let (a, own) := f r.own; (a, { r with own })

/-- Compute a value from the input and change the input, and nothing else. -/
def stepInput {α : Type} (f : S → α × S) : Action (Recognizer S X) α :=
  .step fun r => let (a, input) := f r.input; (a, { r with input })

/-- Change the input, unless that is a misuse, which leaves the recognizer as it is. -/
def tryInput (f : S → Except Misuse S) : Action (Recognizer S X) Unit := fun r =>
  match f r.input with
  | .ok input => some (.ok (), { r with input })
  | .error cause => some (.error (.misuse cause), r)

/-- Add an event to the trace. -/
def note (e : Event) : Action (Recognizer S X) Unit :=
  .update fun r => { r with trace := r.trace.push e }

@[simp] theorem readState_apply {α : Type} (f : State → α) (r : Recognizer S X) :
    readState f r = some (.ok (f r.state), r) := rfl

@[simp] theorem updateState_apply (f : State → State) (r : Recognizer S X) :
    updateState f r = some (.ok (), { r with state := f r.state }) := rfl

@[simp] theorem stepState_apply {α : Type} (f : State → α × State) (r : Recognizer S X) :
    stepState f r = some (.ok (f r.state).1, { r with state := (f r.state).2 }) := rfl

@[simp] theorem readOwn_apply {α : Type} (f : X → α) (r : Recognizer S X) :
    readOwn f r = some (.ok (f r.own), r) := rfl

@[simp] theorem updateOwn_apply (f : X → X) (r : Recognizer S X) :
    updateOwn f r = some (.ok (), { r with own := f r.own }) := rfl

@[simp] theorem stepOwn_apply {α : Type} (f : X → α × X) (r : Recognizer S X) :
    stepOwn f r = some (.ok (f r.own).1, { r with own := (f r.own).2 }) := rfl

@[simp] theorem stepInput_apply {α : Type} (f : S → α × S) (r : Recognizer S X) :
    stepInput f r = some (.ok (f r.input).1, { r with input := (f r.input).2 }) := rfl

@[simp] theorem note_apply (e : Event) (r : Recognizer S X) :
    note e r = some (.ok (), { r with trace := r.trace.push e }) := rfl

/-! ## Input -/

variable [Cursor S]

/-- The type of the unit `k` places from the cursor. Reading may extend the stream behind the
cursor. -/
def lookahead (k : Int) : Action (Recognizer S X) TokenType :=
  stepInput fun input => Cursor.lookahead input k

/-- The current unit as a token, which is what failures and rule starts remember. -/
def symbol : Action (Recognizer S X) Token := stepInput Cursor.symbol

/-- The place of the current unit in the input. -/
def index : Action (Recognizer S X) Nat := .read fun r => Cursor.index r.input

/-- Move past the current unit, unless the input is at its end. -/
def consume : Action (Recognizer S X) Unit :=
  .update fun r => { r with input := Cursor.consume r.input }

/-- Move the cursor to a place of the input. -/
def seek (i : Nat) : Action (Recognizer S X) Unit :=
  .update fun r => { r with input := Cursor.seek r.input i }

@[simp] theorem lookahead_apply (k : Int) (r : Recognizer S X) :
    lookahead k r = some (.ok (Cursor.lookahead r.input k).1,
      { r with input := (Cursor.lookahead r.input k).2 }) := rfl

@[simp] theorem index_apply (r : Recognizer S X) :
    index r = some (.ok (Cursor.index r.input), r) := rfl

@[simp] theorem consume_apply (r : Recognizer S X) :
    consume r = some (.ok (), { r with input := Cursor.consume r.input }) := rfl

@[simp] theorem seek_apply (i : Nat) (r : Recognizer S X) :
    seek i r = some (.ok (), { r with input := Cursor.seek r.input i }) := rfl

/-- Look at the recognizer: the place first, because reading the unit may move the cursor of a
fresh stream. -/
def snapshot : Action (Recognizer S X) Snapshot := do
  let index ← index
  let type ← lookahead 1
  .read fun r => { index, type, openMarks := Cursor.markDepth r.input, state := r.state }

/-! ## Failing -/

/-- Make the record of a failure at the current unit, in the words of the vocabulary and with the
rules in progress. It becomes the last failure, and is not reported by that. -/
def failureHere (kind : FailureKind) (expected : Option TokenSet) :
    Action (Recognizer S X) Failure := do
  let found ← symbol
  let index ← index
  stepState fun s =>
    let failure := Failure.make kind found index expected s.context s.vocabulary
    (failure, { s with lastFailure := some failure })

/-- Signal that a speculative parse does not match. The signal has no record, for nobody will see
it. -/
def giveUp {α : Type} : Action (Recognizer S X) α := do
  updateState fun s => { s with failed := true }
  .fault .backtracking

/-- Fail at the current unit. During speculation that is a bare signal; otherwise it is a failure
with all that is known about it. -/
def fail {α : Type} (kind : FailureKind) (expected : Option TokenSet) :
    Action (Recognizer S X) α := do
  if 0 < (← readState State.backtracking) then giveUp
  else .fault (.failed (← failureHere kind expected))

/-- Fail because a loop that has to run did not run even once. -/
def earlyExit {α : Type} (decision : Nat) : Action (Recognizer S X) α :=
  fail (.earlyExit decision) none

/-- Fail because a predicate that validates the input is false; the failure quotes its text. -/
def failedPredicate {α : Type} (rule predicate : String) : Action (Recognizer S X) α :=
  fail (.failedPredicate rule predicate) none

end Recognizer

end Lookahead
