import Lookahead.Diagnostic.Basic
import Lookahead.Token
import Lookahead.Vocabulary

/-!
# Failures

A failure is the full record of input that a recognizer could not match: what it needed, what it
found, and which rules were active.  The wording is fixed when the failure is made, in terms of the
recognizer's vocabulary; a lexical recognizer speaks of characters where others speak of input.

A `Fault` is what interrupts a recognizer: a failure, the bare signal that a speculative parse does
not match, or a misuse.
-/

namespace Lookahead

/-- What a recognizer needed where it failed. -/
inductive FailureKind where
  /-- This one type. -/
  | mismatchedToken (expected : TokenType)
  /-- A type in the failure's expected set. -/
  | mismatchedSet
  /-- A type outside the failure's expected set. -/
  | mismatchedNotSet
  /-- A character from `low` to `high`. -/
  | mismatchedRange (low high : TokenType)
  /-- The type `expected`, for which a token was put in. -/
  | missingToken (expected : TokenType)
  /-- A type in the failure's expected set, and the unit in front of it was dropped. -/
  | unwantedToken
  /-- An alternative of a decision, whose automaton stopped in `state`. -/
  | noViableAlternative (decision state : Nat) (alternatives : List Nat) (description : String)
  /-- One more round of a loop that has to run at least once. -/
  | earlyExit (decision : Nat)
  /-- Input for which the predicate of a rule holds, which is quoted by its text. -/
  | failedPredicate (rule predicate : String)
  deriving DecidableEq, Repr

/-- The record of a failure: what was needed, what was found, where, and in which rules. -/
structure Failure where
  kind : FailureKind
  /-- The place of the offending unit in its stream. -/
  index : Nat
  /-- The offending unit. -/
  found : Token
  /-- What would have matched, where that is known. -/
  expected : Option TokenSet
  /-- The rules that were in progress. -/
  context : RulePath
  /-- What was needed and what was found, in words. -/
  message : String
  /-- Was it a recognizer of characters that failed? -/
  lexical : Bool
  deriving DecidableEq, Repr

namespace Failure

/-- What was found, in words: the end of input by its sign, a character as the vocabulary shows it,
and a token by its text in quotes. -/
def describeFound (found : Token) (vocabulary : Vocabulary) : String :=
  if found.type = .eof then "<EOF>"
  else if vocabulary.isLexical then vocabulary.display found.type
  else Text.quoteText found.text

/-- The message of a failure, in words of the vocabulary. A lexical recognizer speaks of characters
where others speak of input. -/
def describe (kind : FailureKind) (found : Token) (expected : Option TokenSet)
    (vocabulary : Vocabulary) : String :=
  let input := describeFound found vocabulary
  let unit := if vocabulary.isLexical then "character" else "input"
  let set := match expected with
    | some s => vocabulary.displaySet s
    | none => "\x7b\x7d"
  match kind with
  | .mismatchedToken t => s!"mismatched {unit} {input} expecting {vocabulary.display t}"
  | .mismatchedSet => s!"mismatched input {input} expecting set {set}"
  | .mismatchedNotSet => s!"mismatched input {input} expecting anything but {set}"
  | .mismatchedRange low high =>
    s!"mismatched character {input} expecting set {vocabulary.display low}.." ++
      vocabulary.display high
  | .missingToken t => s!"missing {vocabulary.display t} at {input}"
  | .unwantedToken =>
    let several := match expected with
      | some s => decide (1 < s.count)
      | none => false
    if several then s!"extraneous input {input} expecting set {set}"
    else s!"extraneous input {input} expecting {set}"
  | .noViableAlternative .. => s!"no viable alternative at {unit} {input}"
  | .earlyExit _ => s!"required (...)+ loop did not match anything at input {input}"
  | .failedPredicate rule predicate =>
    s!"rule {rule} failed predicate: " ++ "\x7b" ++ predicate ++ "\x7d?"

/-- The failure of the given kind, with the message that the given vocabulary has for it. -/
def make (kind : FailureKind) (found : Token) (index : Nat) (expected : Option TokenSet)
    (context : RulePath) (vocabulary : Vocabulary) : Failure :=
  { kind, index, found, expected, context, message := describe kind found expected vocabulary,
    lexical := vocabulary.isLexical }

/-- The diagnostic code of a failure. Some kinds have one for characters and another one for
tokens. -/
def code (f : Failure) : Diagnostic.Code :=
  match f.kind with
  | .mismatchedToken _ => if f.lexical then .mismatchedCharacter else .mismatchedToken
  | .mismatchedSet | .mismatchedNotSet =>
    if f.lexical then .characterOutsideSet else .tokenOutsideSet
  | .mismatchedRange .. => .characterOutsideSet
  | .missingToken _ => .missingToken
  | .unwantedToken => .unwantedToken
  | .noViableAlternative .. => if f.lexical then .noViableCharacter else .noViableAlternative
  | .earlyExit _ => .emptyLoop
  | .failedPredicate .. => .failedPredicate

/-- Position and message, and the rule path where a rule was active. -/
def render (f : Failure) : String :=
  let path := if f.context.isEmpty then "" else s!" (rule path: {f.context.path})"
  s!"{f.found.position.line}:{f.found.position.column} {f.message}" ++ path

/-- The diagnostic that reports a failure, which points at the unit that was found. -/
def diagnostic (f : Failure) : Diagnostic :=
  { Diagnostic.ofCode f.code with
    message := f.message, span := f.found.span, position := f.found.position,
    context := f.context }

end Failure

/-- What interrupts a recognizer: a failure, a signal, or a misuse. Only a failure has a record of
the input. -/
inductive Fault where
  /-- The input does not match, and this is the record of it. -/
  | failed (failure : Failure)
  /-- The input does not match, seen by a speculative parse: it is only told to give up. -/
  | backtracking
  /-- A contract was broken. -/
  | misuse (cause : Misuse)
  deriving DecidableEq, Repr

namespace Fault

/-- A fault in words, as a caller sees it. -/
def message : Fault → String
  | failed failure => failure.render
  | backtracking => "speculative alternative is not viable"
  | misuse cause => s!"invalid argument: {cause.message}"

/-- The fault of an outcome that has one, without the value of one that has none. -/
def ofOutcome {α : Type} : Except Fault α → Option Fault
  | .ok _ => none
  | .error fault => some fault

/-- Is it the signal of a speculative parse? -/
def isBacktracking : Fault → Bool
  | backtracking => true
  | _ => false

/-- Was a contract broken? -/
def isMisuse : Fault → Bool
  | misuse _ => true
  | _ => false

end Fault

end Lookahead
