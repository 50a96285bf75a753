/-!
# Diagnostic codes

Every diagnostic carries a code.  Its number has four digits, of which the first two name a
category: 01 for single characters, 02 for tokens and their inline repairs, 03 for decisions, and
09 for recovery and its limits.  Codes are ordered by number.
-/

namespace Lookahead.Diagnostic

/-- What a diagnostic is about, of which a caller sees the number. -/
inductive Code where
  /-- No token rule starts with the character. -/
  | noViableCharacter
  | mismatchedCharacter
  /-- A character of a range or a set was expected. -/
  | characterOutsideSet
  | mismatchedToken
  | tokenOutsideSet
  | missingToken
  | unwantedToken
  /-- No alternative of a decision starts with the lookahead. -/
  | noViableAlternative
  | emptyLoop
  /-- A predicate that validates the input is false. -/
  | failedPredicate
  /-- Input was skipped until recognition could resume. -/
  | skippedInput
  /-- The error budget is spent. -/
  | tooManyErrors
  | misuse
  deriving DecidableEq, Repr

namespace Code

/-- All codes, in the order of their numbers. -/
def all : List Code :=
  [noViableCharacter, mismatchedCharacter, characterOutsideSet, mismatchedToken, tokenOutsideSet,
    missingToken, unwantedToken, noViableAlternative, emptyLoop, failedPredicate, skippedInput,
    tooManyErrors, misuse]

/-- The number of a code, by which it is told apart from all others. -/
def number : Code → Nat
  | noViableCharacter => 101
  | mismatchedCharacter => 102
  | characterOutsideSet => 103
  | mismatchedToken => 201
  | tokenOutsideSet => 202
  | missingToken => 203
  | unwantedToken => 204
  | noViableAlternative => 301
  | emptyLoop => 302
  | failedPredicate => 303
  | skippedInput => 901
  | tooManyErrors => 902
  | misuse => 999

/-- The code with a number, if there is one. -/
def ofNumber? (n : Nat) : Option Code := all.find? fun c => c.number == n

/-- The number in four digits, behind a letter. -/
def label (c : Code) : String :=
  let digits := toString c.number
  "E" ++ String.ofList (List.replicate (4 - digits.length) '0') ++ digits

/-- The words for a code's category. -/
def category (c : Code) : String :=
  match c.number / 100 with
  | 1 => "lexical error"
  | 2 => "matching error"
  | 3 => "decision error"
  | _ => "recognition error"

/-- The message of a diagnostic that is made without one. -/
def defaultMessage : Code → String
  | noViableCharacter => "no viable alternative at character"
  | mismatchedCharacter => "mismatched character"
  | characterOutsideSet => "character outside expected set"
  | mismatchedToken => "mismatched input"
  | tokenOutsideSet => "input not in expected set"
  | missingToken => "missing token"
  | unwantedToken => "extraneous input"
  | noViableAlternative => "no viable alternative"
  | emptyLoop => "required loop did not match anything"
  | failedPredicate => "failed predicate"
  | skippedInput => "input skipped during recovery"
  | tooManyErrors => "too many errors"
  | misuse => "runtime misuse"

/-- Was the input mended in place, by one token put in or dropped? -/
def isRepair : Code → Bool
  | missingToken | unwantedToken => true
  | _ => false

/-- Does recognition go on after such a diagnostic? It does not when the error budget is spent, nor
after a misuse. -/
def isRecoverable : Code → Bool
  | tooManyErrors | misuse => false
  | _ => true

/-- Does the first code have the lower number? -/
def precedes (a b : Code) : Bool := a.number < b.number

theorem number_injective {a b : Code} (h : a.number = b.number) : a = b := by
  cases a <;> cases b <;> first | rfl | exact absurd h (by decide)

theorem mem_all (c : Code) : c ∈ all := by cases c <;> decide

end Code

end Lookahead.Diagnostic
