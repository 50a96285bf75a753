import Lookahead.Diagnostic.Code
import Lookahead.RulePath
import Lookahead.Text.Position

/-!
# Diagnostics

What a caller gets to see of a recognition problem: its code and message, the input it is about,
the rules that were active, and, for an inline repair, the fix.  Notes on skipped input are
diagnostics too; their severity is `hint`, so they do not count as errors.
-/

namespace Lookahead

/-- How serious a diagnostic is, the most serious first. -/
inductive Severity where
  | error
  | warning
  /-- A note on the recovery from an error. -/
  | hint
  deriving DecidableEq, Repr, Inhabited

namespace Severity

/-- The place of a severity in the order. -/
def rank : Severity → Nat
  | error => 0
  | warning => 1
  | hint => 2

/-- Is the first severity more serious than the second? -/
def precedes (a b : Severity) : Bool := a.rank < b.rank

/-- The word for a severity in a rendered diagnostic. -/
def label : Severity → String
  | error => "error"
  | warning => "warning"
  | hint => "hint"

end Severity

/-- A second place that a diagnostic points at, and what there is to see. -/
structure Related where
  message : String
  span : Span
  deriving DecidableEq, Repr, Inhabited

/-- A reported problem, with all that a caller is told about it. -/
structure Diagnostic where
  code : Diagnostic.Code
  message : String
  /-- The bytes of the input that it is about. -/
  span : Span
  position : Position
  severity : Severity
  /-- The fix, for an input that was mended in its place. -/
  hint : Option String
  /-- Further places, in the order they were added. -/
  related : List Related
  /-- The rules that were in progress. -/
  context : RulePath
  deriving DecidableEq, Repr

namespace Diagnostic

/-- The diagnostic with a code's own message and nothing else: line 0 says that it has no place. -/
def ofCode (code : Code) : Diagnostic :=
  { code, message := code.defaultMessage, span := .emptyAt 0, position := ⟨0, 0⟩,
    severity := .error, hint := none, related := [], context := .top }

/-- The diagnostic with one more place to look at. -/
def withRelated (d : Diagnostic) (info : Related) : Diagnostic :=
  { d with related := d.related ++ [info] }

/-- Does the diagnostic count as an error? Warnings and hints do not. -/
def isError (d : Diagnostic) : Bool := d.severity == .error

/-- Position, severity, code and message; the innermost rule where there is one; the fix on a line
of its own. -/
def render (d : Diagnostic) : String :=
  let head := s!"{d.position.line}:{d.position.column} {d.severity.label}[{d.code.label}]: " ++
    d.message
  let rule := if d.context.isEmpty then "" else s!" ({d.context.description})"
  let fix := match d.hint with
    | some hint => s!"\n  hint: {hint}"
    | none => ""
  head ++ rule ++ fix

end Diagnostic

end Lookahead
