/-!
# Rule paths

The chain of rule invocations in progress when something happened, outermost first.  Failures and
diagnostics carry one, so that a message can say where in the grammar it arose.
-/

namespace Lookahead

/-- The names of the rules in progress when something happened, outermost first. -/
structure RulePath where
  rules : List String
  deriving DecidableEq, Repr, Inhabited

namespace RulePath

/-- The path where no rule is in progress. -/
def top : RulePath := ⟨[]⟩

/-- The rule in which it happened, if there is one. -/
def innermost (p : RulePath) : Option String := p.rules.getLast?

/-- The number of rules in progress. -/
def depth (p : RulePath) : Nat := p.rules.length

def isEmpty (p : RulePath) : Bool := p.rules.isEmpty

/-- The names, outermost first, with arrows between them. -/
def path (p : RulePath) : String := String.intercalate " > " p.rules

/-- The innermost rule, as part of a sentence in a rendered diagnostic. -/
def description (p : RulePath) : String :=
  match p.innermost with
  | some rule => s!"in rule {rule}"
  | none => "at top level"

/-- The path as it is shown by itself. -/
def render (p : RulePath) : String := if p.isEmpty then "<top level>" else p.path

end RulePath

end Lookahead
