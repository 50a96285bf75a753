/-!
# Options

How a recognizer mends its input, how many errors it bears, and how far its predictions may go.
The options are given with a recognizer and never change.
-/

namespace Lookahead

/-- The options of a recognizer: which repairs it may make, how many errors it bears, and how far
its predictions may look. -/
structure Options where
  /-- Is one extraneous token dropped when the one behind it is what was needed? -/
  deletion : Bool
  /-- Is one missing token put in when the current one can follow it? -/
  insertion : Bool
  /-- How many errors may be reported, if there is a limit; with one more the recognizer gives
  up. -/
  maxErrors : Option Nat
  /-- Are the outcomes of rules recorded during speculation, and given again at the same place? -/
  memoize : Bool
  /-- The depth of speculation from which on predictions do without speculative parses. -/
  maxSpeculationDepth : Nat
  /-- How many units one prediction may step over before it fails. -/
  maxLookahead : Nat
  /-- Are all alternatives of a simulation tried, or only those up to the first that parses? That
  one is predicted either way. -/
  reportAmbiguities : Bool
  deriving DecidableEq, Repr

namespace Options

/-- The options of a recognizer that is given none: both repairs, no error limit, no recording, and
generous bounds for predictions. -/
def standard : Options :=
  { deletion := true, insertion := true, maxErrors := none, memoize := false,
    maxSpeculationDepth := 64, maxLookahead := 4096, reportAmbiguities := false }

/-- The standard options, except that no token is ever dropped or put in. -/
def withoutRepairs : Options := { standard with deletion := false, insertion := false }

instance : Inhabited Options := ⟨standard⟩

end Options

end Lookahead
