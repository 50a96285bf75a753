import Lookahead.Recognizer.Basic

/-!
# Speculation

A speculation runs some actions under a mark, and goes back to it or stays on every way out.  With
`raise` it also raises the depth of backtracking while it lasts, so that failures are only
signalled.

A *syntactic predicate* asks whether some actions would match.  It always goes back, and it turns
every failure into `false`; a misuse is passed on.
-/

namespace Lookahead

/-- What a grammar contributes to a recognizer's decisions. Both are arbitrary actions: they may
fail, move the cursor, or not end. -/
structure Hooks (S X : Type) where
  /-- Evaluate a semantic predicate, with the cursor where the decision starts. -/
  predicate : Nat → Action (Recognizer S X) Bool
  /-- Parse an alternative of a decision speculatively; it is viable if that comes to an end without
  a fault. -/
  speculate : (decision alternative : Nat) → Action (Recognizer S X) Unit

/-- The hooks of a grammar without predicates and speculation: to ask for either is a misuse. -/
def Hooks.none {S X : Type} : Hooks S X where
  predicate id := .fault (.misuse (.noPredicate id))
  speculate decision alternative := .fault (.misuse (.noSimulation decision alternative))

namespace Recognizer

variable {S X α : Type} [Cursor S]

/-- Take a mark at the cursor. -/
def mark : Action (Recognizer S X) Mark := stepInput Cursor.mark

/-- End the guard that holds a mark. A mark that the input refuses is a misuse, and the input
stays. -/
def endGuard (m : Mark) (ending : Cursor.GuardEnd) : Action (Recognizer S X) Unit := fun r =>
  let (result, input) := Cursor.endGuard r.input m ending
  some (result.mapError .misuse, { r with input })

/-- Begin a speculation: take a mark, and raise the depth of backtracking if asked to. -/
def beginSpeculation (raise : Bool) : Action (Recognizer S X) Mark := do
  let m ← mark
  if raise then updateState fun s => { s with backtracking := s.backtracking + 1 }
  return m

/-- End a speculation: lower the depth of backtracking if it was raised, and then end the guard. -/
def endSpeculation (raise : Bool) (m : Mark) (ending : Cursor.GuardEnd) :
    Action (Recognizer S X) Unit := do
  if raise then updateState fun s => { s with backtracking := s.backtracking - 1 }
  endGuard m ending

/-- Run `body` in a speculation, which is ended as `ending` says whatever becomes of `body`. A mark
that cannot be ended properly counts for more than what became of `body`. -/
def speculating (raise : Bool) (ending : Cursor.GuardEnd) (body : Action (Recognizer S X) α) :
    Action (Recognizer S X) α := do
  let m ← beginSpeculation raise
  let outcome ← body.attempt
  endSpeculation raise m ending
  .ofExcept outcome

/-- Ask whether a fragment would match. The fragment is run in a speculation that always goes back.
It matches if there was no fault; a failure and the signal of a speculative parse mean that it does
not, and a misuse is passed on. -/
def synpred (fragment : Action (Recognizer S X) Unit) : Action (Recognizer S X) Bool := do
  let m ← beginSpeculation true
  let outcome ← fragment.attempt
  updateState fun s => { s with failed := false }
  endSpeculation true m .restore
  match outcome with
  | .ok () => return true
  | .error (.misuse cause) => .fault (.misuse cause)
  | .error _ => return false

end Recognizer

end Lookahead
