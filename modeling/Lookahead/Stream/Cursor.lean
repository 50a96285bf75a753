import Lookahead.Failure
import Lookahead.Mark

/-!
# Cursors

A recognizer reads its input through a cursor over a sequence of units.  Reading may extend the
stream behind the cursor (a token stream pulls its tokens on demand), so the reading operations
return the stream along with what they read.

`Cursor` is what prediction and speculation need of a stream.  A *guard* ties a mark to a scope: it
is taken on entry and ended by `Cursor.endGuard` on every way out.
-/

namespace Lookahead

/-- A stream of units with a cursor that can be moved, saved and restored. This class has the
operations only; `Lawful` says how they hang together. -/
class Cursor (S : Type) where
  /-- The type of the unit `k` places from the cursor.  The current unit is at 1 and the previous
  one at -1; at 0 there is none. -/
  lookahead : S → Int → TokenType × S
  /-- Move past the current unit, unless the input is at its end. -/
  consume : S → S
  /-- The place of the cursor. -/
  index : S → Nat
  /-- Move to a place.  Marks stay as they are. -/
  seek : S → Nat → S
  /-- Save the place of the cursor under a new mark. -/
  mark : S → Mark × S
  /-- Move back to where the mark was taken, and pop it with all newer ones. -/
  rewind : S → Mark → Except Misuse S
  /-- Pop a mark and stay, which is refused unless it is the newest. -/
  release : S → Mark → Except Misuse S
  /-- The number of open marks. -/
  markDepth : S → Nat
  sourceName : S → String
  /-- The current unit as a token. -/
  symbol : S → Token × S

namespace Cursor

variable {S : Type} [Cursor S]

/-- The type of the current unit. -/
def current (s : S) : TokenType × S := lookahead s 1

/-- How the guard ends that ties a mark to a scope. -/
inductive GuardEnd where
  /-- Stay, and pop the mark. -/
  | keep
  /-- Go back to the mark. -/
  | restore
  /-- Go back to the mark, and let nobody know if it is no longer open. -/
  | abandon
  deriving DecidableEq, Repr

/-- End the guard that holds mark `m`.  A stream that refuses stays as it is. -/
def endGuard (s : S) (m : Mark) (ending : GuardEnd) : Except Misuse Unit × S :=
  let popped := match ending with
    | .keep => release s m
    | .restore | .abandon => rewind s m
  match popped, ending with
  | .ok s', _ => (.ok (), s')
  | .error _, .abandon => (.ok (), s)
  | .error cause, _ => (.error cause, s)

end Cursor

end Lookahead
