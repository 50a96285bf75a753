import Lookahead.Proofs.Automaton.Logged

/-!
# What a prediction meets

`Survey.predict` is `predict` with a log: the states that the walk is at, and the calls of the
grammar's hooks, each with the recognizer before and after it.  The log is kept whatever comes of
the prediction, because it is asked where a fault comes from.  Forgetting it gives back the
prediction (`Survey.forget_predict`).
-/

namespace Lookahead

/-- Something that a prediction meets: a state of the automaton, or a hook that it calls. -/
inductive Finding (S X : Type) where
  /-- The walk is at a state. -/
  | reached (s : Nat)
  /-- A hook was called.  It left the recognizer `after` behind, with a fault or with none.  A
  speculative parse is under a mark of its own. -/
  | called (own : Option Mark) (before : Recognizer S X) (fault : Option Fault)
      (after : Recognizer S X)

namespace Survey

open Recognizer

variable {S X α : Type}

/-- An action with a log of what a prediction meets. -/
abbrev Surveyed (S X α : Type) : Type := Logged (Finding S X) (Recognizer S X) α

/-- Call a hook, and log the recognizer before and after it, and its fault. -/
def call (own : Option Mark) (hook : Action (Recognizer S X) α) : Surveyed S X α :=
  Logged.telling (fun r o r' => [.called own r (Fault.ofOutcome o) r']) hook

/-- The log of a prediction in which everything that it meets is kept. -/
def observer (hooks : Hooks S X) : Observer (Finding S X) hooks where
  reached s := [.reached s]
  predicate id := call none (hooks.predicate id)
  speculate m decision alternative := call (some m) (hooks.speculate decision alternative)
  forget_predicate _ := Logged.forget_telling _ _
  forget_speculate _ _ _ := Logged.forget_telling _ _

variable [Cursor S]

/-- A prediction, with a log of what it meets. Without the log it is the prediction itself. -/
def predict (hooks : Hooks S X) (a : Automaton) : Surveyed S X Nat := (observer hooks).predict a

/-- **Forgetting what it has met gives back the prediction**, so that the log tells of the
prediction itself. -/
theorem forget_predict (hooks : Hooks S X) (a : Automaton) :
    (predict hooks a).forget = Recognizer.predict hooks a :=
  (observer hooks).forget_predict a

end Survey

end Lookahead
