import Lookahead.Failure
import Lookahead.Recognizer.Follow
import Lookahead.Recognizer.Options

/-!
# The state of a recognizer

Everything that a recognizer changes while it runs, apart from its input: the stack of rules, the
depth of speculation, what happened to the last error, the recorded rule outcomes, and the
diagnostics.

A failure is reported at most once between two successful matches.  `State.report` decides that by
the flag `recovering`, counts the error, and says when the error budget is spent.
-/

namespace Lookahead

/-- What a recognizer is doing, as a caller sees it. It is not stored but computed (`State.mode`):
giving up goes before speculation, and speculation before the recovery from an error. -/
inductive Mode where
  | normal
  /-- Parsing speculatively, under so many speculations that raise the depth. -/
  | backtracking (depth : Nat)
  /-- Matching, after a reported error and before the next match. -/
  | recovering
  /-- The recognizer has given up, and stays that way. -/
  | failed
  deriving DecidableEq, Repr

/-- The recorded outcome of a rule at a start: that it matches, and how far, or that it does not. -/
inductive MemoEntry where
  /-- The rule matched, and the input went on at `stop`. -/
  | parsed (stop : Nat)
  /-- The rule did not match, for whatever reason. -/
  | failed
  deriving DecidableEq, Repr

/-- What became of a reported failure; only a failure that became a diagnostic was counted. -/
inductive Report where
  /-- It became a diagnostic, and the error budget holds. -/
  | recorded
  /-- It was kept back, because an earlier one is still being recovered from. -/
  | suppressed
  /-- It became a diagnostic, and was one too many. -/
  | budgetExhausted
  deriving DecidableEq, Repr

/-- The recorded outcomes of rules, at most one for each pair of a rule's number and the place where
it started. -/
structure MemoTable where
  entries : List ((Nat × Nat) × MemoEntry)
  deriving DecidableEq, Repr

namespace MemoTable

def empty : MemoTable := ⟨[]⟩

/-- The recorded outcome of a rule at a start, if the rule was ever recorded there. -/
def find? (t : MemoTable) (rule start : Nat) : Option MemoEntry := t.entries.lookup (rule, start)

/-- Record an outcome for a rule at a start. An earlier outcome of the same rule at the same start
is lost. -/
def insert (t : MemoTable) (rule start : Nat) (e : MemoEntry) : MemoTable :=
  ⟨((rule, start), e) :: t.entries.filter fun old => old.1 != (rule, start)⟩

theorem find?_insert (t : MemoTable) (rule start rule' start' : Nat) (e : MemoEntry) :
    (t.insert rule start e).find? rule' start' =
      if (rule', start') = (rule, start) then some e else t.find? rule' start' := by
  simp only [find?, insert, List.lookup_cons]
  by_cases h : (rule', start') = (rule, start)
  · rw [if_pos h, h]
    simp
  · rw [if_neg h, beq_eq_false_iff_ne.2 h]
    simp only
    induction t.entries with
    | nil => rfl
    | cons old rest ih =>
      rw [List.lookup_cons]
      by_cases hold : old.1 = (rule, start)
      · have hne : ((rule', start') == old.1) = false := beq_eq_false_iff_ne.2 (hold ▸ h)
        rw [List.filter_cons_of_neg (by simp [hold]), hne, ih]
      · rw [List.filter_cons_of_pos (by simp [hold]), List.lookup_cons, ih]

/-- The number of outcomes in the table; recording one anew for the same rule and start does not
raise it. -/
def size (t : MemoTable) : Nat := t.entries.length

end MemoTable

/-- The state of a recognizer: all that it changes while it runs, apart from its input and from what
only its kind has. The options and the vocabulary are here because failures and reports are made by
them; nothing ever changes them. -/
structure State where
  /-- The rule invocations in progress, innermost first. -/
  frames : List Frame
  /-- The depth of speculation: how many speculations in progress have raised it. -/
  backtracking : Nat
  /-- Was an error reported since the last match? If so, the next failure is not reported. -/
  recovering : Bool
  /-- Did a speculative match fail? The signal that gives up a speculative parse sets this. -/
  failed : Bool
  /-- Where the input was last resynchronized, so that doing so again at that place makes
  progress. -/
  lastErrorIndex : Option Nat
  /-- The number of failures that became diagnostics, which is what the error budget limits. -/
  syntaxErrors : Nat
  /-- The last failure that was raised, reported or given up on. -/
  lastFailure : Option Failure
  /-- Has recovery given up? Nothing takes this back. -/
  escalated : Bool
  /-- The outcomes of rules that were recorded during speculation. -/
  memo : MemoTable
  /-- The unions of follow sets that were computed before, known by the signatures of their
  stacks. -/
  followCache : FollowCache
  /-- The diagnostics, oldest first. -/
  diagnostics : List Diagnostic
  options : Options
  vocabulary : Vocabulary

namespace State

/-- The state of a recognizer that has not run: no rule is in progress, nothing was reported or
recorded, and no union of follow sets is known. -/
def initial (options : Options) (vocabulary : Vocabulary) : State :=
  { frames := [], backtracking := 0, recovering := false, failed := false, lastErrorIndex := none,
    syntaxErrors := 0, lastFailure := none, escalated := false, memo := .empty,
    followCache := .empty, diagnostics := [], options, vocabulary }

/-- What the recognizer is doing, computed from its flags in the order of their importance. -/
def mode (s : State) : Mode :=
  if s.escalated then .failed
  else if 0 < s.backtracking then .backtracking s.backtracking
  else if s.recovering then .recovering
  else .normal

/-- Give up on a failure, which becomes the last one. Failures go to the caller from here on. -/
def escalate (s : State) (f : Failure) : State :=
  { s with escalated := true, lastFailure := some f }

/-! ## Rules -/

/-- Put a rule on the stack, with what may stand behind its call and where it starts. -/
def pushFrame (s : State) (rule : Rule) (follow : TokenSet) (startIndex : Nat) : State :=
  { s with frames := ⟨rule, follow, startIndex⟩ :: s.frames }

/-- Take the innermost rule off the stack; an empty stack stays empty. -/
def popFrame (s : State) : State := { s with frames := s.frames.tail }

/-- The innermost rule in progress, if there is one. -/
def currentRule (s : State) : Option Rule := s.frames.head?.map Frame.rule

/-- The names of the rules in progress, outermost first, as failures carry them. -/
def context (s : State) : RulePath := ⟨(s.frames.map fun f => f.rule.name).reverse⟩

/-- The union of the follow sets on the stack, exact or not, as the cache gives it, with the state
whose cache knows it. -/
def follow (s : State) (exact : Bool) : TokenSet × State :=
  let (set, followCache) := s.followCache.query (shapeOf s.frames) exact
  (set, { s with followCache })

/-- What may follow any of the rules in progress: the types at which recovery stops skipping. -/
def recoverySet (s : State) : TokenSet × State := s.follow false

/-- What may follow the current rule in its callers, as far outwards as each rule can end at its
call. -/
def exactFollow (s : State) : TokenSet × State := s.follow true

/-! ## Recorded outcomes -/

/-- The recorded outcome of a rule at a start; rules are told apart by their numbers only. -/
def memoized (s : State) (rule : Rule) (start : Nat) : Option MemoEntry :=
  s.memo.find? rule.index start

/-- Record an outcome of a rule at a start, in the place of what was recorded there before. -/
def memoize (s : State) (rule : Rule) (start : Nat) (e : MemoEntry) : State :=
  { s with memo := s.memo.insert rule.index start e }

/-! ## Diagnostics -/

/-- Put a diagnostic behind the others. -/
def addDiagnostic (s : State) (d : Diagnostic) : State :=
  { s with diagnostics := s.diagnostics ++ [d] }

/-- The diagnostic that says that the error budget is spent, at the place and in the rules of the
failure that was one too many. -/
def limitDiagnostic (f : Failure) (limit : Nat) : Diagnostic :=
  { Diagnostic.ofCode .tooManyErrors with
    message := s!"too many errors (limit {limit})", span := f.found.span,
    position := f.found.position, context := f.context }

/-- The error budget, if more failures became diagnostics than it allows; none if there is no
budget. -/
def exceededLimit (s : State) : Option Nat := s.options.maxErrors.filter (· < s.syntaxErrors)

/-- Report a failure. While an earlier one is being recovered from it is kept back, and nothing
changes. Otherwise it is counted and becomes a diagnostic and the last failure, and recovery from it
begins; if it was one too many for the budget, a second diagnostic says so. -/
def report (s : State) (f : Failure) : Report × State :=
  if s.recovering then (.suppressed, s)
  else
    let s := { s with
      syntaxErrors := s.syntaxErrors + 1, recovering := true, lastFailure := some f
      diagnostics := s.diagnostics ++ [f.diagnostic] }
    match s.exceededLimit with
    | some limit => (.budgetExhausted, s.addDiagnostic (limitDiagnostic f limit))
    | none => (.recorded, s)

/-- Change the last diagnostic of a list; an empty list has none and stays as it is. -/
def modifyLast (f : Diagnostic → Diagnostic) : List Diagnostic → List Diagnostic
  | [] => []
  | [d] => [f d]
  | d :: rest => d :: modifyLast f rest

/-- Give the last diagnostic a fix, in the place of one that it may have. -/
def annotateLast (s : State) (hint : String) : State :=
  { s with diagnostics := modifyLast (fun d => { d with hint := some hint }) s.diagnostics }

/-- The number of diagnostics that are errors, so that the hints of recovery do not count. -/
def errorCount (s : State) : Nat := (s.diagnostics.filter Diagnostic.isError).length

/-- Hand out the diagnostics, oldest first, and keep none of them. The number of syntax errors
stays. -/
def takeDiagnostics (s : State) : List Diagnostic × State :=
  (s.diagnostics, { s with diagnostics := [] })

end State

end Lookahead
