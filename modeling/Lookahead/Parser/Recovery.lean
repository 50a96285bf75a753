import Lookahead.Parser.Basic

/-!
# Mending the input

What a parser does about input that does not match, in this order:

* *deletion*: the unit behind the current one is what was needed, so the current one is dropped;
* *insertion*: the current unit can stand behind what was needed, so a token is put in;
* *resynchronization*, when a failure leaves a rule: units are skipped up to one that can follow
  some rule in progress, and an error node takes the place of the rule's tree.

Deletion and insertion are reported with a fix and are over at once.  After a resynchronization
further failures are kept back until something matches.  When the error budget is spent, or when no
unit can resume, the failure goes to the caller.
-/

namespace Lookahead

/-- Skip units up to the end of input, or to one of the types at which to stop, and count them. No
more than `fuel` units are skipped. -/
def TokenStream.skipUntil {σ : Type} [TokenSource σ] (stopAt : TokenType → Bool) :
    (fuel : Nat) → TokenStream σ → Nat × TokenStream σ
  | 0, s => (0, s)
  | fuel + 1, s =>
    let (type, s) := Cursor.lookahead s 1
    if type = .eof ∨ stopAt type then (0, s)
    else
      let (skipped, s) := TokenStream.skipUntil stopAt fuel (Cursor.consume s)
      (skipped + 1, s)

/-- The texts of the channel's tokens from place `first` to place `last`, with spaces between. -/
def TokenStream.channelText {σ : Type} (s : TokenStream σ) (first last : Nat) : String :=
  String.intercalate " " <|
    (((s.buffer.toList.drop first).take (last + 1 - first)).filter fun t =>
      t.channel == s.channel && !t.isEof).map Token.text

namespace Parser

open Recognizer

variable {σ : Type} [TokenSource σ]

/-- Report a failure. If it was one too many for the error budget, then the parser gives up on
it. -/
def reportFailure (f : Failure) : Action (Parser σ) Report := do
  match ← stepState fun s => s.report f with
  | .budgetExhausted =>
    updateState fun s => s.escalate f
    .fault (.failed f)
  | report => return report

/-! ## Inline repairs -/

/-- Give the failure just reported a fix, unless the report was kept back. -/
def suggest (report : Report) (hint : String) : Action (Parser σ) Unit :=
  if report = .recorded then updateState fun s => s.annotateLast hint else return

/-- End the recovery from an error at once, as an inline repair does. -/
def endRepair : Action (Parser σ) Unit := updateState fun s => { s with recovering := false }

/-- Drop the current token and take the next one, which is one of `expected`. The failure is
reported with this fix. -/
def deleteUnwanted (expected : TokenSet) : Action (Parser σ) Token := do
  let failure ← failureHere .unwantedToken (some expected)
  let report ← reportFailure failure
  consume
  let removed ← lookBehind 1
  let text := (removed.map Token.text).getD ""
  suggest report s!"remove '{text}'"
  let token ← symbol
  consume
  endRepair
  return token

/-- Put in a token of the type that is missing, at the place of the current one, which is not taken.
The failure is reported with this fix. -/
def insertMissing (type : TokenType) : Action (Parser σ) Token := do
  let failure ← failureHere (.missingToken type) none
  let name ← readState fun s => s.vocabulary.display type
  let report ← reportFailure failure
  suggest report s!"insert {name}"
  endRepair
  return .conjured type s!"<missing {name}>" failure.found

/-- Could the current token stand behind the one that was needed? If that one can end its rule, what
may follow the rule in its callers counts too. If nothing at all may follow, no token can. -/
def canFollow (follow : TokenSet) : Action (Parser σ) Bool := do
  if follow.isNil then return false
  else
    let viable ←
      if follow.has .endOfRule then do
        let set := follow.union (← stepState State.exactFollow)
        let inRule ← readState fun s => !s.frames.isEmpty
        pure (if inRule then set.eraseType .endOfRule else set)
      else pure follow
    let type ← lookahead 1
    return viable.has type || viable.has .endOfRule

/-- Is the token behind the current one what is needed, and may the current one be dropped? The
options decide the latter. -/
def canDelete (needed : TokenType → Bool) : Action (Parser σ) Bool := do
  if ← readState fun s => s.options.deletion then return needed (← lookahead 2)
  else return false

/-- Can the current token stand behind the one that is needed, and may that one be put in? The
options decide the latter. -/
def canInsert (follow : TokenSet) : Action (Parser σ) Bool := do
  if ← readState fun s => s.options.insertion then canFollow follow
  else return false

/-- Mend the input for a token type, by dropping a token rather than by putting one in. -/
def repairToken (type : TokenType) (follow : TokenSet) : Action (Parser σ) (Option Token) := do
  if ← canDelete (· == type) then return some (← deleteUnwanted (.ofTypes [type]))
  else if ← canInsert follow then return some (← insertMissing type)
  else return none

/-- Mend the input for a set of types, by dropping a token rather than by putting one in. A token is
put in only if the set has a single type. -/
def repairSet (set follow : TokenSet) : Action (Parser σ) (Option Token) := do
  if set.isNil then return none
  else if ← canDelete set.has then return some (← deleteUnwanted set)
  else
    match set.types with
    | [only] => if ← canInsert follow then return some (← insertMissing only) else return none
    | _ => return none

/-! ## Matching -/

/-- Match a token of the given type, where `follow` is what may stand behind it. On a mismatch a
parser that speculates gives up; another one mends the input if it can, and fails if not. -/
def matchToken (type : TokenType) (follow : TokenSet) : Action (Parser σ) Token := do
  if (← lookahead 1) = type then matchAny
  else if ← isBacktracking then giveUp
  else
    match ← repairToken type follow with
    | some token => return token
    | none => fail (.mismatchedToken type) (some (.ofTypes [type]))

/-- Match a token of one of the given types, as `matchToken` does for one. -/
def matchSet (set follow : TokenSet) : Action (Parser σ) Token := do
  if set.has (← lookahead 1) then matchAny
  else if ← isBacktracking then giveUp
  else
    match ← repairSet set follow with
    | some token => return token
    | none => fail .mismatchedSet (some set)

/-- Match a token, or mend the input for it, and add it under a parent. -/
def matchChild (parent : Option NodeId) (type : TokenType) (follow : TokenSet) :
    Action (Parser σ) Token := do
  let token ← matchToken type follow
  addLeaf parent token
  return token

/-- Match a token, or mend the input for it, and put it over a root. -/
def matchRoot (root : Option NodeId) (type : TokenType) (follow : TokenSet) :
    Action (Parser σ) (Option NodeId) := do
  addRoot root (← matchToken type follow)

/-! ## Resynchronization -/

/-- The note on skipped units, which were `skipped` in number and lie from the token `first` to the
token `resume`, which is not skipped. -/
def skippedNote (skipped : Nat) (first resume : Token) (context : RulePath) : Diagnostic :=
  let plural := if skipped = 1 then "" else "s"
  { Diagnostic.ofCode .skippedInput with
    message := s!"skipped {skipped} token{plural}", span := ⟨first.span.start, resume.span.start⟩,
    position := first.position, severity := .hint, context,
    related := [⟨"resynchronized here", resume.span⟩] }

/-- Skip units up to one that can follow a rule in progress. A second resynchronization at one place
passes one unit beforehand. If the input ends first, and may not end there, the parser gives up on
the failure; otherwise a note tells what was skipped, if the failure was reported. -/
def resynchronize (report : Report) (f : Failure) : Action (Parser σ) Unit := do
  let here ← index
  if (← readState State.lastErrorIndex) = some here then consume
  let here ← index
  updateState fun s => { s with lastErrorIndex := some here }
  let recovery ← stepState State.recoverySet
  let first ← symbol
  let skipped ← stepInput fun s => s.skipUntil recovery.has s.bound
  let resume ← symbol
  if resume.isEof && !recovery.has .eof then
    updateState fun s => s.escalate f
    .fault (.failed f)
  else if 0 < skipped && report = .recorded then
    updateState fun s => s.addDiagnostic (skippedNote skipped first resume f.context)

/-- Put an error node in the place of a rule's tree. It holds the text from the rule's start to the
last unit passed; if the rule passed none, it holds no text. -/
def errorNode (start : RuleStart) : Action (Parser σ) (Option NodeId) := do
  let last ← lookBehind 1
  let text ← .read fun p : Parser σ =>
    match last.bind Token.index with
    | some stop => if start.index ≤ stop then p.input.channelText start.index stop else ""
    | none => ""
  return some (← stepTree fun t => t.newError (some start.token) last text)

/-- Report a failure that leaves a rule, resynchronize, and put an error node in the place of the
rule's tree. -/
def recoverInRule (start : RuleStart) (f : Failure) : Action (Parser σ) (Option NodeId) := do
  let report ← reportFailure f
  resynchronize report f
  errorNode start

/-- Leave a rule, whose body came out as `outcome`. A failure is recovered from, unless the parser
is speculating or has given up; anything else is handed on. What comes out is recorded during
speculation, and the rule's frame is taken off. -/
def exitRule (start : RuleStart) (outcome : Except Fault (Option NodeId)) :
    Action (Parser σ) (Option NodeId) := do
  let recovers ← readState fun s => s.backtracking = 0 && !s.escalated
  let result ← Action.attempt <|
    match outcome, recovers with
    | .error (.failed f), true => recoverInRule start f
    | outcome, _ => .ofExcept outcome
  record start result
  updateState State.popFrame
  .ofExcept result

end Parser

end Lookahead
