import Lookahead.Proofs.Grammar.Logged
import Lookahead.Proofs.Parser.Upkeep

/-!
# Journals of parsers

Of all that a parser grammar does, four things move the input for good: a token is matched, one is
dropped in front of a match, one is put in, and a resynchronization passes over some.  A `Journal`
says what is logged of each of them.  `Journal.run` is the run of a program with that log: the
operations of the parser are written out once more, with the four as the only ones that log
something, and forgetting the log gives back the run (`Journal.forget_run`).

What a run keeps by way of its log comes down to the four, to the books that are kept besides, and
to the way in which rules are entered (`Journal.Keeps`).
-/

namespace Lookahead

open Logged Recognizer

namespace Parser

variable {σ ε α : Type} [TokenSource σ]

/-- What is logged of the operations that move the input, by the parser before and after them. -/
structure Journal (ε σ : Type) where
  matched (before : Parser σ) (token : Token) (after : Parser σ) : List ε
  /-- The current token is dropped and the next one is matched. -/
  deleted (before : Parser σ) (token : Token) (after : Parser σ) : List ε
  inserted (before : Parser σ) (token : Token) (after : Parser σ) : List ε
  resynchronized (before after : Parser σ) : List ε
  /-- What is kept of the log of a prediction or of a syntactic predicate. -/
  decisions : List ε → List ε

/-- What is logged of a success, from the parsers before and after it; of a fault, nothing is. -/
def ofSuccess (entries : Parser σ → α → Parser σ → List ε) (before : Parser σ) :
    Except Fault α → Parser σ → List ε
  | .ok a, after => entries before a after
  | .error _, _ => []

namespace Journal

variable (k : Journal ε σ)

/-! ## Matching -/

/-- Take the current token, and log that it was matched. -/
def matchAny : Logged ε (Parser σ) Token := Logged.telling (ofSuccess k.matched) Parser.matchAny

/-- Drop the current token and take the next one, and log both. -/
def deleteUnwanted (expected : TokenSet) : Logged ε (Parser σ) Token :=
  Logged.telling (ofSuccess k.deleted) (Parser.deleteUnwanted expected)

/-- Put in a token, and log it. -/
def insertMissing (type : TokenType) : Logged ε (Parser σ) Token :=
  Logged.telling (ofSuccess k.inserted) (Parser.insertMissing type)

/-- Mend the input for a token type, with the log of how. -/
def repairToken (type : TokenType) (follow : TokenSet) : Logged ε (Parser σ) (Option Token) := do
  if ← silent (canDelete (· == type)) then return some (← k.deleteUnwanted (.ofTypes [type]))
  else if ← silent (canInsert follow) then return some (← k.insertMissing type)
  else return none

/-- Mend the input for a set of types, with the log of how. -/
def repairSet (set follow : TokenSet) : Logged ε (Parser σ) (Option Token) := do
  if set.isNil then return none
  else if ← silent (canDelete set.has) then return some (← k.deleteUnwanted set)
  else
    match set.types with
    | [only] =>
      if ← silent (canInsert follow) then return some (← k.insertMissing only) else return none
    | _ => return none

/-- Match a token of the given type, or mend the input for it, with the log of what was done. -/
def matchToken (type : TokenType) (follow : TokenSet) : Logged ε (Parser σ) Token := do
  if (← silent (lookahead 1)) = type then k.matchAny
  else if ← silent isBacktracking then silent giveUp
  else
    match ← k.repairToken type follow with
    | some token => return token
    | none => silent (fail (.mismatchedToken type) (some (.ofTypes [type])))

/-- Match a token of one of the given types, or mend the input for it, with the log of what was
done. -/
def matchSet (set follow : TokenSet) : Logged ε (Parser σ) Token := do
  if set.has (← silent (lookahead 1)) then k.matchAny
  else if ← silent isBacktracking then silent giveUp
  else
    match ← k.repairSet set follow with
    | some token => return token
    | none => silent (fail .mismatchedSet (some set))

@[simp] lemma forget_matchAny : (k.matchAny).forget = (Parser.matchAny : Action (Parser σ) Token) :=
  forget_telling _ _

@[simp] lemma forget_deleteUnwanted (expected : TokenSet) :
    (k.deleteUnwanted expected).forget = Parser.deleteUnwanted expected := forget_telling _ _

@[simp] lemma forget_insertMissing (type : TokenType) :
    (k.insertMissing type).forget = Parser.insertMissing type := forget_telling _ _

@[simp] lemma forget_repairToken (type : TokenType) (follow : TokenSet) :
    (k.repairToken type follow).forget = Parser.repairToken type follow := by
  simp only [repairToken, Parser.repairToken, forget_bind, forget_silent, forget_ite, forget_pure,
    forget_deleteUnwanted, forget_insertMissing]

@[simp] lemma forget_repairSet (set follow : TokenSet) :
    (k.repairSet set follow).forget = Parser.repairSet set follow := by
  unfold repairSet Parser.repairSet
  split
  · rfl
  · rw [forget_bind, forget_silent]
    congr 1
    funext deletes
    rw [forget_ite, forget_bind, forget_deleteUnwanted]
    congr 1
    rcases set.types with _ | ⟨only, _ | ⟨_, _⟩⟩
    · rfl
    · simp only [forget_bind, forget_silent, forget_ite, forget_pure, forget_insertMissing]
    · rfl

@[simp] lemma forget_matchToken (type : TokenType) (follow : TokenSet) :
    (k.matchToken type follow).forget = Parser.matchToken type follow := by
  simp only [matchToken, Parser.matchToken, forget_bind, forget_silent, forget_ite, forget_matchAny,
    forget_repairToken]
  congr! with here _ _ speculating _ _ token
  cases token with
  | some token => rfl
  | none => exact forget_silent _

@[simp] lemma forget_matchSet (set follow : TokenSet) :
    (k.matchSet set follow).forget = Parser.matchSet set follow := by
  simp only [matchSet, Parser.matchSet, forget_bind, forget_silent, forget_ite, forget_matchAny,
    forget_repairSet]
  congr! with here _ _ speculating _ _ token
  cases token with
  | some token => rfl
  | none => exact forget_silent _

/-! ## Rules -/

/-- Report a failure that leaves a rule, resynchronize, and log that from the parsers before and
after. -/
def recoverInRule (start : RuleStart) (f : Failure) :
    Logged ε (Parser σ) (Option NodeId) := do
  let report ← silent (reportFailure f)
  Logged.telling (fun before _ after => k.resynchronized before after) (resynchronize report f)
  silent (errorNode start)

/-- Leave a rule, with the log of the recovery if there is one. -/
def exitRule (start : RuleStart) (outcome : Except Fault (Option NodeId)) :
    Logged ε (Parser σ) (Option NodeId) := do
  let recovers ← silent (readState fun s => s.backtracking = 0 && !s.escalated)
  let result ← attempt <|
    match outcome, recovers with
    | .error (.failed f), true => k.recoverInRule start f
    | outcome, _ => silent (.ofExcept outcome)
  silent (record start result)
  silent (updateState State.popFrame)
  silent (.ofExcept result)

/-- Run something with a root of its own, and return the root that it ends with. -/
def withRoot (root : Option NodeId) (body : Logged ε (Parser σ) α) :
    Logged ε (Parser σ) (Option NodeId) := do
  let outer ← silent currentRoot
  silent (setRoot root)
  let outcome ← body.attempt
  let inner ← silent currentRoot
  silent (setRoot outer)
  silent (discard (Action.ofExcept outcome))
  return inner

/-- Run the block of a rule with its log, and finish the tree. -/
def runBody (start : RuleStart) (body : Logged ε (Parser σ) Unit) :
    Logged ε (Parser σ) (Option NodeId) := do
  let root ← withRoot (← silent beginTree) body
  silent (finishTree root start)

/-- Call a rule that has the given body, with the log of the body and that of its recovery. -/
def call (rule : Rule) (follow : TokenSet) (body : Logged ε (Parser σ) Unit) :
    Logged ε (Parser σ) (Option NodeId) := do
  let entry ← silent (enterRule rule follow).attempt
  silent (note (.entered rule.name (← silent index) (Fault.ofOutcome entry)))
  match ← silent (.ofExcept entry) with
  | none => return none
  | some start =>
    let outcome ← (runBody start body).attempt
    let result ← (k.exitRule start outcome).attempt
    let tree ← silent <| readOwn fun b =>
      match result with
      | .ok (some node) => some (b.tree.render node)
      | _ => none
    silent (note (.exited rule.name (← silent index) (Fault.ofOutcome result) tree))
    silent (.ofExcept result)

@[simp] lemma forget_recoverInRule (start : RuleStart) (f : Failure) :
    (k.recoverInRule start f).forget = Parser.recoverInRule start f := by
  simp only [recoverInRule, Parser.recoverInRule, forget_bind, forget_silent, forget_telling]

@[simp] lemma forget_exitRule (start : RuleStart) (outcome : Except Fault (Option NodeId)) :
    (k.exitRule start outcome).forget = Parser.exitRule start outcome := by
  simp only [exitRule, Parser.exitRule, forget_bind, forget_silent, forget_attempt]
  congr! with recovers
  rcases outcome with (f | _ | _) | _ <;> cases recovers
  case error.failed.true => exact k.forget_recoverInRule start f
  all_goals exact forget_silent _

omit [TokenSource σ] in
@[simp] lemma forget_withRoot (root : Option NodeId) (body : Logged ε (Parser σ) α) :
    (withRoot root body).forget = Parser.withRoot root body.forget := by
  simp only [withRoot, Parser.withRoot, forget_bind, forget_silent, forget_attempt, forget_pure]

@[simp] lemma forget_runBody (start : RuleStart) (body : Logged ε (Parser σ) Unit) :
    (runBody start body).forget = Parser.runBody start body.forget := by
  simp only [runBody, Parser.runBody, forget_bind, forget_silent, forget_withRoot]

@[simp] lemma forget_call (rule : Rule) (follow : TokenSet) (body : Logged ε (Parser σ) Unit) :
    (k.call rule follow body).forget = Parser.call rule follow body.forget := by
  simp only [call, Parser.call, forget_bind, forget_silent]
  congr! with entry index _ start
  cases start with
  | none => rfl
  | some start =>
    simp only [forget_bind, forget_attempt, forget_silent, forget_runBody, forget_exitRule]
    all_goals rfl

/-! ## Programs -/

/-- Carry out an instruction, with the log of what it matches or of the rule that it calls. -/
def perform (g : Grammar ParserInstruction)
    (run : Block ParserInstruction → Logged ε (Parser σ) Unit) :
    ParserInstruction → Logged ε (Parser σ) Unit
  | .token type follow => do
    silent (note (.matchedToken (← k.matchToken type follow)))
  | .child type follow => do
    let root ← silent currentRoot
    let token ← k.matchToken type follow
    silent (addLeaf root token)
    silent (note (.matchedToken token))
  | .root type follow => do
    let root ← silent currentRoot
    let node ← silent (addRoot root (← k.matchToken type follow))
    silent (setRoot node)
    silent (note (.rooted node))
  | .set types follow => do
    let token ← k.matchSet types follow
    silent (note (.matchedToken token))
    silent (addLeaf (← silent currentRoot) token)
  | .any => do
    let token ← k.matchAny
    silent (note (.matchedToken token))
    silent (addLeaf (← silent currentRoot) token)
  | .call rule follow => do
    let node ← k.call (g.rule rule) follow (run (g.body rule))
    silent (addSubtree (← silent currentRoot) node)

lemma forget_perform (g : Grammar ParserInstruction)
    (run : Block ParserInstruction → Logged ε (Parser σ) Unit) (i : ParserInstruction) :
    (k.perform g run i).forget = Parser.perform g (fun b => (run b).forget) i := by
  cases i <;>
    simp only [perform, Parser.perform, matchChild, matchRoot, forget_bind, forget_silent,
      forget_matchToken, forget_matchSet, forget_matchAny, forget_call, bind_assoc, pure_bind]

/-- The instructions of parser grammars with the log that the journal keeps. -/
def dialect : LoggedDialect ε (Parser.dialect : Dialect (TokenStream σ) TreeBuilder _) where
  perform := k.perform
  apart body := discard (withRoot none body)
  decisions := k.decisions
  forget_perform := k.forget_perform
  forget_apart body := by rw [forget_discard, forget_withRoot]; rfl

/-- Run a block of a parser grammar, and keep the journal. -/
def run (g : Grammar ParserInstruction) (fuel : Nat) (block : Block ParserInstruction) :
    Logged ε (Parser σ) Unit :=
  k.dialect.run g fuel block

/-- Call a rule of a parser grammar, and keep the journal. -/
def callRule (g : Grammar ParserInstruction) (fuel : Nat) (rule : Nat) (follow : TokenSet) :
    Logged ε (Parser σ) (Option NodeId) :=
  k.call (g.rule rule) follow (k.run g fuel (g.body rule))

/-- **Forgetting the journal gives back the run**, so that the log is one of the run itself. -/
theorem forget_run (g : Grammar ParserInstruction) (fuel : Nat) (block : Block ParserInstruction) :
    (k.run g fuel block).forget = Parser.run g fuel block :=
  k.dialect.forget_run g fuel block

/-- Every run has its log. -/
lemma exists_log_of_run {g : Grammar ParserInstruction} {fuel : Nat}
    {block : Block ParserInstruction} {r r' : Parser σ} {o : Except Fault Unit}
    (h : Parser.run g fuel block r = some (o, r')) :
    ∃ log, k.run g fuel block r = some (log, o, r') :=
  k.dialect.exists_log_of_run g h

lemma forget_callRule (g : Grammar ParserInstruction) (fuel : Nat) (rule : Nat)
    (follow : TokenSet) :
    (k.callRule g fuel rule follow).forget = Parser.callRule g fuel rule follow := by
  rw [callRule, Parser.callRule, forget_call, forget_run]

/-! ## What the log says -/

/-- What moves the input keeps `R` by way of what is logged of it, and so does what an instruction
does besides. -/
structure Keeps (R : Parser σ → List ε → Parser σ → Prop) : Prop where
  books {α : Type} {x : Action (Parser σ) α} (hrests : Action.Within Rests x)
    (hupkeep : Action.Within Upkeep x) : Action.Within (Silently R) x
  note (e : Event) (he : ∀ look, e ≠ .observed look) :
    Action.Within (Silently R) (note e : Action (Parser σ) Unit)
  report (f : Failure) : Action.Within (Silently R) (reportFailure f : Action (Parser σ) Report)
  record (start : RuleStart) (o : Except Fault (Option NodeId)) :
    Action.Within (Silently R) (record start o : Action (Parser σ) Unit)
  enterRule (rule : Rule) (follow : TokenSet) :
    Action.Within (Silently R) (enterRule rule follow : Action (Parser σ) (Option RuleStart))
  matchAny : Within R k.matchAny
  deleteUnwanted (expected : TokenSet) : Within R (k.deleteUnwanted expected)
  insertMissing (type : TokenType) : Within R (k.insertMissing type)
  resynchronize (report : Report) (f : Failure) :
    Within R (Logged.telling (fun before _ after => k.resynchronized before after)
      (resynchronize report f))

namespace Keeps

variable {k} {R : Parser σ → List ε → Parser σ → Prop} (h : k.Keeps R)

include h

lemma setRoot (root : Option NodeId) : Within R (silent (setRoot root)) :=
  Within.silent (h.books (rests_setRoot root) upkeep_updateOwn)

lemma fail (kind : FailureKind) (expected : Option TokenSet) :
    Within R (silent (Recognizer.fail kind expected : Action (Parser σ) α)) :=
  Within.silent (h.books (rests_fail kind expected) (upkeep_fail kind expected))

lemma lookahead (n : Int) : Within R (silent (lookahead n)) :=
  Within.silent (h.books (rests_lookahead n) (upkeep_lookahead n))

lemma canDelete (needed : TokenType → Bool) : Within R (silent (canDelete needed)) :=
  Within.silent (h.books (rests_canDelete needed) (upkeep_canDelete needed))

lemma canInsert (follow : TokenSet) : Within R (silent (canInsert follow)) :=
  Within.silent (h.books (rests_canInsert follow) (upkeep_canInsert follow))

lemma addLeaf (root : Option NodeId) (token : Token) : Within R (silent (addLeaf root token)) :=
  Within.silent (h.books (rests_addLeaf root token) (upkeep_addLeaf root token))

variable [Composes R]

lemma repairToken (type : TokenType) (follow : TokenSet) :
    Within R (k.repairToken type follow) := by
  refine (h.canDelete _).bind fun deletes => Within.ite ?_ ?_
  · exact (h.deleteUnwanted _).bind fun token => Within.pure _
  · refine (h.canInsert follow).bind fun inserts => Within.ite ?_ (Within.pure _)
    exact (h.insertMissing type).bind fun token => Within.pure _

lemma repairSet (set follow : TokenSet) : Within R (k.repairSet set follow) := by
  refine Within.ite (Within.pure _) ((h.canDelete _).bind fun deletes => Within.ite ?_ ?_)
  · exact (h.deleteUnwanted _).bind fun token => Within.pure _
  · split
    · refine (h.canInsert follow).bind fun inserts => Within.ite ?_ (Within.pure _)
      exact (h.insertMissing _).bind fun token => Within.pure _
    · exact Within.pure _

lemma mend {x : Logged ε (Parser σ) (Option Token)} (hx : Within R x) (kind : FailureKind)
    (expected : Option TokenSet) :
    Within R (do
      if ← silent isBacktracking then silent giveUp
      else
        match ← x with
        | some token => return token
        | none => silent (Recognizer.fail kind expected)) := by
  refine (Within.read _).bind fun speculating => Within.ite ?_ (hx.bind fun token => ?_)
  · exact Within.silent (h.books rests_giveUp upkeep_giveUp)
  · split
    · exact Within.pure _
    · exact h.fail kind expected

lemma matchToken (type : TokenType) (follow : TokenSet) : Within R (k.matchToken type follow) :=
  (h.lookahead 1).bind fun _ => Within.ite h.matchAny (h.mend (h.repairToken type follow) _ _)

lemma matchSet (set follow : TokenSet) : Within R (k.matchSet set follow) :=
  (h.lookahead 1).bind fun _ => Within.ite h.matchAny (h.mend (h.repairSet set follow) _ _)

lemma recoverInRule (start : RuleStart) (f : Failure) : Within R (k.recoverInRule start f) := by
  refine (Within.silent (h.report f)).bind fun report => (h.resynchronize report f).bind fun _ => ?_
  refine Within.silent (h.books ?_ ?_)
  · exact (rests_lookBehind 1).bind fun last => (Action.Within.read _).bind fun text =>
      rests_stepOwn.bind fun node => Action.Within.pure _
  · exact (upkeep_lookBehind 1).bind fun last => (Action.Within.read _).bind fun text =>
      upkeep_stepOwn.bind fun node => Action.Within.pure _

lemma exitRule (start : RuleStart) (outcome : Except Fault (Option NodeId)) :
    Within R (k.exitRule start outcome) := by
  have hpop : Action.Within (Silently R) (updateState State.popFrame : Action (Parser σ) Unit) := by
    refine h.books (rests_updateState ?_ ?_ ?_ ?_) (upkeep_updateState ?_)
    · exact fun _ => rfl
    · exact fun _ => rfl
    · exact fun _ => rfl
    · exact fun _ => rfl
    · exact fun _ => ⟨rfl, rfl, rfl, rfl⟩
  refine (Within.read _).bind fun recovers => Within.bind (Within.attempt ?_) fun result => ?_
  · split
    · exact h.recoverInRule start _
    · exact Within.ofExcept _
  · exact (Within.silent (h.record start result)).bind fun _ => (Within.silent hpop).bind fun _ =>
      Within.ofExcept result

lemma withRoot {root : Option NodeId} {body : Logged ε (Parser σ) α} (hbody : Within R body) :
    Within R (withRoot root body) := by
  refine (Within.read _).bind fun outer => (h.setRoot root).bind fun _ => ?_
  refine hbody.attempt.bind fun outcome => (Within.read _).bind fun inner => ?_
  exact (h.setRoot outer).bind fun _ =>
    (Within.silent (Action.Within.ofExcept outcome).discard).bind fun _ => Within.pure _

lemma runBody (start : RuleStart) {body : Logged ε (Parser σ) Unit} (hbody : Within R body) :
    Within R (runBody start body) :=
  (Within.silent (h.books rests_beginTree upkeep_beginTree)).bind fun _ =>
    (h.withRoot hbody).bind fun root =>
      Within.silent (h.books (rests_finishTree root start) (upkeep_finishTree root start))

lemma call {rule : Rule} {follow : TokenSet} {body : Logged ε (Parser σ) Unit}
    (hbody : Within R body) : Within R (k.call rule follow body) := by
  refine (Within.silent (h.enterRule rule follow).attempt).bind fun entry => ?_
  refine (Within.read _).bind fun index =>
    (Within.silent (h.note _ fun _ h => by cases h)).bind fun _ => ?_
  refine (Within.ofExcept entry).bind fun entered => ?_
  cases entered with
  | none => exact Within.pure none
  | some start =>
    refine (h.runBody start hbody).attempt.bind fun outcome => ?_
    refine (h.exitRule start outcome).attempt.bind fun result => ?_
    exact (Within.read _).bind fun tree => (Within.read _).bind fun index =>
      (Within.silent (h.note _ fun _ h => by cases h)).bind fun _ =>
        Within.ofExcept result

/-- An instruction keeps what its operations keep. -/
lemma perform {g : Grammar ParserInstruction}
    {run : Block ParserInstruction → Logged ε (Parser σ) Unit}
    (hrun : ∀ rule, Within R (run (g.body rule))) (i : ParserInstruction) :
    Within R (k.perform g run i) := by
  have hroot : Within R (silent currentRoot) := Within.read _
  have hmatched (token : Token) : Within R (silent (Recognizer.note (.matchedToken token))) :=
    Within.silent (h.note _ fun _ h => by cases h)
  cases i with
  | token type follow => exact (h.matchToken type follow).bind hmatched
  | child type follow =>
    exact hroot.bind fun root => (h.matchToken type follow).bind fun token =>
      (h.addLeaf root token).bind fun _ => hmatched token
  | root type follow =>
    refine hroot.bind fun root => (h.matchToken type follow).bind fun token => ?_
    refine (Within.silent (h.books (rests_addRoot root token) (upkeep_addRoot root token))).bind
      fun node => (h.setRoot node).bind fun _ => ?_
    exact Within.silent (h.note _ fun _ h => by cases h)
  | set types follow =>
    exact (h.matchSet types follow).bind fun token => (hmatched token).bind fun _ =>
      hroot.bind fun root => h.addLeaf root token
  | any =>
    exact h.matchAny.bind fun token => (hmatched token).bind fun _ =>
      hroot.bind fun root => h.addLeaf root token
  | call rule follow =>
    refine (h.call (hrun rule)).bind fun node => hroot.bind fun root => ?_
    exact Within.silent (h.books (rests_addSubtree root node) (upkeep_addSubtree root node))

end Keeps

end Journal

end Parser

end Lookahead
