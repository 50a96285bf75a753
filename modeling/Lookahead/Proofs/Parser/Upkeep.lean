import Lookahead.Proofs.Grammar.Parsing
import Lookahead.Proofs.Recognizer.Course

/-!
# The upkeep of a parser

Matching, mending, reporting and building are the upkeep of a parser.  None of it is traced, and of
the state it leaves alone what the parser goes by in the long run: the records, the options, the
depth of backtracking and the place of the last resynchronization.

An instruction is upkeep but for its notes, the records that it makes and the resynchronizations
that it may come to.  It keeps whatever those and the upkeep keep (`perform_of_upkeep`).
-/

namespace Lookahead

open Action Cursor Recognizer

namespace Parser

variable {σ : Type} [TokenSource σ] {α : Type} {r r' : Parser σ}

/-- The input was operated on, nothing was traced, and the state still serves. -/
structure Upkeep (r r' : Parser σ) : Prop where
  reaches : Reaches r.input r'.input
  trace_eq : r'.trace = r.trace
  serves : r.state.Serves r'.state

instance : IsPreorder (Parser σ) Upkeep where
  refl _ := ⟨Reaches.refl _, rfl, rfl, rfl, rfl, rfl⟩
  trans _ _ _ h h' := ⟨h.reaches.trans h'.reaches, h'.trace_eq.trans h.trace_eq,
    h'.serves.memo_eq.trans h.serves.memo_eq, h'.serves.options_eq.trans h.serves.options_eq,
    h'.serves.backtracking_eq.trans h.serves.backtracking_eq,
    h'.serves.lastErrorIndex_eq.trans h.serves.lastErrorIndex_eq⟩

/-! ## Reading, moving and failing -/

lemma upkeep_stepInput {f : TokenStream σ → α × TokenStream σ} (hf : ∀ s, Reaches s (f s).2) :
    Within Upkeep (stepInput f : Action (Parser σ) α) :=
  Within.step fun r => ⟨hf r.input, rfl, rfl, rfl, rfl, rfl⟩

lemma upkeep_stepState {f : State → α × State} (hf : ∀ s : State, s.Serves (f s).2) :
    Within Upkeep (stepState f : Action (Parser σ) α) :=
  Within.step fun r => ⟨Reaches.refl _, rfl, hf r.state⟩

lemma upkeep_updateState {f : State → State} (hf : ∀ s : State, s.Serves (f s)) :
    Within Upkeep (updateState f : Action (Parser σ) Unit) :=
  Within.update fun r => ⟨Reaches.refl _, rfl, hf r.state⟩

lemma upkeep_stepOwn {f : TreeBuilder → α × TreeBuilder} :
    Within Upkeep (stepOwn f : Action (Parser σ) α) :=
  Within.step fun _ => ⟨Reaches.refl _, rfl, rfl, rfl, rfl, rfl⟩

lemma upkeep_updateOwn {f : TreeBuilder → TreeBuilder} :
    Within Upkeep (updateOwn f : Action (Parser σ) Unit) :=
  Within.update fun _ => ⟨Reaches.refl _, rfl, rfl, rfl, rfl, rfl⟩

lemma upkeep_lookahead (k : Int) : Within Upkeep (lookahead k : Action (Parser σ) TokenType) :=
  upkeep_stepInput fun s => (Step.lookahead s k).reaches

lemma upkeep_symbol : Within Upkeep (symbol : Action (Parser σ) Token) :=
  upkeep_stepInput fun s => (Step.symbol s).reaches

lemma upkeep_lookBehind (k : Nat) :
    Within Upkeep (lookBehind k : Action (Parser σ) (Option Token)) :=
  upkeep_stepInput fun s => (s.stays_lookBehind k).roams.reaches

lemma upkeep_consume : Within Upkeep (consume : Action (Parser σ) Unit) :=
  Within.update fun r => ⟨(Step.consume r.input).reaches, rfl, rfl, rfl, rfl, rfl⟩

lemma upkeep_seek (i : Nat) : Within Upkeep (seek i : Action (Parser σ) Unit) :=
  Within.update fun r => ⟨(Step.seek r.input i).reaches, rfl, rfl, rfl, rfl, rfl⟩

lemma upkeep_failureHere (kind : FailureKind) (expected : Option TokenSet) :
    Within Upkeep (failureHere kind expected : Action (Parser σ) Failure) :=
  upkeep_symbol.bind fun _ => (Within.read _).bind fun _ =>
    upkeep_stepState fun _ => ⟨rfl, rfl, rfl, rfl⟩

lemma upkeep_giveUp : Within Upkeep (giveUp : Action (Parser σ) α) := by
  have hfailed : Within Upkeep (updateState fun s => { s with failed := true } :
      Action (Parser σ) Unit) := upkeep_updateState fun _ => ⟨rfl, rfl, rfl, rfl⟩
  exact hfailed.bind fun _ => Within.fault _

lemma upkeep_fail (kind : FailureKind) (expected : Option TokenSet) :
    Within Upkeep (fail kind expected : Action (Parser σ) α) :=
  (Within.read _).bind fun _ =>
    Within.ite upkeep_giveUp ((upkeep_failureHere kind expected).bind fun _ => Within.fault _)

lemma upkeep_reportFailure (f : Failure) :
    Within Upkeep (reportFailure f : Action (Parser σ) Report) := by
  have hreport : Within Upkeep (stepState fun s => s.report f : Action (Parser σ) Report) :=
    upkeep_stepState fun s => s.serves_report f
  have hgivenUp : Within Upkeep (updateState fun s => s.escalate f : Action (Parser σ) Unit) :=
    upkeep_updateState fun _ => ⟨rfl, rfl, rfl, rfl⟩
  refine hreport.bind fun report => ?_
  split
  · exact hgivenUp.bind fun _ => Within.fault _
  · exact Within.pure _

/-! ## Matches and trees -/

lemma upkeep_matchAny : Within Upkeep (matchAny : Action (Parser σ) Token) := by
  have hmatched : Within Upkeep (noteMatch : Action (Parser σ) Unit) :=
    upkeep_updateState fun _ => ⟨rfl, rfl, rfl, rfl⟩
  exact upkeep_symbol.bind fun _ => upkeep_consume.bind fun _ =>
    hmatched.bind fun _ => Within.pure _

lemma upkeep_suggest (report : Report) (hint : String) :
    Within Upkeep (suggest report hint : Action (Parser σ) Unit) := by
  have hadd : Within Upkeep (updateState fun s => s.annotateLast hint : Action (Parser σ) Unit) :=
    upkeep_updateState fun _ => ⟨rfl, rfl, rfl, rfl⟩
  exact Within.ite hadd (Within.pure _)

lemma upkeep_endRepair : Within Upkeep (endRepair : Action (Parser σ) Unit) :=
  upkeep_updateState (f := fun s => { s with recovering := false }) fun _ =>
    ⟨rfl, rfl, rfl, rfl⟩

lemma upkeep_deleteUnwanted (expected : TokenSet) :
    Within Upkeep (deleteUnwanted expected : Action (Parser σ) Token) := by
  refine (upkeep_failureHere _ _).bind fun f => (upkeep_reportFailure f).bind fun report => ?_
  refine upkeep_consume.bind fun _ => (upkeep_lookBehind 1).bind fun removed => ?_
  refine (upkeep_suggest report _).bind fun _ => upkeep_symbol.bind fun token => ?_
  exact upkeep_consume.bind fun _ => upkeep_endRepair.bind fun _ => Within.pure token

lemma upkeep_insertMissing (type : TokenType) :
    Within Upkeep (insertMissing type : Action (Parser σ) Token) := by
  refine (upkeep_failureHere _ _).bind fun f => (Within.read _).bind fun name => ?_
  refine (upkeep_reportFailure f).bind fun report => (upkeep_suggest report _).bind fun _ => ?_
  exact upkeep_endRepair.bind fun _ => Within.pure _

lemma upkeep_canDelete (needed : TokenType → Bool) :
    Within Upkeep (canDelete needed : Action (Parser σ) Bool) :=
  (Within.read _).bind fun _ =>
    Within.ite ((upkeep_lookahead 2).bind fun _ => Within.pure _) (Within.pure _)

lemma upkeep_canInsert (follow : TokenSet) :
    Within Upkeep (canInsert follow : Action (Parser σ) Bool) := by
  have hcheck (viable : TokenSet) : Within Upkeep (do
      let type ← lookahead 1
      return viable.has type || viable.has .endOfRule : Action (Parser σ) Bool) :=
    (upkeep_lookahead 1).bind fun _ => Within.pure _
  have hexact : Within Upkeep (stepState State.exactFollow : Action (Parser σ) TokenSet) :=
    upkeep_stepState fun _ => ⟨rfl, rfl, rfl, rfl⟩
  refine (Within.read _).bind fun inserts => Within.ite (Within.ite (Within.pure _) ?_) ?_
  · refine Within.ite (hexact.bind fun exact => ?_) (hcheck follow)
    exact (Within.read _).bind fun inRule => (Within.pure _).bind hcheck
  · exact Within.pure _

lemma upkeep_matchToken (type : TokenType) (follow : TokenSet) :
    Within Upkeep (matchToken type follow : Action (Parser σ) Token) := by
  rw [matchToken_eq]
  refine (upkeep_lookahead 1).bind fun here => Within.ite upkeep_matchAny ?_
  refine (Within.read _).bind fun backtracking => Within.ite upkeep_giveUp ?_
  refine (upkeep_canDelete _).bind fun deletes => Within.ite (upkeep_deleteUnwanted _) ?_
  refine (upkeep_canInsert follow).bind fun inserts => Within.ite (upkeep_insertMissing type) ?_
  exact upkeep_fail _ _

lemma upkeep_matchSet (set follow : TokenSet) :
    Within Upkeep (matchSet set follow : Action (Parser σ) Token) := by
  rw [matchSet_eq]
  refine (upkeep_lookahead 1).bind fun here => Within.ite upkeep_matchAny ?_
  refine (Within.read _).bind fun backtracking => Within.ite upkeep_giveUp ?_
  refine Within.ite (upkeep_fail _ _) ?_
  refine (upkeep_canDelete _).bind fun deletes => Within.ite (upkeep_deleteUnwanted _) ?_
  split
  · refine (upkeep_canInsert follow).bind fun inserts => ?_
    exact Within.ite (upkeep_insertMissing _) (upkeep_fail _ _)
  · exact upkeep_fail _ _

lemma upkeep_beginTree : Within Upkeep (beginTree : Action (Parser σ) (Option NodeId)) :=
  (Within.read _).bind fun _ =>
    Within.ite (Within.pure _) (upkeep_stepOwn.bind fun _ => Within.pure _)

lemma upkeep_addLeaf (parent : Option NodeId) (token : Token) :
    Within Upkeep (addLeaf parent token : Action (Parser σ) Unit) := by
  refine (Within.read _).bind fun backtracking => ?_
  split
  · exact upkeep_stepOwn.bind fun _ => upkeep_updateOwn
  · exact Within.pure _

lemma upkeep_addSubtree (parent child : Option NodeId) :
    Within Upkeep (addSubtree parent child : Action (Parser σ) Unit) := by
  refine (Within.read _).bind fun backtracking => ?_
  split
  · exact upkeep_updateOwn
  · exact Within.pure _

lemma upkeep_addRoot (root : Option NodeId) (token : Token) :
    Within Upkeep (addRoot root token : Action (Parser σ) (Option NodeId)) := by
  refine (Within.read _).bind fun backtracking => ?_
  split
  · refine upkeep_stepOwn.bind fun leaf => (Within.read _).bind fun merged => ?_
    split
    · exact upkeep_updateOwn.bind fun _ => Within.pure _
    · exact Within.fault _
  · exact Within.pure _

lemma upkeep_finishTree (root : Option NodeId) (start : RuleStart) :
    Within Upkeep (finishTree root start : Action (Parser σ) (Option NodeId)) := by
  refine (Within.read _).bind fun backtracking => ?_
  split
  · refine upkeep_stepOwn.bind fun result => ?_
    split
    · exact (upkeep_lookBehind 1).bind fun _ => upkeep_updateOwn.bind fun _ => Within.pure _
    · exact Within.pure _
  · exact Within.pure _

/-! ## Entering a rule -/

lemma upkeep_enterRule (rule : Rule) (follow : TokenSet) :
    Within Upkeep (enterRule rule follow : Action (Parser σ) (Option RuleStart)) := by
  have hreplay : Within Upkeep (replay rule : Action (Parser σ) Bool) := by
    refine (Within.read _).bind fun start => (Within.read _).bind fun memoizing => ?_
    refine Within.ite ((Within.read _).bind fun entry => ?_) (Within.pure _)
    split
    · exact upkeep_giveUp
    · exact (upkeep_seek _).bind fun _ => Within.pure _
    · exact Within.pure _
  have hpush (index : Nat) : Within Upkeep
      (updateState fun s => s.pushFrame rule follow index : Action (Parser σ) Unit) :=
    upkeep_updateState fun _ => ⟨rfl, rfl, rfl, rfl⟩
  refine hreplay.bind fun replayed => Within.ite (Within.pure _) ?_
  exact upkeep_symbol.bind fun token => (Within.read _).bind fun index =>
    (hpush index).bind fun _ => Within.pure _

/-! ## Instructions -/

section

variable {R : Parser σ → Parser σ → Prop} [IsPreorder (Parser σ) R]
  (hupkeep : ∀ {β : Type} {x : Action (Parser σ) β}, Within Upkeep x → Within R x)

include hupkeep

lemma recoverInRule_of_upkeep {start : RuleStart} {f : Failure}
    (hresync : ∀ report, Within R (resynchronize report f : Action (Parser σ) Unit)) :
    Within R (recoverInRule start f : Action (Parser σ) (Option NodeId)) := by
  refine (hupkeep (upkeep_reportFailure f)).bind fun report => (hresync report).bind fun _ => ?_
  refine (hupkeep (upkeep_lookBehind 1)).bind fun last => (Within.read _).bind fun text => ?_
  exact (hupkeep upkeep_stepOwn).bind fun node => Within.pure _

lemma exitRule_of_upkeep {start : RuleStart} {outcome : Except Fault (Option NodeId)}
    (hrecord : ∀ o : Except Fault (Option NodeId), Within R (record start o))
    (hresync : ∀ report f, Within R (resynchronize report f : Action (Parser σ) Unit)) :
    Within R (exitRule start outcome : Action (Parser σ) (Option NodeId)) := by
  have hpop : Within Upkeep (updateState State.popFrame : Action (Parser σ) Unit) :=
    upkeep_updateState fun _ => ⟨rfl, rfl, rfl, rfl⟩
  refine (Within.read _).bind fun recovers => Within.bind (Within.attempt ?_) fun result => ?_
  · split
    · exact recoverInRule_of_upkeep hupkeep fun report => hresync report _
    · exact Within.ofExcept _
  · exact (hrecord result).bind fun _ => (hupkeep hpop).bind fun _ => Within.ofExcept _

variable (hnote : ∀ e : Event, (∀ look, e ≠ .observed look) →
    Within R (note e : Action (Parser σ) Unit))
  (hrecord : ∀ start (o : Except Fault (Option NodeId)),
    Within R (record start o : Action (Parser σ) Unit))
  (hresync : ∀ report f, Within R (resynchronize report f : Action (Parser σ) Unit))

include hnote hrecord hresync

lemma call_of_upkeep {rule : Rule} {follow : TokenSet} {body : Action (Parser σ) Unit}
    (hbody : Within R body) : Within R (call rule follow body) := by
  have hroot (root : Option NodeId) : Within R (setRoot root : Action (Parser σ) Unit) :=
    hupkeep upkeep_updateOwn
  have hrun (start : RuleStart) : Within R (runBody start body) :=
    (hupkeep upkeep_beginTree).bind fun _ => (withRoot_within hroot hbody).bind fun root =>
      hupkeep (upkeep_finishTree root start)
  refine (hupkeep (upkeep_enterRule rule follow)).attempt.bind fun entry => ?_
  refine (Within.read _).bind fun index => (hnote _ fun _ h => by cases h).bind fun _ => ?_
  refine (Within.ofExcept entry).bind fun entered => ?_
  cases entered with
  | none => exact Within.pure none
  | some start =>
    refine (hrun start).attempt.bind fun outcome => ?_
    refine (exitRule_of_upkeep hupkeep (hrecord start) hresync).attempt.bind fun result => ?_
    exact (Within.read _).bind fun tree => (Within.read _).bind fun index =>
      (hnote _ fun _ h => by cases h).bind fun _ => Within.ofExcept result

lemma perform_of_upkeep {g : Grammar ParserInstruction}
    {run : Block ParserInstruction → Action (Parser σ) Unit}
    (hrun : ∀ rule, Within R (run (g.body rule))) (i : ParserInstruction) :
    Within R (perform g run i) := by
  have hroot : Within R (currentRoot : Action (Parser σ) (Option NodeId)) := Within.read _
  have hmatched (token : Token) : Within R (note (.matchedToken token) : Action (Parser σ) Unit) :=
    hnote _ fun _ h => by cases h
  have hleaf (token : Token) :
      Within R (do addLeaf (← currentRoot) token : Action (Parser σ) Unit) :=
    hroot.bind fun root => hupkeep (upkeep_addLeaf root token)
  cases i with
  | token type follow =>
    exact (hupkeep (upkeep_matchToken type follow)).bind fun _ => hmatched _
  | child type follow =>
    refine hroot.bind fun root => Within.bind (hupkeep ?_) fun _ => hmatched _
    exact (upkeep_matchToken type follow).bind fun token =>
      (upkeep_addLeaf root token).bind fun _ => Within.pure token
  | root type follow =>
    refine hroot.bind fun root => Within.bind (hupkeep ?_) fun node => ?_
    · exact (upkeep_matchToken type follow).bind fun token => upkeep_addRoot root token
    · exact (hupkeep upkeep_updateOwn).bind fun _ => hnote _ fun _ h => by cases h
  | set types follow =>
    exact (hupkeep (upkeep_matchSet types follow)).bind fun token =>
      (hmatched _).bind fun _ => hleaf token
  | any =>
    exact (hupkeep upkeep_matchAny).bind fun token => (hmatched _).bind fun _ => hleaf token
  | call rule follow =>
    refine (call_of_upkeep hupkeep hnote hrecord hresync (hrun rule)).bind fun node => ?_
    exact hroot.bind fun root => hupkeep (upkeep_addSubtree root node)

end

end Parser

end Lookahead
