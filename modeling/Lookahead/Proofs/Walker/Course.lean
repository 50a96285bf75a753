import Lookahead.Grammar.Walking
import Lookahead.Proofs.Grammar.Course

/-!
# Runs of tree walkers are courses

A walker mends nothing: its courses are of a manner in which a failure is reported by the first rule
that it leaves, and given up on at once.
-/

namespace Lookahead

open Action Cursor Recognizer

variable {α : Type} {k : Manner}

lemma NodeStream.losesMarks : LosesMarks NodeStream where
  rewind h := MarkStack.losesMark_of_rewind (MarkStack.map_eq_error.1 h)
  release h := MarkStack.losesMark_of_release (MarkStack.map_eq_error.1 h)

namespace Walker

variable {r r₁ r' : Walker}

/-! ## Matching -/

lemma told_takeUnit : Told k (takeUnit : Action Walker (Option (NodeId × NodeLabel))) :=
  (Told.read _).bind fun node => Told.consume.bind fun _ => Told.noteMatch.bind fun _ =>
    Told.pure node

lemma told_matchType (type : TokenType) : Told k (matchType type) :=
  (Told.lookahead 1).bind fun _ => .ite told_takeUnit (Told.fail _ _)

lemma told_matchSet (set : TokenSet) : Told k (matchSet set) :=
  (Told.lookahead 1).bind fun _ => .ite told_takeUnit (Told.fail _ _)

lemma told_matchAny : Told k (matchAny : Action Walker (Option (NodeId × NodeLabel))) := by
  refine (Told.lookahead 1).bind fun type => .ite (Told.fail _ _) ?_
  refine told_takeUnit.bind fun node => (Told.lookahead 1).bind fun next => ?_
  have hskip : Told k (.update fun w : Walker =>
      { w with input := skipLevels w.input.units.size 1 (Cursor.consume w.input) }) :=
    Told.update fun r => ⟨rfl, .refl r.state⟩
  split
  · exact hskip.bind fun _ => Told.pure node
  · exact Told.pure node

/-! ## Calling a rule -/

lemma enters_enterRule {rule : Rule} {o : Except Fault (Option RuleStart)}
    (hrun : enterRule rule r = some (o, r')) : Enters rule r o r' := by
  rw [enterRule, bind_apply, index_apply] at hrun
  refine Told.enters_of_replay (fun r₁ o r' hrun => ?_) hrun
  obtain ⟨rfl, rfl⟩ := Prod.mk.inj (Option.some.inj hrun)
  exact ⟨_, ⟨rule, .ofWidth 0, Cursor.index r.input⟩, rfl, rfl, rfl, rfl⟩

lemma exitRule_eq (start : RuleStart) (outcome : Except Fault Unit) :
    exitRule start outcome =
      readState (fun s => s.backtracking = 0 && !s.escalated) >>= fun handles =>
        (handling failWalk outcome handles).attempt >>= leave start := by
  refine congrArg (readState _ >>= ·) (funext fun handles => ?_)
  rcases outcome with (_ | _ | _) | _ <;> cases handles <;> rfl

/-- A failure is reported before the rule is left, and ends the walk. -/
lemma leaving_exitRule {start : RuleStart} {outcome o : Except Fault Unit}
    (hrun : exitRule start outcome r = some (o, r')) :
    ∃ ms s, Leaving k (Fault.ofOutcome outcome) r.state ms (Fault.ofOutcome o) s ∧
      r'.state = s.popFrame ∧ r'.trace = r.trace := by
  rw [exitRule_eq, bind_apply, readState_apply] at hrun
  refine Told.leaving_leave
    (fun result r₁ => Told.leaving_handling _ fun f hdepth hopen hfail => ?_) hrun
  obtain ⟨rfl, rfl⟩ := Prod.mk.inj (Option.some.inj hfail)
  exact ⟨⟨_, .giveUp hdepth hopen rfl (.refl _) (.refl _)⟩, rfl⟩

lemma told_call (rule : Rule) {body : Action Walker Unit} (hbody : Told k body) :
    Told k (call rule body) :=
  Told.call (fun _ _ => none) (fun _ _ _ => enters_enterRule) (fun _ => hbody)
    fun _ _ _ _ _ => leaving_exitRule

/-! ## Instructions and programs -/

lemma told_perform {g : Grammar WalkerInstruction}
    {run : Block WalkerInstruction → Action Walker Unit} {i : WalkerInstruction}
    (hrun : ∀ rule, Told k (run (g.body rule))) : Told k (perform g run i) := by
  have hnote (unit : Option (NodeId × NodeLabel)) : Told k (noteUnit unit) :=
    Told.note trivial
  cases i with
  | type type => exact (told_matchType type).bind hnote
  | set types => exact (told_matchSet types).bind hnote
  | any => exact told_matchAny.bind hnote
  | down => exact (told_matchType .down).discard
  | up => exact (told_matchType .up).discard
  | call rule => exact told_call (g.rule rule) (hrun rule)

/-- What has to be known of programs of a walker. -/
lemma telling {g : Grammar WalkerInstruction} {p : Statement WalkerInstruction → Prop}
    (hg : g.All p) (hraises : ∀ s, p s → s.Raises → k.raises)
    (hsets : ∀ s, p s → s.SetsDepth → k.sets) (hreframes : ∀ s, p s → s.Reframes → k.reframes)
    (hcatches : ∀ s, p s → s.Catches → k.catches)
    (hfloats : ∀ {fuel b}, g.Tries p b → Told k (run g fuel b) →
      k.sinks ∨ Within Floats (run g fuel b)) : Grammar.Telling k dialect g p where
  raises := hraises
  sets := hsets
  reframes := hreframes
  catches := hcatches
  floats := hfloats
  loses := NodeStream.losesMarks
  apart hx := hx
  apart_floats hx := hx
  perform hrun _ := told_perform fun rule => hrun _ (hg.body rule)

end Walker

end Lookahead
