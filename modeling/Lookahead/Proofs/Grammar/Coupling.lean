import Lookahead.Proofs.Coupling
import Lookahead.Proofs.Grammar.Run

/-!
# Two runs of one program

`Concord` lists what has to be known of the single things that statements do, in order to compare
two runs of a program: with two dialects, from two recognizers, and with more fuel on the second
side.  `run_of_concord` is the induction.

The relation between the recognizers comes with an index, since it is another one inside a
speculation.  `C` says for which indices the runs with some fuel are to be compared.
-/

namespace Lookahead.Grammar

open Action Recognizer

variable {S X ι : Type} [Cursor S] {F : Recognizer S X → Prop}

/-- All that statements do is paired, if their blocks are run by `run` and by `run'`. -/
structure Concord (F : Recognizer S X → Prop) (Q : Fault.Relation (Recognizer S X))
    (d d' : Dialect S X ι) (g : Grammar ι) (p : Statement ι → Prop)
    (run run' : Block ι → Action (Recognizer S X) Unit) (fuel fuel' : Nat) : Prop where
  block {b : Block ι} (hb : Block.All p b) : Paired F Q (run b) (run' b)
  lookahead (k : Int) : Paired F Q (lookahead k) (lookahead k)
  fail {α : Type} (kind : FailureKind) (expected : Option TokenSet) :
    Paired F Q (fail kind expected : Action (Recognizer S X) α) (fail kind expected)
  index : Paired F Q index index
  note (e : Event) (he : e.Decision) : Paired F Q (note e) (note e)
  evaluate (id : Nat) : Paired F Q (evaluate d g run id) (evaluate d' g run' id)
  predict (a : Automaton) : Paired F Q (predict (hooks d g run) a) (predict (hooks d' g run') a)
  synpred {b yes no : Block ι} (hs : p (.synpred b yes no)) (hb : Block.All p b) :
    Paired F Q (synpred (d.apart (run b))) (synpred (d'.apart (run' b)))
  speculating {raise : Bool} {ending : Cursor.GuardEnd} {b : Block ι}
    (hs : p (.speculating raise ending b)) (hb : Block.All p b) :
    Paired F Q (speculating raise ending (run b)) (speculating raise ending (run' b))
  attempt {b : Block ι} (hs : p (.attempt b)) (hb : Block.All p b) :
    Paired F Q (execute d g run fuel (.attempt b)) (execute d' g run' fuel' (.attempt b))
  plain {s : Statement ι} (hs : p s) (hplain : s.Plain) :
    Paired F Q (execute d g run fuel s) (execute d' g run' fuel' s)
  perform {i : ι} (hi : p (.perform i)) : Paired F Q (d.perform g run i) (d'.perform g run' i)

variable {Q : Fault.Relation (Recognizer S X)} {d d' : Dialect S X ι} {g : Grammar ι}
  {p : Statement ι → Prop} {run run' : Block ι → Action (Recognizer S X) Unit} {fuel fuel' : Nat}

omit [Cursor S] in
lemma repeating_paired {c c' : Action (Recognizer S X) Bool}
    {body body' : Action (Recognizer S X) Unit} (hc : Paired F Q c c')
    (hbody : Paired F Q body body') (hle : fuel ≤ fuel') :
    Paired F Q (repeating c body fuel) (repeating c' body' fuel') := by
  induction fuel generalizing fuel' with
  | zero => exact Couples.unending
  | succ fuel ih =>
    obtain ⟨fuel', rfl⟩ : ∃ n, fuel' = n + 1 := ⟨fuel' - 1, by omega⟩
    have hrest : Paired F Q (repeating c body fuel) (repeating c' body' fuel') := ih (by omega)
    exact hc.bind fun b => .ite (hbody.bind fun _ => hrest) (.pure _)

namespace Concord

variable (h : Concord F Q d d' g p run run' fuel fuel')

include h

lemma holds (test : LookaheadTest) :
    Paired F Q (holds test : Action (Recognizer S X) Bool) (holds test) :=
  (h.lookahead _).bind fun _ => .pure _

lemma predictAndRun (a : Automaton) {arms : List (Nat × Block ι)}
    (harms : ∀ b ∈ arms.map Prod.snd, Block.All p b) :
    Paired F Q (predictAndRun d g run a arms) (predictAndRun d' g run' a arms) := by
  unfold Grammar.predictAndRun predicted
  simp only [bind_assoc, pure_bind]
  refine h.index.bind fun index => (h.predict a).bind fun n => ?_
  refine (h.note (.predicted a.decision n index) trivial).bind fun _ => ?_
  split
  · rename_i block hblock
    obtain ⟨before, after, heq, -⟩ := List.lookup_eq_some_iff.1 hblock
    have hmem : block ∈ arms.map Prod.snd := List.mem_map.2 ⟨(n, block), by simp [heq], rfl⟩
    exact (h.block (harms block hmem)).bind fun _ => .pure _
  · exact .pure _

lemma chosen (distance : Int) {otherwise : Block ι} {arms : List (List TokenType × Block ι)}
    (hall : ∀ b ∈ otherwise :: arms.map Prod.snd, Block.All p b) :
    Paired F Q (chosen distance otherwise arms >>= run)
      (chosen distance otherwise arms >>= run') := by
  induction arms with
  | nil => exact h.block (hall otherwise (by simp))
  | cons arm rest ih =>
    obtain ⟨types, block⟩ := arm
    rw [Grammar.chosen, bind_assoc, bind_assoc]
    refine (h.holds _).bind fun holds => ?_
    split
    · exact h.block (hall block (by simp))
    · refine ih fun b hb => hall b ?_
      rcases List.mem_cons.1 hb with rfl | hb
      · simp
      · simp [hb]

/-- One statement. -/
lemma execute (hle : fuel ≤ fuel') {s : Statement ι} (hs : s.All p) :
    Paired F Q (execute d g run fuel s) (execute d' g run' fuel' s) := by
  have hblock {b : Block ι} (hb : b ∈ s.blocks) : Paired F Q (run b) (run' b) :=
    h.block (hs.block hb)
  have harms (b : Block ι) (hb : b ∈ s.blocks) : Block.All p b := hs.block hb
  obtain ⟨here, -⟩ := hs
  cases s with
  | ifHolds test yes no =>
    exact (h.holds test).bind fun _ =>
      .ite (hblock (by simp [Statement.blocks])) (hblock (by simp [Statement.blocks]))
  | whileHolds test body =>
    exact repeating_paired (h.holds test) (hblock (by simp [Statement.blocks])) hle
  | untilHolds test body =>
    exact repeating_paired ((h.holds test).map _) (hblock (by simp [Statement.blocks])) hle
  | oneOrMore decision test body =>
    have hbody : Paired F Q (run body) (run' body) := hblock (by simp [Statement.blocks])
    exact (h.holds test).bind fun _ =>
      .ite (hbody.bind fun _ => repeating_paired (h.holds test) hbody hle) (h.fail _ _)
  | switch distance arms otherwise => exact h.chosen distance harms
  | predict automaton arms => exact (h.predictAndRun automaton harms).discard
  | loop automaton arms =>
    exact repeating_paired (h.predictAndRun automaton harms) (.pure _) hle
  | require predicate rule text =>
    exact (h.evaluate predicate).bind fun _ => .ite (.pure _) (h.fail _ _)
  | synpred fragment yes no =>
    refine (h.synpred here (harms fragment (by simp [Statement.blocks]))).bind fun holds => ?_
    exact (h.note (.tried holds) trivial).bind fun _ =>
      .ite (hblock (by simp [Statement.blocks])) (hblock (by simp [Statement.blocks]))
  | speculating raise ending body =>
    exact h.speculating here (harms body (by simp [Statement.blocks]))
  | attempt body => exact h.attempt here (harms body (by simp [Statement.blocks]))
  | earlyExit decision => exact h.fail _ _
  | mark | rewind | release | consume | seek | setBacktracking | setLastError | pushFrame
  | popFrame | observe => exact h.plain here trivial
  | perform i => exact h.perform here

end Concord

/-- **Two runs of a program are paired if their statements are.** It is enough that the statements
of blocks are paired under the assumption that the runs with less fuel are. `C` says which amounts
of fuel go together, for each of the relations `Q i`. -/
theorem run_of_concord {I : Type} {C : I → Nat → Nat → Prop}
    {Q : I → Fault.Relation (Recognizer S X)}
    (h : ∀ fuel fuel', fuel ≤ fuel' →
      (∀ i b, C i fuel fuel' → Block.All p b → Paired F (Q i) (g.run d fuel b) (g.run d' fuel' b)) →
      ∀ i, C i (fuel + 1) (fuel' + 1) →
        Concord F (Q i) d d' g p (g.run d fuel) (g.run d' fuel') fuel fuel')
    (hle : fuel ≤ fuel') {i : I} (hC : C i fuel fuel') {block : Block ι}
    (hblock : Block.All p block) : Paired F (Q i) (g.run d fuel block) (g.run d' fuel' block) := by
  induction fuel generalizing fuel' i block with
  | zero => exact Couples.unending
  | succ fuel ih =>
    obtain ⟨fuel', rfl⟩ : ∃ n, fuel' = n + 1 := ⟨fuel' - 1, by omega⟩
    have hle' : fuel ≤ fuel' := Nat.le_of_succ_le_succ hle
    have hconcord := h fuel fuel' hle' (fun i b hi hb => ih hle' hi hb) i hC
    exact .forM fun s hs => hconcord.execute hle' (hblock s hs)

end Lookahead.Grammar
