import Lookahead.Proofs.Parser.Twins

/-!
# Speculations in lockstep

Two parsers in lockstep begin a speculation together, run paired bodies, and go back together.  The
marks that they go back to need not be the same, but each parser's own is the last one open.  Going
back brings the parsers abreast again, even if a failed match has left them at different places.

Predictions speculate only if they are not too deep for it.  The plain run is never too deep.  If
its twin is, then the plain run's speculation is not fair, and nothing has to be shown
(`not_fair_of_visiting`).
-/

namespace Lookahead

open Action Cursor Recognizer

variable {σ : Type} [TokenSource σ] {α : Type}

lemma State.Similar.raised {s s' : State} (h : s.Similar s') (f : Nat → Nat) :
    State.Similar { s with backtracking := f s.backtracking }
      { s' with backtracking := f s'.backtracking } := by
  obtain ⟨failed, memo, memoize, depth, rfl⟩ := h
  exact ⟨_, _, _, _, rfl⟩

namespace Parser

variable {c : Trial} {i : Stage} {fault : Option Fault} {r r₁ s s₁ : Parser σ} {raise : Bool}

/-! ## Guards -/

/-- Where two parsers are that have taken a mark each. -/
def Stage.under (i : Stage) (raise : Bool) (t t' : TokenStream σ) : Stage :=
  { i with
    depth := i.depth + raise.toNat
    depth' := i.depth' + raise.toNat
    marks := (Cursor.mark t).2.marks.entries
    marks' := (Cursor.mark t').2.marks.entries }

lemma input_mark (t : TokenStream σ) : View.input (Cursor.mark t).2 = View.input t :=
  (TokenStream.input_marked _ _).trans (TokenStream.wanders_start t).input_eq

namespace Facing

variable {t t' t₁ t₁' : TokenStream σ}

lemma begun (h : Facing i none t t') (raise : Bool) :
    Facing (i.under raise t t') none (Cursor.mark t).2 (Cursor.mark t').2 := by
  have habreast := (h.abreast (.inl rfl)).mark
  refine ⟨habreast.toParallel, (input_mark t).trans h.input_eq, fun _ => habreast,
    fun _ => ⟨?_, ?_⟩, TokenStream.Numbered.of_input_eq h.numbered (input_mark t), rfl, rfl⟩
  · exact TokenStream.started_start t
  · exact TokenStream.started_start t'

/-- Both guards end.  If they go back then the streams stand abreast, whatever has happened. -/
lemma ended (h : Facing i none t t') (h₁ : Facing (i.under raise t t') fault t₁ t₁')
    {ending : GuardEnd} (hkeep : raise = true → ending ≠ .keep) :
    ∃ u u', Cursor.endGuard t₁ (Cursor.mark t).1 ending = (.ok (), u) ∧
      Cursor.endGuard t₁' (Cursor.mark t').1 ending = (.ok (), u') ∧ Facing i fault u u' ∧
      (ending ≠ .keep → u.Abreast u') := by
  have hmarked : 0 < (i.under raise t t').depth ∨ (i.under raise t t').marks ≠ [] :=
    .inr (by simp [Stage.under, Cursor.mark, MarkStack.push])
  obtain ⟨hstarted, hstarted'⟩ := h₁.started hmarked
  have hinput : View.input t₁ = View.input t := h₁.input_eq.trans h.input_eq.symm
  have hinput' : View.input t₁' = View.input t' := by
    rw [h₁.parallel.input_eq, hinput, h.parallel.input_eq]
  obtain ⟨u, hu, huReady, huInput, huMarks, huPlace⟩ := TokenStream.endGuard_of_marks_eq
    h.parallel.orderly (h₁.parallel.orderly.onToken hstarted) hinput h₁.marks_eq ending
  obtain ⟨u', hu', huReady', huInput', huMarks', huPlace'⟩ := TokenStream.endGuard_of_marks_eq
    h.parallel.orderly' (h₁.parallel.orderly'.onToken hstarted') hinput' h₁.marks_eq' ending
  have hparallel : u.Parallel u' :=
    ⟨huReady.orderly, huReady'.orderly, by rw [huInput', huInput, h.parallel.input_eq]⟩
  have habreast (hplace : u'.place = u.place) : u.Abreast u' :=
    ⟨hparallel, huReady'.started.trans huReady.started.symm, hplace⟩
  have hback (hending : ending ≠ .keep) : u.Abreast u' := by
    rw [if_neg hending] at huPlace huPlace'
    refine habreast ?_
    rw [huPlace', huPlace]
    exact (h.abreast (.inl rfl)).start.place_eq
  refine ⟨u, u', hu, hu', ⟨hparallel, huInput.trans h.input_eq, fun hfault => ?_,
    fun _ => ⟨huReady.started, huReady'.started⟩,
    TokenStream.Numbered.of_input_eq h.numbered huInput, huMarks.trans h.marks_eq,
    huMarks'.trans h.marks_eq'⟩, hback⟩
  by_cases hending : ending = .keep
  · cases raise with
    | true => exact absurd hending (hkeep rfl)
    | false =>
      rw [if_pos hending] at huPlace huPlace'
      refine habreast ?_
      rw [huPlace', huPlace]
      exact (h₁.abreast hfault).place_eq
  · exact hback hending

end Facing

namespace Tied

lemma begun (h : Tied c i none r s) (raise : Bool) :
    Tied c (i.under raise r.input s.input) none (Recognizer.begun raise r)
      (Recognizer.begun raise s) := by
  constructor
  case facing => exact h.facing.begun raise
  case counterparts =>
    refine ⟨h.counterparts.options_eq, h.counterparts.options_eq', ?_, ?_, fun htwin => ?_⟩
    · exact congrArg (· + raise.toNat) h.counterparts.depth_eq
    · exact congrArg (· + raise.toNat) h.counterparts.depth_eq'
    · exact (h.counterparts.similar htwin).raised (· + raise.toNat)
  case root_eq => exact h.root_eq
  case tree_eq => exact h.tree_eq
  case depth_eq => exact fun htwin => congrArg (· + raise.toNat) (h.depth_eq htwin)
  case pos =>
    intro htwin
    obtain ⟨hpos, hpos'⟩ := h.pos htwin
    exact ⟨Nat.add_pos_left hpos _, Nat.add_pos_left hpos' _⟩
  case shallow => exact fun _ hf => by cases hf
  case recalls =>
    exact fun htwin hmisuse => (h.recalls htwin hmisuse).of_input_eq (input_mark s.input)

/-- Both parsers end their guards. -/
lemma ended (h : Tied c i none r s) (h₁ : Tied c (i.under raise r.input s.input) fault r₁ s₁)
    {ending : GuardEnd} (hkeep : raise = true → ending ≠ .keep) :
    ∃ u u', Cursor.endGuard r₁.input (Cursor.mark r.input).1 ending = (.ok (), u) ∧
      Cursor.endGuard s₁.input (Cursor.mark s.input).1 ending = (.ok (), u') ∧
      Tied c i fault (Recognizer.ended raise u r₁) (Recognizer.ended raise u' s₁) ∧
      (ending ≠ .keep → u.Abreast u') := by
  obtain ⟨u, u', hu, hu', hfacing, hback⟩ := h.facing.ended h₁.facing hkeep
  have hinput : View.input u' = View.input s₁.input := by
    rw [hfacing.parallel.input_eq, hfacing.input_eq, h₁.facing.parallel.input_eq,
      h₁.facing.input_eq]
    rfl
  refine ⟨u, u', hu, hu', ?_, hback⟩
  constructor
  case facing => exact hfacing
  case counterparts =>
    refine ⟨h₁.counterparts.options_eq, h₁.counterparts.options_eq', ?_, ?_, fun htwin => ?_⟩
    · exact Nat.sub_eq_of_eq_add h₁.counterparts.depth_eq
    · exact Nat.sub_eq_of_eq_add h₁.counterparts.depth_eq'
    · exact (h₁.counterparts.similar htwin).raised (· - raise.toNat)
  case root_eq => exact h₁.root_eq
  case tree_eq => exact h₁.tree_eq
  case depth_eq => exact h.depth_eq
  case pos => exact h.pos
  case shallow => exact fun f hf => (Nat.add_eq_zero_iff.1 (h₁.shallow f hf)).1
  case recalls =>
    exact fun htwin hmisuse => (h₁.recalls htwin hmisuse).of_input_eq hinput

end Tied

/-- Speculations of paired bodies.  What the bodies leave behind may be judged by more than their
outcome. -/
lemma couples_speculating {x y : Action (Parser σ) α} {e : Except Fault α → Option Fault}
    {ending : GuardEnd} (hkeep : raise = true → ending ≠ .keep)
    (hxy : ∀ j : Stage, j.depth = i.depth + raise.toNat → j.depth' = i.depth' + raise.toNat →
      Couples (Fair c.limit) (Tied c j none) x y fun o => Tied c j (e o)) :
    Couples (Fair c.limit) (Tied c i none) (speculating raise ending x)
      (speculating raise ending y) fun o r s =>
        Tied c i (e o) r s ∧ (ending ≠ .keep → r.input.Abreast s.input) := by
  have hfades : Within (Fades (Fair c.limit)) x :=
    (hxy { i with depth := i.depth + raise.toNat, depth' := i.depth' + raise.toNat } rfl rfl).fades
  have hspec {z : Action (Parser σ) α} {r r' : Parser σ} {o : Except Fault α}
      (hrun : speculating raise ending z r = some (o, r')) :
      ∃ outcome r₁, z (begun raise r) = some (outcome, r₁) := by
    rw [speculating_apply] at hrun
    rcases hbody : z (begun raise r) with _ | ⟨outcome, r₁⟩
    · simp [hbody] at hrun
    · exact ⟨outcome, r₁, rfl⟩
  constructor
  · intro r o r' hrun
    obtain ⟨outcome, r₁, hbody⟩ := hspec hrun
    rw [speculating_apply, hbody, Option.bind_some] at hrun
    obtain ⟨-, rfl⟩ := Prod.mk.inj (Option.some.inj hrun)
    intro hfair
    have hbegun := hfades hbody hfair
    exact hbegun
  · intro r o r' hrun hfair s h
    obtain ⟨outcome, r₁, hbody⟩ := hspec hrun
    rw [speculating_apply, hbody, Option.bind_some] at hrun
    have hfair₁ : Fair c.limit r₁ := by
      obtain ⟨-, rfl⟩ := Prod.mk.inj (Option.some.inj hrun)
      exact hfair
    obtain ⟨s₁, hbody', h₁⟩ := (hxy (i.under raise r.input s.input) rfl rfl).follows hbody hfair₁ _
      (h.begun raise)
    obtain ⟨u, u', hu, hu', hended, hback⟩ := h.ended h₁ hkeep
    simp only [hu] at hrun
    obtain ⟨rfl, rfl⟩ := Prod.mk.inj (Option.some.inj hrun)
    refine ⟨Recognizer.ended raise u' s₁, ?_, hended, hback⟩
    rw [speculating_apply, hbody', Option.bind_some]
    simp only [hu']

lemma lockstep_speculating {x y : Action (Parser σ) α} {ending : GuardEnd}
    (hkeep : raise = true → ending ≠ .keep)
    (hxy : ∀ j : Stage, j.depth = i.depth + raise.toNat → j.depth' = i.depth' + raise.toNat →
      Lockstep c j x y) :
    Lockstep c i (speculating raise ending x) (speculating raise ending y) :=
  (couples_speculating hkeep hxy).mono (fun _ _ h => h) fun _ _ _ h => h.1

/-- A syntactic predicate forgets what went wrong, unless it was a misuse. -/
lemma lockstep_synpred {x y : Action (Parser σ) Unit}
    (hxy : ∀ j : Stage, j.depth = i.depth + 1 → j.depth' = i.depth' + 1 → Lockstep c j x y) :
    Lockstep c i (synpred x) (synpred y) := by
  have hmodest : State.Modest fun s => { s with failed := false } :=
    State.modest_of (fun _ => rfl) (fun _ => rfl) (fun _ => rfl) fun _ _ _ _ _ =>
      ⟨_, _, _, _, rfl⟩
  have hbody (j : Stage) (hj : j.depth = i.depth + 1) (hj' : j.depth' = i.depth' + 1) :
      Couples (Fair c.limit) (Tied c j none) (do
          let outcome ← x.attempt
          .update cleared
          return outcome) (do
          let outcome ← y.attempt
          .update cleared
          return outcome) fun o => Tied c j (match o with
            | .ok outcome => Fault.ofOutcome outcome
            | .error fault => some fault) := by
    refine Couples.attempt_bind (hxy j hj hj') fun o => ?_
    exact Couples.update_bind (fun _ => fades_of_trace_eq rfl) (fun _ _ h => h.updated hmodest)
      (Couples.ofExcept (o := .ok o) fun _ _ h => h)
  rw [synpred_eq, synpred_eq]
  refine (couples_speculating (fun _ h => by cases h) hbody).bind (fun o => ?_) fun _ _ _ h => h.1
  refine Couples.ofExcept fun r s ⟨htied, habreast⟩ => ?_
  refine htied.settled (habreast (by simp)) ?_ ?_
  all_goals
    rcases o with (_ | _ | _) | _ <;> simp [answer, Fault.ofOutcome]

/-! ## Decisions

The blocks of a program are run by `run` and `run'`, which are in lockstep where there is room. -/

/-- Runs with so much fuel do not come to the bound of a plain run. -/
structure Room (c : Trial) (i : Stage) (fuel fuel' : Nat) : Prop where
  le : i.depth + fuel ≤ c.bound
  le' : c.twin = false → i.depth' + fuel' ≤ c.bound

lemma Room.below {fuel fuel' : Nat} {j : Stage} (h : Room c i (fuel + 1) (fuel' + 1))
    (hj : j.depth ≤ i.depth + 1) (hj' : j.depth' ≤ i.depth' + 1) : Room c j fuel fuel' := by
  refine ⟨?_, fun htwin => ?_⟩
  · have := h.le
    omega
  · have := h.le' htwin
    omega

section

variable {fuel fuel' : Nat} {run run' : Block ParserInstruction → Action (Parser σ) Unit}
  (hg : c.grammar.All Statement.Repeatable) (hpositional : c.grammar.Positional)
  (hblocks : ∀ j b, Room c j fuel fuel' → Block.All Statement.Repeatable b →
    Lockstep c j (run b) (run' b))

include hg hblocks

include hpositional in
lemma lockstep_evaluate (hroom : Room c i fuel fuel') (id : Nat) :
    Lockstep c i (Grammar.evaluate watchful c.grammar run id)
      (Grammar.evaluate dialect c.grammar run' id) := by
  unfold Grammar.evaluate
  rcases hpredicate : c.grammar.predicate? id with _ | predicate
  · exact lockstep_fault fun _ h => by cases h
  · refine lockstep_index.bind fun index => ?_
    have hdone (value : Bool) : Lockstep c i (do
        note (.evaluated id index value)
        return value : Action (Parser σ) Bool) (do
        note (.evaluated id index value)
        return value) :=
      (lockstep_note _ _).bind fun _ => .pure value
    cases predicate with
    | constant value => exact hdone value
    | text texts => exact lockstep_symbol.bind fun token => hdone (texts.contains token.text)
    | lookahead test =>
      exact (lockstep_lookahead _).bind fun type => hdone (test.types.contains type)
    | consume value => exact lockstep_consume.bind fun _ => hdone value
    | depth least => exact absurd hpredicate (hpositional id least)
    | run block =>
      have hblock := hblocks i block hroom (hg.predicate hpredicate)
      exact (lockstep_apart hblock).bind fun _ => hdone true

omit hg hblocks in
/-- A speculation notes first how deep it is. -/
lemma speculate_eq (d : Dialect (TokenStream σ) TreeBuilder ParserInstruction) (decision n : Nat) :
    Grammar.speculate d c.grammar run decision n =
      .update (remarked fun r =>
        .speculated decision n (Cursor.index r.input) r.state.backtracking) >>= fun _ =>
      match c.grammar.simulation? decision n with
      | some block => d.apart (run block)
      | none => .fault (.misuse (.noSimulation decision n)) := by
  unfold Grammar.speculate
  cases c.grammar.simulation? decision n <;> rfl

lemma lockstep_simulation (hroom : Room c i fuel fuel') (decision n : Nat) :
    Lockstep c i (match c.grammar.simulation? decision n with
      | some block => watchful.apart (run block)
      | none => .fault (.misuse (.noSimulation decision n)))
      (match c.grammar.simulation? decision n with
      | some block => dialect.apart (run' block)
      | none => .fault (.misuse (.noSimulation decision n))) := by
  rcases hblock : c.grammar.simulation? decision n with _ | block
  · exact lockstep_fault fun _ h => by cases h
  · exact lockstep_apart (hblocks i block hroom (hg.simulation hblock))

lemma lockstep_speculate (hroom : Room c i fuel fuel') (decision n : Nat) :
    Lockstep c i (Grammar.speculate watchful c.grammar run decision n)
      (Grammar.speculate dialect c.grammar run' decision n) := by
  rw [speculate_eq, speculate_eq]
  exact couples_remark (lockstep_simulation hg hblocks hroom decision n)

/-- A speculation that is nested too deep is not fair. -/
lemma not_fair_of_visiting {r r' : Parser σ} (hr : c.limit ≤ r.state.backtracking)
    (hroom : Room c i fuel fuel') {decision n start : Nat} {o : Except Fault Bool}
    (h : visiting start (synpred (Grammar.speculate watchful c.grammar run decision n)) r =
      some (o, r')) : ¬Fair c.limit r' := by
  simp only [visiting, bind_apply, index_apply, seek_apply, attempt_apply] at h
  rcases hsynpred : synpred (Grammar.speculate watchful c.grammar run decision n)
      { r with input := Cursor.seek r.input start } with _ | ⟨result, r₁⟩
  · simp [hsynpred] at h
  · simp only [hsynpred, Option.map_some, ofExcept_apply] at h
    obtain ⟨-, rfl⟩ := Prod.mk.inj (Option.some.inj h)
    obtain ⟨outcome, r₂, hspeculate, htrace⟩ := synpred_trace hsynpred
    intro hfair
    have hfades : Fades (Fair c.limit) r₂ r₁ := fades_of_trace_eq htrace
    rw [speculate_eq] at hspeculate
    have hnoted := (lockstep_simulation hg hblocks hroom decision n).fades hspeculate (hfades hfair)
    have hdepth : r.state.backtracking + 1 ≤ c.limit := (fair_push.1 hnoted).2
    omega

lemma lockstep_simulate (hroom : Room c i (fuel + 1) (fuel' + 1)) (a : Automaton) (start : Nat)
    (alternatives : List Nat) :
    Lockstep c i (simulate (Grammar.hooks watchful c.grammar run) a start alternatives)
      (simulate (Grammar.hooks dialect c.grammar run') a start alternatives) := by
  have hparsing (tryAll : Bool) (ns : List Nat) : Lockstep c i
      (firstParsing (Grammar.hooks watchful c.grammar run) a.decision start tryAll ns)
      (firstParsing (Grammar.hooks dialect c.grammar run') a.decision start tryAll ns) := by
    refine firstParsing_paired _ _ (fun n => lockstep_visiting (lockstep_synpred ?_) start) ns
    intro j hj hj'
    exact lockstep_speculate hg hblocks (hroom.below (by omega) (by omega)) _ n
  have hfades : Within (Fades (Fair c.limit))
      (simulate (Grammar.hooks watchful c.grammar run) a start alternatives) :=
    (Within.read _).bind fun options => (Within.read _).bind fun depth =>
      Within.ite (Within.pure none) (hparsing _ _).fades
  -- the first parser is never held back
  have hleft {r s : Parser σ} (h : Tied c i none r s) :
      simulate (Grammar.hooks watchful c.grammar run) a start alternatives r =
        firstParsing (Grammar.hooks watchful c.grammar run) a.decision start
          c.options.reportAmbiguities (Automaton.ascending alternatives) r := by
    have hbound : ¬c.bound ≤ i.depth := by
      have := hroom.le
      omega
    simp only [simulate, bind_apply, readState_apply, h.counterparts.options_eq,
      h.counterparts.depth_eq]
    exact congrFun (if_neg hbound) r
  have hright {r s : Parser σ} (h : Tied c i none r s) :
      simulate (Grammar.hooks dialect c.grammar run') a start alternatives s =
        if c.second.maxSpeculationDepth ≤ i.depth' then some (.ok none, s)
        else firstParsing (Grammar.hooks dialect c.grammar run') a.decision start
          c.options.reportAmbiguities (Automaton.ascending alternatives) s := by
    have hreport : c.second.reportAmbiguities = c.options.reportAmbiguities := by
      unfold Trial.second
      split <;> rfl
    simp only [simulate, bind_apply, readState_apply, h.counterparts.options_eq',
      h.counterparts.depth_eq', hreport]
    split <;> rfl
  by_cases hskip : c.second.maxSpeculationDepth ≤ i.depth'
  · -- the second one is, so that the first one speculates deeper than is fair
    refine ⟨hfades, fun r o r' hrun hfair s h => ?_⟩
    have htwin : c.twin = true := by
      by_contra htwin
      have := hroom.le' (by simpa using htwin)
      simp only [Trial.second, htwin] at hskip
      change c.bound ≤ i.depth' at hskip
      omega
    have hdepth : c.limit ≤ r.state.backtracking := by
      rw [h.counterparts.depth_eq, ← h.depth_eq htwin]
      simpa only [Trial.second, htwin, if_true] using hskip
    rw [hright h, if_pos hskip]
    rw [hleft h] at hrun
    rcases hns : Automaton.ascending alternatives with _ | ⟨n, rest⟩
    · rw [hns] at hrun
      obtain ⟨rfl, rfl⟩ := Prod.mk.inj (Option.some.inj hrun)
      exact ⟨s, rfl, h⟩
    · rw [hns, firstParsing] at hrun
      have hvisited : ∃ o r₁, visiting start (synpred
          (Grammar.speculate watchful c.grammar run a.decision n)) r = some (o, r₁) ∧
            Fades (Fair c.limit) r₁ r' := by
        rcases bind_eq_some.1 hrun with ⟨parses, r₁, hvisit, hrest⟩ | ⟨e, hvisit, -⟩
        · refine ⟨_, r₁, hvisit, Within.ite (Within.ite ?_ (Within.pure _)) ?_ hrest⟩
          · exact (hparsing _ rest).fades.discard.bind fun _ => Within.pure _
          · exact (hparsing _ rest).fades
        · exact ⟨_, r', hvisit, refl_of _ r'⟩
      obtain ⟨o₁, r₁, hvisit, hback⟩ := hvisited
      have hroom' : Room c i fuel fuel' := hroom.below (by omega) (by omega)
      exact absurd (hback hfair) (not_fair_of_visiting hg hblocks hdepth hroom' hvisit)
  · refine (hparsing c.options.reportAmbiguities _).of_eq hfades fun r s h => ⟨hleft h, ?_⟩
    rw [hright h, if_neg hskip]

include hpositional in
lemma lockstep_predict (hroom : Room c i (fuel + 1) (fuel' + 1)) (a : Automaton) :
    Lockstep c i (predict (Grammar.hooks watchful c.grammar run) a)
      (predict (Grammar.hooks dialect c.grammar run') a) := by
  refine lockstep_speculating (fun h => by cases h) fun j hj hj' => ?_
  rw [Bool.toNat_false, Nat.add_zero] at hj hj'
  have hroomHere : Room c j (fuel + 1) (fuel' + 1) := by
    refine ⟨?_, ?_⟩
    · rw [hj]
      exact hroom.le
    · rw [hj']
      exact hroom.le'
  refine lockstep_index.bind fun start => ?_
  have hpartners : Partners (Fair c.limit) (Tied c j) start
      (Grammar.hooks watchful c.grammar run) (Grammar.hooks dialect c.grammar run') :=
    { lookahead := lockstep_lookahead 1
      consume := lockstep_consume
      fail := lockstep_fail
      misuse := fun cause => lockstep_fault fun _ h => by cases h
      predicate := fun id => lockstep_visiting
        (lockstep_evaluate hg hpositional hblocks (hroomHere.below (by omega) (by omega)) id) start
      simulate := fun a alternatives =>
        lockstep_simulate hg hblocks hroomHere a start alternatives }
  show Lockstep c j
    (readState (fun s => s.options.maxLookahead) >>= fun budget =>
      walk (Grammar.hooks watchful c.grammar run) a start budget 0)
    (readState (fun s => s.options.maxLookahead) >>= fun budget =>
      walk (Grammar.hooks dialect c.grammar run') a start budget 0)
  refine Couples.read_bind (fun r s h => ?_) fun budget => hpartners.walk a budget 0
  show s.state.options.maxLookahead = r.state.options.maxLookahead
  have hsecond : c.second.maxLookahead = c.plain.maxLookahead := by
    unfold Trial.second
    split <;> rfl
  rw [h.counterparts.options_eq, h.counterparts.options_eq', hsecond]

end

/-! ## Statements without blocks -/

lemma lockstep_plain {g : Grammar ParserInstruction} {fuel fuel' : Nat}
    {run run' : Block ParserInstruction → Action (Parser σ) Unit}
    {t : Statement ParserInstruction} (ht : t.Repeatable) (hplain : t.Plain) :
    Lockstep c i (Grammar.execute watchful g run fuel t)
      (Grammar.execute dialect g run' fuel' t) := by
  cases t with
  | consume => exact lockstep_consume
  | seek n => exact lockstep_seek n
  | observe =>
    have heq : (do note (.observed (← snapshot)) : Action (Parser σ) Unit) = (do
        let n ← index
        let type ← lookahead 1
        .update (remarked fun r => .observed ⟨n, type, Cursor.markDepth r.input, r.state⟩)) := rfl
    show Lockstep c i (do note (.observed (← snapshot))) (do note (.observed (← snapshot)))
    rw [heq]
    exact lockstep_index.bind fun _ => (lockstep_lookahead 1).bind fun _ =>
      lockstep_update (fun _ => fades_push) fun _ _ h => h.traced
  | mark | rewind | release | setBacktracking | setLastError | pushFrame | popFrame => exact ht.elim
  | ifHolds | whileHolds | untilHolds | oneOrMore | switch | predict | loop | require | synpred
  | speculating | attempt | earlyExit | perform => exact hplain.elim

/-- What comes of a failed match is not gone on from in a fair run. -/
lemma lockstep_attempt {g : Grammar ParserInstruction} {fuel fuel' : Nat}
    {run run' : Block ParserInstruction → Action (Parser σ) Unit}
    {b : Block ParserInstruction} (hb : Lockstep c i (run b) (run' b)) :
    Lockstep c i (Grammar.execute watchful g run fuel (.attempt b))
      (Grammar.execute dialect g run' fuel' (.attempt b)) := by
  refine Couples.attempt_bind hb fun o => ?_
  rcases o with fault | _
  · refine ⟨Within.update fun _ => fades_push, fun r o r' hrun hfair s h => ?_⟩
    obtain ⟨rfl, rfl⟩ := Prod.mk.inj (Option.some.inj hrun)
    obtain ⟨-, f, rfl⟩ := fair_push.1 hfair
    exact ⟨_, rfl, (h.of_depth (h.shallow f rfl) fun _ hcause => by cases hcause).traced⟩
  · exact lockstep_note _ _

end Parser

end Lookahead
