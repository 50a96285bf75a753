import Lookahead.Proofs.Recognizer.Depth

/-!
# What runs of programs pass through

What a program passes through is said by `Visits`: the recognizers between its statements, and those
with which the statements begin blocks of their own, however deep.  That a statement begins a block
with a recognizer is seen by changing what the block does there (`Begins`), so that nothing has to
come to an end for it.  Where it matters how much a run can do, `VisitsWithin` says it with the
fuel.

Tiers that all statements of a program keep (`Tier`) hold of everything that it passes through, one
level deeper inside of its speculations: a statement comes to the same whatever its blocks would do
with other recognizers (`Tier.begins`).

If predictions are the only way to speculate, then the depth of backtracking is never beyond the
bound, and every prediction leaves it as it was (`Levelled.depthBounded`).
-/

namespace Lookahead

open Action Recognizer

variable {S X ι : Type} [Cursor S]

/-- A statement that enters speculation by predictions only, and leaves the depth of backtracking to
them.  A guard that does not raise the depth is no speculation. -/
def Statement.OnlyPredicts : Statement ι → Prop
  | .synpred _ _ _ | .setBacktracking _ => False
  | .speculating raise _ _ => raise = false
  | _ => True

namespace Grammar

/-! ## What runs pass through -/

/-- Executing `s` with `r` begins the block `b` with `r₁`: it matters what `b` does there. -/
def Begins (d : Dialect S X ι) (g : Grammar ι) (s : Statement ι) (r : Recognizer S X)
    (b : Block ι) (r₁ : Recognizer S X) : Prop :=
  ∃ (fuel : ℕ) (run : Block ι → Action (Recognizer S X) Unit),
    (∀ b' r', ¬ (b' = b ∧ r' = r₁) → run b' r' = g.run d fuel b' r') ∧
      execute d g run fuel s r ≠ execute d g (g.run d fuel) fuel s r

/-- With so much fuel, executing `s` with `r` begins the block `b` with `r₁`. -/
def BeginsWithin (d : Dialect S X ι) (g : Grammar ι) (fuel : ℕ) (s : Statement ι)
    (r : Recognizer S X) (b : Block ι) (r₁ : Recognizer S X) : Prop :=
  ∃ run : Block ι → Action (Recognizer S X) Unit,
    (∀ b' r', ¬ (b' = b ∧ r' = r₁) → run b' r' = g.run d fuel b' r') ∧
      execute d g run fuel s r ≠ execute d g (g.run d fuel) fuel s r

/-- Running a block with `r` passes through `r'`, at the start, between statements, at the end, or
inside the blocks that statements begin. The run need not come to an end. -/
inductive Visits (d : Dialect S X ι) (g : Grammar ι) :
    Block ι → Recognizer S X → Recognizer S X → Prop
  | start (b : Block ι) (r : Recognizer S X) : Visits d g b r r
  /-- A statement comes to an end, with a fault or without. -/
  | finish {fuel : ℕ} {s : Statement ι} {rest : Block ι} {r r' : Recognizer S X}
      {o : Except Fault Unit} (hs : execute d g (g.run d fuel) fuel s r = some (o, r')) :
      Visits d g (s :: rest) r r'
  | next {fuel : ℕ} {s : Statement ι} {rest : Block ι} {r r₁ r' : Recognizer S X}
      (hs : execute d g (g.run d fuel) fuel s r = some (.ok (), r₁))
      (hrest : Visits d g rest r₁ r') : Visits d g (s :: rest) r r'
  | inside {s : Statement ι} {b rest : Block ι} {r r₁ r' : Recognizer S X}
      (hs : Begins d g s r b r₁) (hb : Visits d g b r₁ r') : Visits d g (s :: rest) r r'

/-- With so much fuel, running a block with `r` passes through `r'`; this is `Visits` with the fuel
of every part made explicit. -/
inductive VisitsWithin (d : Dialect S X ι) (g : Grammar ι) :
    ℕ → Block ι → Recognizer S X → Recognizer S X → Prop
  | start (fuel : ℕ) (b : Block ι) (r : Recognizer S X) : VisitsWithin d g fuel b r r
  /-- A statement comes to an end, with a fault or without. -/
  | finish {fuel : ℕ} {s : Statement ι} {rest : Block ι} {r r' : Recognizer S X}
      {o : Except Fault Unit} (hs : execute d g (g.run d fuel) fuel s r = some (o, r')) :
      VisitsWithin d g (fuel + 1) (s :: rest) r r'
  | next {fuel : ℕ} {s : Statement ι} {rest : Block ι} {r r₁ r' : Recognizer S X}
      (hs : execute d g (g.run d fuel) fuel s r = some (.ok (), r₁))
      (hrest : VisitsWithin d g (fuel + 1) rest r₁ r') : VisitsWithin d g (fuel + 1) (s :: rest) r r'
  | inside {fuel : ℕ} {s : Statement ι} {b rest : Block ι} {r r₁ r' : Recognizer S X}
      (hs : BeginsWithin d g fuel s r b r₁) (hb : VisitsWithin d g fuel b r₁ r') :
      VisitsWithin d g (fuel + 1) (s :: rest) r r'

/-! ## Programs that keep a tier -/

/-- What only one kind of recognizer does is at one depth, and hangs on what the bodies of rules do
with recognizers that little has been done to. -/
structure Levelled (d : Dialect S X ι) (g : Grammar ι) : Prop where
  apart {P : ℕ → Recognizer S X → Prop} {n : ℕ} {x y : Action (Recognizer S X) Unit}
    (hP : Tiers P) (h : Agrees P n x y) : Agrees P n (d.apart x) (d.apart y)
  perform_eq {run run' : Block ι → Action (Recognizer S X) Unit} {r : Recognizer S X}
    (h : ∀ n r₀, Undisturbed r r₀ → run (g.body n) r₀ = run' (g.body n) r₀) (i : ι) :
    d.perform g run i r = d.perform g run' i r
  perform_levels {run : Block ι → Action (Recognizer S X) Unit}
    (h : ∀ n, Within Levels (run (g.body n))) (i : ι) : Within Levels (d.perform g run i)

/-- All that statements do with recognizers of tier `n` keeps it, if their blocks are run by `run`.
`Deeper` is for the tier that the blocks of speculations are on. -/
structure Tier (d : Dialect S X ι) (g : Grammar ι) (p : Statement ι → Prop)
    (P : ℕ → Recognizer S X → Prop) (n : ℕ) (Deeper : Prop)
    (run : Block ι → Action (Recognizer S X) Unit) (fuel : ℕ) : Prop where
  block {b : Block ι} (hb : Block.All p b) : Agrees P n (run b) (run b)
  deeper (h : Deeper) {b : Block ι} (hb : Block.All p b) : Agrees P (n + 1) (run b) (run b)
  below {r : Recognizer S X} (hr : P n r)
    (hlt : r.state.backtracking < r.state.options.maxSpeculationDepth) : Deeper
  trying {b yes no : Block ι} (hs : p (.synpred b yes no)) : Deeper
  raising {ending : Cursor.GuardEnd} {b : Block ι} (hs : p (.speculating true ending b)) : Deeper
  plain {s : Statement ι} (hs : p s) (hplain : s.Plain) :
    Agrees P n (execute d g run fuel s) (execute d g run fuel s)
  perform {i : ι} (hi : p (.perform i)) : Agrees P n (d.perform g run i) (d.perform g run i)

/-- The blocks of a program do the same, run by `run` or by `run'`, with the recognizers that they
are begun with on tier `n`. -/
def Indistinct (p : Statement ι → Prop) (P : ℕ → Recognizer S X → Prop) (n : ℕ) (Deeper : Prop)
    (run run' : Block ι → Action (Recognizer S X) Unit) : Prop :=
  ∀ b, Block.All p b → ∀ r, P n r ∨ Deeper ∧ P (n + 1) r → run' b r = run b r

variable {d : Dialect S X ι} {g : Grammar ι} {p : Statement ι → Prop}
  {P : ℕ → Recognizer S X → Prop} {Deeper : Prop}
  {run run' run₁ run₂ : Block ι → Action (Recognizer S X) Unit} {fuel n : ℕ} {o : Options}

namespace Levelled

variable (hd : Levelled d g) (hg : g.All p) (hP : Tiers P)
  (hrun : ∀ b, Block.All p b → Agrees P n (run b) (run' b))

include hd hg hP hrun

lemma agrees_evaluate (id : ℕ) : Agrees P n (evaluate d g run id) (evaluate d g run' id) := by
  unfold Grammar.evaluate
  split
  · exact hP.agrees (Within.fault _)
  · rename_i predicate hpredicate
    refine (hP.read _).bind fun index => ?_
    have hdone (value : Bool) : Agrees P n
        (do
          note (.evaluated id index value)
          return value : Action (Recognizer S X) Bool)
        (do
          note (.evaluated id index value)
          return value) :=
      (hP.note fun _ h => by cases h).bind fun _ => .pure _
    cases predicate with
    | constant value => exact hdone value
    | text texts => exact (hP.agrees undisturbed_symbol).bind fun token => hdone _
    | lookahead test =>
      exact ((hP.agrees (undisturbed_lookahead _)).bind fun _ => .pure _).bind hdone
    | consume value => exact (hP.agrees undisturbed_consume).bind fun _ => hdone value
    | depth least => exact (hP.read _).bind hdone
    | run block => exact (hd.apart hP (hrun _ (hg.predicate hpredicate))).bind fun _ => hdone true

lemma agrees_speculate (decision m : ℕ) :
    Agrees P n (speculate d g run decision m) (speculate d g run' decision m) := by
  unfold Grammar.speculate
  refine (hP.read _).bind fun i => (hP.read _).bind fun depth =>
    (hP.note fun _ h => by cases h).bind fun _ => ?_
  split
  · rename_i block hblock
    exact hd.apart hP (hrun _ (hg.simulation hblock))
  · exact hP.agrees (Within.fault _)

end Levelled

namespace Tier

variable (h : Tier d g p P n Deeper run fuel) (hd : Levelled d g) (hg : g.All p) (hP : Tiers P)

include h hd hg hP

/-- Two runs that are indistinct from one that keeps a tier keep it as well, and do the same. -/
lemma concord (h₁ : Indistinct p P n Deeper run run₁) (h₂ : Indistinct p P n Deeper run run₂) :
    Concord (fun _ => True) (Same (P n)) d d g p run₁ run₂ fuel fuel := by
  have hblock (b : Block ι) (hb : Block.All p b) : Agrees P n (run₁ b) (run₂ b) :=
    .of_eq (h.block hb) (fun r hr => h₁ b hb r (.inl hr)) fun r hr => h₂ b hb r (.inl hr)
  have hdeeper (hdeep : Deeper) (b : Block ι) (hb : Block.All p b) :
      Agrees P (n + 1) (run₁ b) (run₂ b) :=
    .of_eq (h.deeper hdeep hb) (fun r hr => h₁ b hb r (.inr ⟨hdeep, hr⟩))
      fun r hr => h₂ b hb r (.inr ⟨hdeep, hr⟩)
  have hperform {run' : Block ι → Action (Recognizer S X) Unit}
      (h' : Indistinct p P n Deeper run run') (i : ι) (r : Recognizer S X) (hr : P n r) :
      d.perform g run' i r = d.perform g run i r :=
    hd.perform_eq (fun m r₀ hopened => h' _ (hg.body m) r₀ (.inl (hP.undisturbed hopened hr))) i
  have hplainly (run' : Block ι → Action (Recognizer S X) Unit) {s : Statement ι}
      (hplain : s.Plain) : execute d g run' fuel s = execute d g run fuel s := by
    cases s <;> first | rfl | exact hplain.elim
  constructor
  case block => exact fun hb => hblock _ hb
  case lookahead => exact fun k => hP.agrees (undisturbed_lookahead k)
  case fail => exact fun kind expected => hP.agrees (undisturbed_fail kind expected)
  case index => exact hP.read _
  case note =>
    intro e he
    exact hP.note fun look hlook => by
      subst hlook
      exact he
  case evaluate => exact hd.agrees_evaluate hg hP hblock
  case predict =>
    exact hP.predict (hd.agrees_evaluate hg hP hblock) fun r hr hbelow =>
      hd.agrees_speculate hg hP (hdeeper (h.below hr hbelow))
  case synpred =>
    exact fun hs hb => hP.synpred (hd.apart hP (hdeeper (h.trying hs) _ hb))
  case speculating =>
    intro raise ending b hs hb
    cases raise with
    | false => exact hP.speculating false ending (hblock b hb)
    | true => exact hP.speculating true ending (hdeeper (h.raising hs) b hb)
  case attempt =>
    intro b _ hb
    refine (hblock b hb).attempt.bind fun outcome => ?_
    cases outcome with
    | ok _ => exact hP.note (e := .attempted none) fun _ h => by cases h
    | error fault => exact hP.note (e := .attempted (some fault)) fun _ h => by cases h
  case plain =>
    intro s hs hplain
    rw [hplainly run₁ hplain, hplainly run₂ hplain]
    exact h.plain hs hplain
  case perform => exact fun hi => Agrees.of_eq (h.perform hi) (hperform h₁ _) (hperform h₂ _)

/-- Statements keep the tier. -/
lemma execute {s : Statement ι} (hs : s.All p) :
    Agrees P n (Grammar.execute d g run fuel s) (Grammar.execute d g run fuel s) :=
  (h.concord hd hg hP (fun _ _ _ _ => rfl) fun _ _ _ _ => rfl).execute (Nat.le_refl fuel) hs

end Tier

/-- A block is begun on the tier of its statement, or on the next one. -/
lemma Tier.begins (h : Tier d g p P n Deeper (g.run d fuel) fuel) (hd : Levelled d g)
    (hg : g.All p) (hP : Tiers P) {s : Statement ι} (hs : s.All p) {r r₁ : Recognizer S X}
    (hr : P n r) {b : Block ι} (hbegins : BeginsWithin d g fuel s r b r₁) :
    Block.All p b ∧ (P n r₁ ∨ Deeper ∧ P (n + 1) r₁) := by
  obtain ⟨run, hrun, hne⟩ := hbegins
  by_contra hnot
  have hchanged : Indistinct p P n Deeper (g.run d fuel) run := by
    intro b' hb' r' hr'
    refine hrun b' r' ?_
    rintro ⟨rfl, rfl⟩
    exact hnot ⟨hb', hr'⟩
  have hself : Indistinct p P n Deeper (g.run d fuel) (g.run d fuel) := fun _ _ _ _ => rfl
  have hforth := (h.concord hd hg hP hchanged hself).execute (Nat.le_refl fuel) hs
  have hback := (h.concord hd hg hP hself hchanged).execute (Nat.le_refl fuel) hs
  exact hne (hforth.eq_of_same hback hr)

/-! ## The depth -/

namespace Levelled

variable (hd : Levelled d g) (hg : g.All Statement.OnlyPredicts)

include hd

/-- Programs that speculate through predictions only keep to their depth, and speculate below the
bound. -/
lemma tier_atDepth (hg : g.All Statement.OnlyPredicts)
    (hrun : ∀ b, Block.All Statement.OnlyPredicts b → Within Levels (run b)) :
    Tier d g Statement.OnlyPredicts (AtDepth o) n (n < o.maxSpeculationDepth) run fuel where
  block hb := Agrees.of_levels (hrun _ hb)
  deeper _ _ hb := Agrees.of_levels (hrun _ hb)
  below hr hlt := by rwa [hr.depth_eq, hr.options_eq] at hlt
  trying hs := hs.elim
  raising hs := by cases hs
  plain {s} hs hplain := by
    have hsets : s.SetsDepth → Manner.guarding.sets := by
      cases s with
      | setBacktracking => exact fun _ => hs
      | _ => exact id
    exact Agrees.of_levels (told_plain hsets (fun _ => trivial) hplain).levels
  perform _ := Agrees.of_levels (hd.perform_levels (fun i => hrun _ (hg.body i)) _)

include hg

/-- A run keeps to its depth. -/
lemma levels_run (fuel : ℕ) {block : Block ι} (hblock : Block.All Statement.OnlyPredicts block) :
    Within Levels (g.run d fuel block) := by
  induction fuel generalizing block with
  | zero => exact Within.unending
  | succ fuel ih =>
    exact Within.forM fun s hs => Agrees.levels fun n o =>
      (hd.tier_atDepth hg fun _ hb => ih hb).execute hd hg (tiers_atDepth o) (hblock s hs)

lemma tier_run (n : ℕ) (o : Options) (fuel : ℕ) :
    Tier d g Statement.OnlyPredicts (AtDepth o) n (n < o.maxSpeculationDepth) (g.run d fuel)
      fuel :=
  hd.tier_atDepth hg fun _ hb => hd.levels_run hg fuel hb

/-- A statement keeps to the depth at which it is executed. -/
lemma levels_execute {s : Statement ι} (hs : s.All Statement.OnlyPredicts) :
    Within Levels (execute d g (g.run d fuel) fuel s) :=
  Agrees.levels fun n o => (hd.tier_run hg n o fuel).execute hd hg (tiers_atDepth o) hs

/-- Blocks beyond the bound are not begun, nor blocks that are not of the program. -/
lemma begins {s : Statement ι} (hs : s.All Statement.OnlyPredicts) {r r₁ : Recognizer S X}
    (hr : Shallow r) {b : Block ι} (h : Begins d g s r b r₁) :
    Block.All Statement.OnlyPredicts b ∧ Shallow r₁ ∧ r₁.state.options = r.state.options := by
  obtain ⟨fuel, hbegins⟩ := h
  obtain ⟨hb, hr₁ | ⟨hbelow, hr₁⟩⟩ := (hd.tier_run hg r.state.backtracking r.state.options
    fuel).begins hd hg (tiers_atDepth _) hs ⟨rfl, rfl⟩ hbegins
  · refine ⟨hb, ?_, hr₁.options_eq⟩
    rw [Shallow, hr₁.depth_eq, hr₁.options_eq]
    exact hr
  · refine ⟨hb, ?_, hr₁.options_eq⟩
    rw [Shallow, hr₁.depth_eq, hr₁.options_eq]
    exact hbelow

end Levelled

/-! ## The bound -/

/-- What predictions do to the depth of backtracking of recognizers that run a grammar's programs.
A recognizer that has not run is at depth 0. -/
structure DepthBounded (d : Dialect S X ι) (g : Grammar ι) : Prop where
  bounded {block : Block ι} {r r' : Recognizer S X}
    (hblock : Block.All Statement.OnlyPredicts block) (hr : Shallow r) (h : Visits d g block r r') :
    Shallow r' ∧ r'.state.options = r.state.options
  /-- Hooks are called one level deeper than the prediction and within the bound only: others that
  are the same there are as good. -/
  called (fuel : ℕ) (a : Automaton) (r : Recognizer S X)
    (speculate : (decision alternative : ℕ) → Action (Recognizer S X) Unit)
    (hsame : ∀ decision alternative r', r'.state.backtracking = r.state.backtracking + 1 →
      Shallow r' → speculate decision alternative r' =
        Grammar.speculate d g (g.run d fuel) decision alternative r') :
    predict { hooks d g (g.run d fuel) with speculate } a r =
      predict (hooks d g (g.run d fuel)) a r
  /-- At the bound no hook is called, and special states with no open edge fall back. -/
  atLimit (fuel : ℕ) (a : Automaton) (r : Recognizer S X)
    (speculate : (decision alternative : ℕ) → Action (Recognizer S X) Unit)
    (hlimit : r.state.options.maxSpeculationDepth ≤ r.state.backtracking) :
    predict { hooks d g (g.run d fuel) with speculate } a r =
      predict (hooks d g (g.run d fuel)) a.unsimulated r
  /-- A run leaves the depth as it was, and so does a prediction, whatever comes of it.  Outside of
  them all the depth is that of a recognizer which has not run. -/
  keeps (fuel : ℕ) {block : Block ι} {r r' : Recognizer S X} {o : Except Fault Unit}
    (hblock : Block.All Statement.OnlyPredicts block) (h : g.run d fuel block r = some (o, r')) :
    r'.state.backtracking = r.state.backtracking
  returns (fuel : ℕ) (a : Automaton) {r r' : Recognizer S X} {o : Except Fault ℕ}
    (h : predict (hooks d g (g.run d fuel)) a r = some (o, r')) :
    r'.state.backtracking = r.state.backtracking

/-- **The depth of speculation is bounded** for every dialect whose instructions leave the depth to
speculations, if the program speculates through predictions only. -/
theorem Levelled.depthBounded (hd : Levelled d g) (hg : g.All Statement.OnlyPredicts) :
    DepthBounded d g where
  bounded {block r r'} hblock hr h := by
    induction h with
    | start b r => exact ⟨hr, rfl⟩
    | finish hs =>
      have hlevels := hd.levels_execute hg (Block.all_cons.1 hblock).1 hs
      exact ⟨hlevels.shallow hr, hlevels.options_eq⟩
    | next hs _ ih =>
      obtain ⟨hfirst, hrest⟩ := Block.all_cons.1 hblock
      have hlevels := hd.levels_execute hg hfirst hs
      obtain ⟨hr', hoptions⟩ := ih hrest (hlevels.shallow hr)
      exact ⟨hr', hoptions.trans hlevels.options_eq⟩
    | inside hs _ ih =>
      obtain ⟨hb, hr₁, hoptions⟩ := hd.begins hg (Block.all_cons.1 hblock).1 hr hs
      obtain ⟨hr', hoptions'⟩ := ih hb hr₁
      exact ⟨hr', hoptions'.trans hoptions⟩
  called fuel a r speculate hsame := by
    have hP : Tiers (AtDepth r.state.options : ℕ → Recognizer S X → Prop) := tiers_atDepth _
    have hrun {n : ℕ} (b : Block ι) (hb : Block.All Statement.OnlyPredicts b) :
        Agrees (AtDepth r.state.options) n (g.run d fuel b) (g.run d fuel b) :=
      .of_levels (hd.levels_run hg fuel hb)
    have hpredicate := hd.agrees_evaluate hg hP (hrun (n := r.state.backtracking))
    have hspeculate := hd.agrees_speculate hg hP (hrun (n := r.state.backtracking + 1))
    have hdeeper {q : Recognizer S X} (hq : AtDepth r.state.options r.state.backtracking q)
        (hbelow : q.state.backtracking < q.state.options.maxSpeculationDepth) (decision m : ℕ)
        (r' : Recognizer S X) (hr' : AtDepth r.state.options (r.state.backtracking + 1) r') :
        speculate decision m r' = Grammar.speculate d g (g.run d fuel) decision m r' := by
      refine hsame decision m r' hr'.depth_eq ?_
      rw [hq.depth_eq, hq.options_eq] at hbelow
      rw [Shallow, hr'.depth_eq, hr'.options_eq]
      exact hbelow
    refine (hP.predict hpredicate (fun q hq hbelow decision m => ?_) a).eq_of_same
      (hP.predict hpredicate (fun q hq hbelow decision m => ?_) a) ⟨rfl, rfl⟩
    · exact .of_eq (hspeculate decision m) (hdeeper hq hbelow decision m) fun _ _ => rfl
    · exact .of_eq (hspeculate decision m) (fun _ _ => rfl) (hdeeper hq hbelow decision m)
  atLimit fuel a r speculate hlimit := by
    have hpredicate := hd.agrees_evaluate hg (tiers_atDepth r.state.options)
      (n := r.state.backtracking) fun b hb => Agrees.of_levels (hd.levels_run hg fuel hb)
    have htable := a.sameTable_unsimulated
    exact (Agrees.predict_at_limit hpredicate hlimit htable).eq_of_same
      (Agrees.predict_at_limit hpredicate hlimit (htable.symm fun _ _ h => h.symm)) ⟨rfl, rfl⟩
  keeps fuel block r r' o hblock h := (hd.levels_run hg fuel hblock h).depth_eq
  returns fuel a r r' o h := by
    have hrun {n : ℕ} {o : Options} (b : Block ι) (hb : Block.All Statement.OnlyPredicts b) :
        Agrees (AtDepth o) n (g.run d fuel b) (g.run d fuel b) :=
      .of_levels (hd.levels_run hg fuel hb)
    have hlevels : Within Levels (predict (hooks d g (g.run d fuel)) a) :=
      Agrees.levels fun _ o => (tiers_atDepth o).predict
        (hd.agrees_evaluate hg (tiers_atDepth o) hrun)
        (fun _ _ _ => hd.agrees_speculate hg (tiers_atDepth o) hrun) a
    exact (hlevels h).depth_eq

end Grammar

end Lookahead
