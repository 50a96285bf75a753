import Lookahead.Proofs.Grammar.Records

/-!
# Records are sound

A run starts at depth zero, where rules are neither recorded nor replayed.  It makes its records in
the speculations that it enters, and of those `echo_run` knows that they keep the records right.
`Bears` is what such a run keeps from step to step: a recognizer in its setting whose records are
right stays one (`bears_run`).

A syntactic predicate of such a recognizer, however deep, answers what it answers without records
(`answers_of_synpred`).  That goes for the ones that predictions make as well.
-/

namespace Lookahead

open Action Cursor Recognizer
open Cursor.View (Ready spot marks)

variable {S X ι α : Type} [Cursor S] [View S] {c : Setting S X ι} {m fuel : Nat}
  {r r' s : Recognizer S X}

/-- What a syntactic predicate tries: a block of the grammar, or an alternative for a prediction. -/
inductive Fragment (ι : Type) where
  | block (b : Block ι)
  /-- The simulation of an alternative, for a prediction. -/
  | simulation (decision alternative : Nat)

/-- The fragment leaves marks and the depth of backtracking to guards, as the grammar does. -/
def Fragment.HandsOff {ι : Type} : Fragment ι → Prop
  | .block b => Block.All Statement.HandsOff b
  | .simulation _ _ => True

/-- What is done to try a fragment: it is run apart from what is being built. -/
def Setting.fragment (c : Setting S X ι) (fuel : Nat) : Fragment ι → Action (Recognizer S X) Unit
  | .block b => c.dialect.apart (c.run fuel b)
  | .simulation decision alternative =>
    Grammar.speculate c.dialect c.grammar (c.run fuel) decision alternative

/-- Without records and without a bound, a syntactic predicate at a place answers `holds`, with any
fuel that is enough. -/
def Setting.Answers (c : Setting S X ι) (f : Fragment ι) (start : Nat) (holds : Bool) :
    Prop :=
  ∃ n, ∀ fuel, n ≤ fuel → ∀ s, Unaided c start (fuel + 1) s →
    ∃ s', synpred (c.fragment fuel f) s = some (.ok holds, s')

/-- A recognizer that does not speculate keeps its records right, as far as its run is candid. -/
structure Bears (c : Setting S X ι) (m : Nat) (r r' : Recognizer S X) : Prop where
  fades : Fades (Candid c m) r r'
  trusted : Trusted c r → r.state.backtracking = 0 → Candid c m r' →
    Trusted c r' ∧ r'.state.backtracking = 0

instance : IsPreorder (Recognizer S X) (Bears c m) where
  refl _ := ⟨id, fun h hdepth _ => ⟨h, hdepth⟩⟩
  trans r r₁ r' h h' := by
    refine ⟨h.fades ∘ h'.fades, fun hr hdepth hcandid => ?_⟩
    obtain ⟨hr₁, hdepth₁⟩ := h.trusted hr hdepth (h'.fades hcandid)
    exact h'.trusted hr₁ hdepth₁ hcandid

variable [Legible S]

lemma Undisturbed.bears (h : Undisturbed r r') : Bears c m r r' :=
  ⟨h.fades, fun hr hdepth _ => ⟨hr.of_undisturbed h, h.backtracking_eq.trans hdepth⟩⟩

lemma bears_of_undisturbed {x : Action (Recognizer S X) α} (h : Within Undisturbed x) :
    Within (Bears c m) x :=
  h.mono fun _ _ h => h.bears

omit [Legible S] in
lemma bears_record (start : RuleStart) (o : Except Fault α) :
    Within (Bears c m) (record start o : Action (Recognizer S X) Unit) := by
  intro r outcome r' hrun
  refine ⟨(amasses_record start o hrun).fades, fun hr hdepth _ => ?_⟩
  rw [record_of_depth hdepth] at hrun
  obtain ⟨-, rfl⟩ := Prod.mk.inj (Option.some.inj hrun)
  exact ⟨hr, hdepth⟩

lemma Trusted.looked (h : Trusted c r) : Trusted c (looked r) := by
  have hread := (Step.lookahead r.input 1).reaches
  exact ⟨h.usable.reaches hread, hread.input_eq.trans h.input_eq, h.options_eq,
    h.honest.looked h.options_eq⟩

/-! ## Guards -/

lemma Trusted.begun (h : Trusted c r) (raise : Bool) : Trusted c (begun raise r) := by
  have hmark := (Step.mark r.input).reaches
  exact ⟨h.usable.reaches hmark, hmark.input_eq.trans h.input_eq, h.options_eq,
    h.honest.of_eq rfl rfl⟩

lemma Trusted.ended (h : Trusted c r) (raise : Bool) (mark : Mark) (ending : GuardEnd) :
    Trusted c (ended raise (Cursor.endGuard r.input mark ending).2 r) := by
  have hend := reaches_endGuard r.input mark ending
  exact ⟨h.usable.reaches hend, hend.input_eq.trans h.input_eq, h.options_eq,
    h.honest.of_eq rfl rfl⟩

/-- A guard that does not raise the depth. -/
lemma bears_lowered {x : Action (Recognizer S X) α} (hx : Within (Bears c m) x)
    (ending : GuardEnd) : Within (Bears c m) (speculating false ending x) := by
  refine fun r o r' hrun => ⟨fades_speculating (hx.mono fun _ _ h => h.fades) _ _ hrun, ?_⟩
  intro hr hdepth hcandid
  obtain ⟨outcome, r₁, hbody, hout⟩ := speculating_eq_some.1 hrun
  obtain ⟨-, rfl⟩ := Prod.mk.inj hout
  obtain ⟨hr₁, hdepth₁⟩ :=
    (hx hbody).trusted (hr.begun false) hdepth ((amasses_ended false _ r₁).fades hcandid)
  exact ⟨hr₁.ended false _ ending, hdepth₁⟩

/-- Where a first speculation is. -/
def Footing.first (bound : Nat) : Footing S := ⟨1, 1, bound, [], [], Nat.one_pos, Nat.one_pos⟩

/-- A recognizer without records in the place of another one. -/
def unaided (c : Setting S X ι) (bound : Nat) (r : Recognizer S X) : Recognizer S X :=
  { r with state := { r.state with options := c.options.plain bound } }

/-- A first speculation is echoed. -/
lemma Trusted.echoes_begun {bound : Nat} (h : Trusted c r) (hdepth : r.state.backtracking = 0)
    (hbound : 0 < bound) :
    ∃ i : Footing S, i.depth = 1 ∧ i.depth' = 1 ∧ i.bound = bound ∧
      Echoes c i none (Recognizer.begun true r) (unaided c bound (Recognizer.begun true r)) := by
  have hone : (Recognizer.begun true r).state.backtracking = 1 := congrArg (· + 1) hdepth
  have hpos : 0 < (Recognizer.begun true r).state.backtracking := hone ▸ Nat.one_pos
  have hready : Ready (Recognizer.begun true r).input := h.usable.mark
  have hunaided : Unaided c (Cursor.index (Recognizer.begun true r).input) 0
      (unaided c bound (Recognizer.begun true r)) :=
    ⟨hready, (h.begun true).input_eq, rfl, bound, rfl, hone ▸ hbound⟩
  exact ⟨_, hone, hone, rfl, (h.begun true).echoes hready hpos hunaided hpos rfl⟩

/-- A guard that begins to speculate. -/
lemma bears_raised {x y : Action (Recognizer S X) α} {e : Except Fault α → Option Fault}
    {bound : Nat} (hbound : 0 < bound) (ending : GuardEnd)
    (hxy : ∀ i : Footing S, i.depth = 1 → i.depth' = 1 → i.bound = bound →
      Couples (Candid c m) (Echoes c i none) x y fun o => Echoes c i (e o)) :
    Within (Bears c m) (speculating true ending x) := by
  have hfades : Within (Fades (Candid c m)) x := (hxy (.first bound) rfl rfl rfl).fades
  refine fun r o r' hrun => ⟨fades_speculating hfades true ending hrun, ?_⟩
  intro hr hdepth hcandid
  obtain ⟨outcome, r₁, hbody, hout⟩ := speculating_eq_some.1 hrun
  obtain ⟨-, rfl⟩ := Prod.mk.inj hout
  obtain ⟨i, hi, hi', hsame, hechoes⟩ := hr.echoes_begun hdepth hbound
  obtain ⟨s₁, -, h₁⟩ := (hxy i hi hi' hsame).follows hbody
    ((amasses_ended true _ r₁).fades hcandid) _ hechoes
  refine ⟨h₁.trusted.ended true _ ending, ?_⟩
  show r₁.state.backtracking - 1 = 0
  rw [h₁.depth_eq, hi]

lemma bears_synpred {x y : Action (Recognizer S X) Unit} {bound : Nat} (hbound : 0 < bound)
    (hxy : ∀ i : Footing S, i.depth = 1 → i.depth' = 1 → i.bound = bound → Echoing c m i x y) :
    Within (Bears c m) (synpred x) := by
  rw [synpred_eq_answering]
  refine Within.bind ?_ fun o => Within.ofExcept _
  exact bears_raised hbound .restore fun i hi hi' hsame => couples_answering (hxy i hi hi' hsame)

/-! ## Runs -/

section

variable {calls : ι → Option Nat} (hc : Faithful c calls) (hg : c.grammar.All Statement.HandsOff)
  (hpositional : c.grammar.Positional)

include hc

lemma bears_asks : Grammar.Asks c.dialect (Bears c m) where
  lookahead k := bears_of_undisturbed (undisturbed_lookahead k)
  symbol := bears_of_undisturbed undisturbed_symbol
  consume := bears_of_undisturbed undisturbed_consume
  note e he := bears_of_undisturbed <| undisturbed_note fun look h => by
    subst h
    exact he
  apart hx := hc.apart_within (fun _ _ h => h.bears) hx

omit hc in
lemma bears_plain {t : Statement ι} (ht : t.HandsOff) (hplain : t.Plain)
    (run : Block ι → Action (Recognizer S X) Unit) (fuel : Nat) :
    Within (Bears c m) (Grammar.execute c.dialect c.grammar run fuel t) := by
  by_cases hlook : t = .observe
  · subst hlook
    rw [observe_eq]
    exact Within.update fun r => ⟨(amasses_looked r).fades, fun hr hdepth _ =>
      ⟨hr.looked, hdepth⟩⟩
  · exact bears_of_undisturbed (undisturbed_plain ht hplain hlook _ _ _ _)

include hg

lemma bears_perform
    (hblocks : ∀ b, Block.All Statement.HandsOff b → Within (Bears c m) (c.run fuel b)) (i : ι) :
    Within (Bears c m) (c.dialect.perform c.grammar (c.run fuel) i) :=
  hc.perform_within (fun _ _ h => h.bears) bears_record (fun n => hblocks _ (hg.body n)) i

include hpositional

lemma echo_fragment {j : Footing S} {fuel' : Nat} (hroom : Room c m j fuel fuel')
    {f : Fragment ι} (hf : f.HandsOff) :
    Echoing c m j (c.fragment fuel f) (c.fragment fuel' f) := by
  cases f with
  | block b => exact hc.apart (echo_run hc hg hpositional hroom hf)
  | simulation decision alternative =>
    exact echo_speculate hc hg (fun i b hi hb => echo_run hc hg hpositional hi hb) hroom decision
      alternative

omit [Cursor S] [Legible S] hc hg hpositional in
/-- There is room to echo a first speculation. -/
lemma room_first {j : Footing S} (hle : fuel < c.options.maxSpeculationDepth) (hj : j.depth = 1)
    (hj' : j.depth' = 1) (hbound : j.bound = fuel + m + 1) : Room c m j fuel (fuel + m) :=
  ⟨by omega, by omega, Nat.le_refl _⟩

/-- A first syntactic predicate. -/
lemma bears_trial (hle : fuel < c.options.maxSpeculationDepth) {f : Fragment ι}
    (hf : f.HandsOff) : Within (Bears c m) (synpred (c.fragment fuel f)) :=
  bears_synpred (Nat.succ_pos (fuel + m)) fun _ hj hj' hbound =>
    echo_fragment hc hg hpositional (room_first hle hj hj' hbound) hf

lemma bears_predict (hle : fuel < c.options.maxSpeculationDepth)
    (hblocks : ∀ b, Block.All Statement.HandsOff b → Within (Bears c m) (c.run fuel b))
    (a : Automaton) :
    Within (Bears c m) (predict (Grammar.hooks c.dialect c.grammar (c.run fuel)) a) := by
  refine bears_lowered ((Within.read _).bind fun start => (Within.read _).bind fun options => ?_) _
  have hsurroundings : Surroundings (Bears c m) (fun _ => False) start
      (Grammar.hooks c.dialect c.grammar (c.run fuel))
      (Grammar.hooks c.dialect c.grammar (c.run fuel)) := by
    constructor
    case lookahead => exact (bears_asks hc).lookahead 1
    case consume => exact (bears_asks hc).consume
    case seek => exact fun i => bears_of_undisturbed (undisturbed_seek i)
    case fail => exact fun kind expected => bears_of_undisturbed (undisturbed_fail kind expected)
    case predicate => exact Grammar.evaluate_within hg hblocks (bears_asks hc)
    case synpred =>
      exact fun decision n =>
        bears_trial hc hg hpositional hle (f := .simulation decision n) trivial
    case keeps => exact fun _ _ _ hfalse => hfalse
    case arrives => exact fun _ hfalse => hfalse.elim
    case agree_predicate => exact fun _ _ hfalse => hfalse.elim
    case agree_synpred => exact fun _ _ _ hfalse => hfalse.elim
  exact (hsurroundings.walk a _ 0).within

/-- **Records are right in every run** from depth zero, as far as the run is candid. The fuel does
not reach as deep as the bound on speculation, so that no prediction is made without its
simulations. -/
theorem bears_run (hle : fuel ≤ c.options.maxSpeculationDepth) {b : Block ι}
    (hb : Block.All Statement.HandsOff b) : Within (Bears c m) (c.run fuel b) := by
  induction fuel generalizing b with
  | zero => exact Within.unending
  | succ fuel ih =>
    have hblocks (b : Block ι) (hb : Block.All Statement.HandsOff b) :
        Within (Bears c m) (c.run fuel b) := ih (Nat.le_of_succ_le hle) hb
    have hconduct : Grammar.Conduct c.dialect c.grammar Statement.HandsOff (Bears c m)
        (c.run fuel) fuel := by
      constructor
      case block => exact fun hb => hblocks _ hb
      case lookahead => exact (bears_asks hc).lookahead
      case note => exact (bears_asks hc).note
      case fail => exact fun kind expected => bears_of_undisturbed (undisturbed_fail kind expected)
      case evaluate => exact Grammar.evaluate_within hg hblocks (bears_asks hc)
      case predict => exact bears_predict hc hg hpositional hle hblocks
      case synpred =>
        exact fun {b} hb => bears_trial hc hg hpositional hle (f := .block b) hb
      case speculating =>
        intro raise ending b _ hb
        cases raise with
        | false => exact bears_lowered (hblocks b hb) ending
        | true =>
          exact bears_raised (Nat.succ_pos (fuel + m)) ending fun j hj hj' hbound =>
            echo_run hc hg hpositional (room_first hle hj hj' hbound) hb
      case plain => exact fun ht hplain => bears_plain ht hplain _ _
      case perform => exact fun _ => bears_perform hc hg hblocks _
    exact Within.forM fun s hs => hconduct.execute (hb s hs)

/-- All records are right after a straight run from depth zero, if they were right before. Straight
is a run in which nobody has gone on from a failed speculation, and no misuse has made a rule fail,
which its trace tells. -/
theorem trusted_of_run (hle : fuel ≤ c.options.maxSpeculationDepth) {b : Block ι}
    (hb : Block.All Statement.HandsOff b) (hr : Trusted c r) (hdepth : r.state.backtracking = 0)
    {o : Except Fault Unit} (hrun : c.run fuel b r = some (o, r'))
    (hstraight : ∀ e ∈ r'.trace, e.Straight) : Trusted c r' := by
  obtain ⟨m, hm⟩ := exists_timely_of_memo c r'.state.memo
  exact ((bears_run hc hg hpositional hle hb hrun).trusted hr hdepth ⟨hstraight, hm⟩).1

/-- All records are right after a straight syntactic predicate at depth zero, if they were right
before. -/
theorem trusted_of_trial (hle : fuel < c.options.maxSpeculationDepth) {f : Fragment ι}
    (hf : f.HandsOff) (hr : Trusted c r) (hdepth : r.state.backtracking = 0)
    {o : Except Fault Bool} (hrun : synpred (c.fragment fuel f) r = some (o, r'))
    (hstraight : ∀ e ∈ r'.trace, e.Straight) : Trusted c r' := by
  obtain ⟨m, hm⟩ := exists_timely_of_memo c r'.state.memo
  exact ((bears_trial hc hg hpositional hle hf hrun).trusted hr hdepth ⟨hstraight, hm⟩).1

/-! ## Answers -/

omit [View S] [Legible S] hc hg hpositional in
/-- A syntactic predicate hangs on its fragment only, if its mark can be ended. -/
lemma synpred_of_answering {x : Action (Recognizer S X) Unit} {outcome : Except Fault Unit}
    {r₁ : Recognizer S X} {u : S}
    (hrun : answering x (Recognizer.begun true r) = some (.ok outcome, r₁))
    (hend : Cursor.endGuard r₁.input (Cursor.mark r.input).1 .restore = (.ok (), u)) :
    synpred x r = some (answer outcome, Recognizer.ended true u r₁) := by
  rw [synpred_eq_answering, bind_apply, speculating_apply, hrun, Option.bind_some]
  simp only [hend]
  rfl

omit [View S] [Legible S] hc hg hpositional in
/-- What a fragment comes to of which a syntactic predicate knows the answer. -/
lemma answering_of_synpred {x : Action (Recognizer S X) Unit} {holds : Bool}
    (hrun : synpred x r = some (.ok holds, r')) :
    ∃ outcome r₁ u, answering x (Recognizer.begun true r) = some (.ok outcome, r₁) ∧
      answer outcome = .ok holds ∧ r' = Recognizer.ended true u r₁ := by
  rw [synpred_eq_answering] at hrun
  rcases bind_eq_some.1 hrun with ⟨outcome, q, hspec, hanswer⟩ | ⟨e, -, h⟩
  · obtain ⟨hholds, rfl⟩ := Prod.mk.inj (Option.some.inj hanswer)
    obtain ⟨o, r₁, hbody, hout⟩ := speculating_eq_some.1 hspec
    obtain ⟨ho, rfl⟩ := Prod.mk.inj hout
    refine ⟨outcome, r₁, _, ?_, hholds, rfl⟩
    rcases hend : (Cursor.endGuard r₁.input (Cursor.mark r.input).1 .restore).1 with cause | _
    · rw [hend] at ho
      cases ho
    · rw [hend] at ho
      rw [hbody, ← ho]
      rfl
  · cases h

/-- **A syntactic predicate answers what it answers without records**, and without a bound, from the
place where it was asked. There is room for it under the bound, the records were right, and the run
was straight. -/
theorem answers_of_synpred {f : Fragment ι} (hf : f.HandsOff) (hr : Trusted c r)
    (hroom : r.state.backtracking + fuel < c.options.maxSpeculationDepth) {holds : Bool}
    (hrun : synpred (c.fragment fuel f) r = some (.ok holds, r'))
    (hstraight : ∀ e ∈ r'.trace, e.Straight) :
    c.Answers f (Cursor.index (Cursor.mark r.input).2) holds := by
  obtain ⟨m, hm⟩ := exists_timely_of_memo c r'.state.memo
  have hcandid : Candid c m r' := ⟨hstraight, hm⟩
  refine ⟨fuel + m, fun fuel' hfuel s hs => ?_⟩
  obtain ⟨outcome, r₁, i, hbody, hanswer, rfl⟩ := answering_of_synpred hrun
  obtain ⟨bound, hoptions, hbound⟩ := hs.unbound
  have hpos {q : Recognizer S X} : 0 < (Recognizer.begun true q).state.backtracking :=
    Nat.succ_pos _
  have hplaced : Placed c.input (marks s.input).entries s.input := ⟨hs.ready, hs.input_eq, rfl⟩
  have hbegun : Unaided c (Cursor.index (Recognizer.begun true r).input) fuel'
      (Recognizer.begun true s) := by
    refine ⟨hplaced.mark.ready, hplaced.mark.input_eq, ?_, bound, hoptions, ?_⟩
    · exact (index_begun true hs.ready).trans hs.index_eq
    · show s.state.backtracking + 1 + fuel' ≤ bound
      omega
  have hechoes := (hr.begun true).echoes hr.usable.mark hpos hbegun hpos hoptions
  have hroom' : Room c m (.over (Recognizer.begun true r) (Recognizer.begun true s) bound hpos hpos)
      fuel fuel' := by
    refine ⟨?_, ?_, hfuel⟩
    · show r.state.backtracking + 1 + fuel ≤ c.options.maxSpeculationDepth
      omega
    · show s.state.backtracking + 1 + fuel' ≤ bound
      omega
  obtain ⟨s₁, hbody', h₁⟩ := (couples_answering (echo_fragment hc hg hpositional hroom' hf)).follows
    hbody ((amasses_ended true i r₁).fades hcandid) _ hechoes
  obtain ⟨u, hu, -⟩ := hplaced.endGuard h₁.placed' .restore
  exact ⟨_, hanswer ▸ synpred_of_answering hbody' hu⟩

end

end Lookahead
