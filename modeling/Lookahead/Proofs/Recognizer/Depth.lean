import Lookahead.Proofs.Grammar.Course
import Lookahead.Proofs.Recognizer.Records

/-!
# The depth of backtracking

What holds of a recognizer may depend on how deep it is backtracking.  Properties of this kind are
`Tiers` if guards carry them from one depth to another, and if operations keep them that leave the
records and the depth alone.  Two actions *agree* on a tier if they come to the same there and keep
it (`Agrees`): speculations agree where their bodies do one level deeper, and predictions ask for
that below the bound only (`Tiers.predict`).

The plainest tiers are those of the recognizers that are at a given depth, with given options
(`AtDepth`).  At the bound nothing is tried any more: what the special states of an automaton list
for that, and what trying it would have come to, makes no difference (`Agrees.predict_at_limit`).
-/

namespace Lookahead

open Action

/-- The depth of backtracking is raised and lowered by guards, never set outright. -/
def Manner.guarding : Manner where
  mends := True
  raises := True
  sets := False
  reframes := True
  catches := True
  sinks := True

/-- The special states differ only in what they try by parsing. -/
structure SpecialState.SameEdges (special special' : SpecialState) : Prop where
  edges_eq : special'.edges = special.edges
  fallback_eq : special'.fallback = special.fallback

lemma SpecialState.SameEdges.symm {special special' : SpecialState}
    (h : special.SameEdges special') : special'.SameEdges special :=
  ⟨h.edges_eq.symm, h.fallback_eq.symm⟩

namespace Automaton

/-- The automaton whose special states try nothing by parsing: where no edge is open, they fall
back, or else there is no viable alternative. -/
def unsimulated (a : Automaton) : Automaton :=
  { a with specials := a.specials.map fun special => { special with simulate := [] } }

lemma special_unsimulated (a : Automaton) (i : ℕ) :
    a.unsimulated.special i = (a.special i).map fun special => { special with simulate := [] } :=
  Array.getElem?_map

lemma sameTable_unsimulated (a : Automaton) : a.SameTable SpecialState.SameEdges a.unsimulated where
  decision_eq := rfl
  description_eq := rfl
  states_eq := rfl
  alternatives_eq := rfl
  special i := by
    rw [special_unsimulated]
    cases a.special i with
    | none => exact .none
    | some special => exact .some ⟨rfl, rfl⟩

end Automaton

namespace Recognizer

variable {S X α : Type} {n : ℕ} {o : Options} {x y : Action (Recognizer S X) α}
  {r r' : Recognizer S X}

/-! ## Levels -/

/-- The recognizer backtracks at depth `n` and has the options `o`. -/
structure AtDepth (o : Options) (n : ℕ) (r : Recognizer S X) : Prop where
  depth_eq : r.state.backtracking = n
  options_eq : r.state.options = o

/-- The depth of backtracking and the options are as before. -/
def Levels (r r' : Recognizer S X) : Prop := State.Level .guarding r.state r'.state

instance : IsPreorder (Recognizer S X) Levels where
  refl r := State.Level.refl r.state
  trans _ _ _ h h' := State.Level.trans h h'

lemma Levels.of_eq (hdepth : r'.state.backtracking = r.state.backtracking)
    (hoptions : r'.state.options = r.state.options) : Levels r r' :=
  ⟨hoptions, fun hnot => absurd trivial hnot, fun _ => hdepth⟩

lemma Levels.depth_eq (h : Levels r r') : r'.state.backtracking = r.state.backtracking :=
  h.backtracking_eq id

lemma Levels.atDepth (h : Levels r r') (hr : AtDepth o n r) : AtDepth o n r' :=
  ⟨h.depth_eq.trans hr.depth_eq, h.options_eq.trans hr.options_eq⟩

lemma Levels.of_undisturbed [Cursor S] (h : Undisturbed r r') : Levels r r' :=
  .of_eq h.backtracking_eq h.options_eq

lemma levels_record [Cursor S] {γ : Type} (start : RuleStart) (o : Except Fault γ) :
    Within Levels (record start o : Action (Recognizer S X) Unit) :=
  (Within.read _).bind fun _ =>
    Within.ite ((Within.read _).bind fun _ => Within.update fun _ => .of_eq rfl rfl)
      (Within.pure _)

/-- The depth of backtracking is not beyond the bound at which alternatives are not parsed any
more. -/
def Shallow (r : Recognizer S X) : Prop :=
  r.state.backtracking ≤ r.state.options.maxSpeculationDepth

lemma Levels.shallow (h : Levels r r') (hr : Shallow r) : Shallow r' := by
  rw [Shallow, h.depth_eq, h.options_eq]
  exact hr

lemma Told.levels (hx : Told .guarding x) : Within Levels x := by
  intro r outcome r' hrun
  obtain ⟨ms, hcourse, -⟩ := hx hrun
  exact hcourse.level

/-! ## Tiers -/

variable [Cursor S] {P : ℕ → Recognizer S X → Prop}

/-- Properties of recognizers, one for each depth of backtracking.  Reading and moving the input
keeps them, as does everything else that leaves the records, the options and the depth alone. -/
structure Tiers (P : ℕ → Recognizer S X → Prop) : Prop where
  undisturbed {n : ℕ} {r r' : Recognizer S X} (h : Undisturbed r r') (hr : P n r) : P n r'
  begun {n : ℕ} {r : Recognizer S X} (raise : Bool) (hr : P n r) :
    P (n + raise.toNat) (begun raise r)
  ended {n : ℕ} {r : Recognizer S X} (raise : Bool) (mark : Mark) (ending : Cursor.GuardEnd)
    (hr : P (n + raise.toNat) r) :
    P n (ended raise (Cursor.endGuard r.input mark ending).2 r)

/-- On tier `n`, `y` does what `x` does, and what it leaves is on that tier again. -/
abbrev Agrees (P : ℕ → Recognizer S X → Prop) (n : ℕ) (x y : Action (Recognizer S X) α) : Prop :=
  Paired (fun _ => True) (Same (P n)) x y

namespace Agrees

omit [Cursor S]

/-- What is the same on a tier agrees there. -/
lemma of_eq {z : Action (Recognizer S X) α} (hz : Agrees P n z z)
    (hx : ∀ r, P n r → x r = z r) (hy : ∀ r, P n r → y r = z r) : Agrees P n x y := by
  refine paired_same_iff.2 fun r outcome r' hr hrun => ?_
  rw [hx r hr] at hrun
  rw [hy r hr]
  exact paired_same_iff.1 hz hr hrun

lemma attempt (h : Agrees P n x y) : Agrees P n x.attempt y.attempt := by
  refine paired_same_iff.2 fun r outcome r' hr hrun => ?_
  obtain ⟨inner, hx, rfl⟩ := attempt_eq_some.1 hrun
  obtain ⟨hy, hr'⟩ := paired_same_iff.1 h hr hx
  exact ⟨attempt_eq_some.2 ⟨inner, hy, rfl⟩, hr'⟩

end Agrees

namespace Tiers

variable (hP : Tiers P)

include hP

lemma agrees (hx : Within Undisturbed x) : Agrees P n x x :=
  .of_within hx fun _ _ => hP.undisturbed

lemma read (f : Recognizer S X → α) : Agrees P n (Action.read f) (Action.read f) :=
  hP.agrees (Within.read f)

lemma ofExcept (outcome : Except Fault α) :
    Agrees P n (.ofExcept outcome) (.ofExcept outcome : Action (Recognizer S X) α) :=
  hP.agrees (Within.ofExcept outcome)

lemma note {e : Event} (he : ∀ look, e ≠ .observed look) :
    Agrees P n (note e) (note e : Action (Recognizer S X) Unit) :=
  hP.agrees (undisturbed_note he)

lemma speculating (raise : Bool) (ending : Cursor.GuardEnd)
    (h : Agrees P (n + raise.toNat) x y) :
    Agrees P n (speculating raise ending x) (speculating raise ending y) := by
  refine paired_same_iff.2 fun r outcome r' hr hrun => ?_
  obtain ⟨inner, r₁, hbody, hend⟩ := speculating_eq_some.1 hrun
  obtain ⟨hbody', hr₁⟩ := paired_same_iff.1 h (hP.begun raise hr) hbody
  obtain ⟨rfl, rfl⟩ := Prod.mk.inj hend
  exact ⟨speculating_eq_some.2 ⟨inner, r₁, hbody', rfl⟩, hP.ended raise _ ending hr₁⟩

lemma synpred {x y : Action (Recognizer S X) Unit} (h : Agrees P (n + 1) x y) :
    Agrees P n (synpred x) (synpred y) := by
  have hclear (r : Recognizer S X) : Undisturbed r (cleared r) := undisturbed_state rfl rfl rfl
  rw [synpred_eq, synpred_eq]
  refine Paired.bind (hP.speculating true .restore ?_) fun outcome => hP.ofExcept _
  exact h.attempt.bind fun outcome =>
    (hP.agrees (Within.update hclear)).bind fun _ => .pure outcome

lemma visiting (i : ℕ) (h : Agrees P n x y) : Agrees P n (visiting i x) (visiting i y) := by
  refine (hP.read _).bind fun here => (hP.agrees (undisturbed_seek i)).bind fun _ => ?_
  refine h.attempt.bind fun outcome => (hP.agrees (undisturbed_seek here)).bind fun _ => ?_
  exact hP.ofExcept outcome

/-! ## Predictions -/

section

variable {hooks hooks' : Hooks S X} {start : ℕ}
  (hpredicate : ∀ id, Agrees P n (hooks.predicate id) (hooks'.predicate id))
  (hspeculate : ∀ r : Recognizer S X, P n r →
    r.state.backtracking < r.state.options.maxSpeculationDepth → ∀ decision m,
      Agrees P (n + 1) (hooks.speculate decision m) (hooks'.speculate decision m))

include hspeculate

/-- Below the bound alternatives are tried one level deeper. -/
lemma simulate (a : Automaton) (alternatives : List ℕ) :
    Agrees P n (Recognizer.simulate hooks a start alternatives)
      (Recognizer.simulate hooks' a start alternatives) := by
  refine paired_same_iff.2 fun r outcome r' hr hrun => ?_
  simp only [Recognizer.simulate, bind_apply, readState_apply] at hrun ⊢
  split at hrun
  next hlimit =>
    obtain ⟨rfl, rfl⟩ := Prod.mk.inj (Option.some.inj hrun)
    rw [if_pos hlimit]
    exact ⟨rfl, hr⟩
  next hlimit =>
    rw [if_neg hlimit]
    have hdeeper := hspeculate r hr (Nat.lt_of_not_le hlimit)
    exact paired_same_iff.1 (firstParsing_paired _ _
      (fun m => hP.visiting start (hP.synpred (hdeeper _ m))) _) hr hrun

include hpredicate

lemma partners (start : ℕ) : Partners (fun _ => True) (Same (P n)) start hooks hooks' where
  lookahead := hP.agrees (undisturbed_lookahead 1)
  consume := hP.agrees undisturbed_consume
  fail kind expected := hP.agrees (undisturbed_fail kind expected)
  misuse _ := hP.agrees (Within.fault _)
  predicate id := hP.visiting start (hpredicate id)
  simulate := hP.simulate hspeculate

lemma predict (a : Automaton) :
    Agrees P n (Recognizer.predict hooks a) (Recognizer.predict hooks' a) := by
  refine hP.speculating false .restore ?_
  refine (hP.read _).bind fun start => (hP.read _).bind fun options => ?_
  exact (hP.partners hpredicate hspeculate start).walk a _ 0

end

end Tiers

/-! ## At one depth -/

lemma tiers_atDepth (o : Options) : Tiers (AtDepth o : ℕ → Recognizer S X → Prop) where
  undisturbed h hr := ⟨h.backtracking_eq.trans hr.depth_eq, h.options_eq.trans hr.options_eq⟩
  begun raise hr := ⟨congrArg (· + raise.toNat) hr.depth_eq, hr.options_eq⟩
  ended _ _ _ hr := ⟨Nat.sub_eq_of_eq_add hr.depth_eq, hr.options_eq⟩

namespace Agrees

omit [Cursor S] in
lemma of_levels (hx : Within Levels x) : Agrees (AtDepth o) n x x :=
  .of_within hx fun _ _ h => h.atDepth

omit [Cursor S] in
lemma levels (h : ∀ n o, Agrees (AtDepth o) n x x) : Within Levels x := by
  intro r outcome r' hrun
  obtain ⟨-, hr'⟩ := paired_same_iff.1 (h r.state.backtracking r.state.options) ⟨rfl, rfl⟩ hrun
  exact .of_eq hr'.depth_eq hr'.options_eq

/-- At the bound no alternative is tried. -/
lemma simulate_of_limit (hooks : Hooks S X) (a : Automaton) (start : ℕ) (alternatives : List ℕ)
    (hlimit : r.state.options.maxSpeculationDepth ≤ r.state.backtracking) :
    Recognizer.simulate hooks a start alternatives r = some (.ok none, r) := by
  simp only [Recognizer.simulate, bind_apply, readState_apply, if_pos hlimit, pure_apply]

section

variable {hooks hooks' : Hooks S X} {a a' : Automaton} {start : ℕ}
  (hpredicate : ∀ id, Agrees (AtDepth o) n (hooks.predicate id)
    (hooks'.predicate id))

include hpredicate

section Limit

variable (hlimit : o.maxSpeculationDepth ≤ n)

include hlimit

/-- At the bound a special state with the same edges and the same fallback comes to the same. -/
lemma resolve_at_limit {special special' : SpecialState} (hspecial : special.SameEdges special') :
    Agrees (AtDepth o) n (Recognizer.resolve hooks a start special)
      (Recognizer.resolve hooks' a' start special') := by
  have hat {r : Recognizer S X} (hr : AtDepth o n r) :
      r.state.options.maxSpeculationDepth ≤ r.state.backtracking := by
    rwa [hr.options_eq, hr.depth_eq]
  have huntried (hooks : Hooks S X) (a : Automaton) (alternatives : List ℕ)
      (f : Option ℕ → Action (Recognizer S X) Resolution) {r : Recognizer S X}
      (hr : AtDepth o n r) :
      (if alternatives.isEmpty then pure none >>= f
        else Recognizer.simulate hooks a start alternatives >>= f) r = f none r := by
    split
    · rw [pure_bind]
    · exact bind_of_ok (simulate_of_limit hooks a start alternatives (hat hr))
  have hpartners := (tiers_atDepth o).partners hpredicate
    (fun r hr hbelow => absurd (hat hr) (Nat.not_le_of_lt hbelow)) start
  rw [Recognizer.resolve, Recognizer.resolve, hspecial.edges_eq, hspecial.fallback_eq]
  refine hpartners.lookahead.bind fun type =>
    (hpartners.firstOpen type special.edges).bind fun target => ?_
  cases target with
  | some t => exact .pure _
  | none =>
    refine paired_same_iff.2 fun r outcome r' hr hrun => ?_
    have hrest := (huntried hooks a special.simulate _ hr).symm.trans hrun
    obtain ⟨rfl, rfl⟩ := Prod.mk.inj (Option.some.inj hrest)
    exact ⟨huntried hooks' a' special'.simulate _ hr, hr⟩

/-- At the bound a prediction is one by the table, the open edges and the fallbacks. -/
lemma predict_at_limit (htable : a.SameTable SpecialState.SameEdges a') :
    Agrees (AtDepth o) n (Recognizer.predict hooks a) (Recognizer.predict hooks' a') := by
  have hP : Tiers (AtDepth o : ℕ → Recognizer S X → Prop) := tiers_atDepth o
  refine hP.speculating false .restore ?_
  refine (hP.read _).bind fun start => (hP.read _).bind fun options => ?_
  have halongside : Alongside (fun _ => True) (Same (AtDepth o n)) start hooks hooks' a a' :=
    { table := htable.imp fun _ _ => resolve_at_limit hpredicate hlimit
      lookahead := hP.agrees (undisturbed_lookahead 1)
      consume := hP.agrees undisturbed_consume
      fail := fun kind expected => hP.agrees (undisturbed_fail kind expected)
      misuse := fun _ => hP.agrees (Within.fault _) }
  exact halongside.walk _ 0

end Limit

end

end Agrees

end Recognizer

end Lookahead
