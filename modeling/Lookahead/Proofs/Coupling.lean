import Lookahead.Automaton.Prediction
import Lookahead.Proofs.Action

/-!
# Two runs at once

`Couples` compares two actions, each on a state of its own: from related states, where the first one
ends, the second one ends with the same outcome, in related states again.  How the states are
related may depend on the outcome, because what a fault leaves behind need not be in order until
somebody has cleaned up.

The comparison is only made where the first action comes to a *fair* end.  What is fair is a
property `F` of states that is never regained once it is lost.

`Paired` is the case of a relation that depends on the fault alone.  It is kept by sequences, and by
the walk of a prediction if the hooks of the two sides are paired (`Partners.walk`), or else what the
special states of two automata with one table come to (`Alongside.walk`).  Two actions that are
paired both ways, from one state on both sides, are the same there (`Paired.eq_of_same`).
-/

namespace Lookahead

/-- What two states have in common at the end, which depends on the fault of the outcome. -/
abbrev Fault.Relation (σ : Type) := Option Fault → σ → σ → Prop

namespace Action

variable {σ α β : Type} {F : σ → Prop} {P P' : σ → σ → Prop} {x y : Action σ α}
  {f g : α → Action σ β}

/-- Fairness is not regained: what is fair at the end was fair before. -/
def Fades (F : σ → Prop) (s s' : σ) : Prop := F s' → F s

instance : IsPreorder σ (Fades F) where
  refl _ := id
  trans _ _ _ h h' := h ∘ h'

/-- Where `x` comes to a fair end from the first of two states related by `P`, `y` ends with the
same outcome from the second one, and then they are related by `Q`. -/
structure Couples (F : σ → Prop) (P : σ → σ → Prop) (x y : Action σ α)
    (Q : Except Fault α → σ → σ → Prop) : Prop where
  fades : Within (Fades F) x
  follows : ∀ ⦃r : σ⦄ ⦃o : Except Fault α⦄ ⦃r' : σ⦄, x r = some (o, r') → F r' → ∀ s, P r s →
    ∃ s', y s = some (o, s') ∧ Q o r' s'

/-- Nothing failed, and the states are related by `P`. -/
def Unfailing (P : σ → σ → Prop) : Except Fault α → σ → σ → Prop
  | .ok _ => P
  | .error _ => fun _ _ => False

namespace Couples

variable {Q Q' : Except Fault α → σ → σ → Prop} {T : Except Fault β → σ → σ → Prop}

lemma mono (h : Couples F P x y Q) (hP : ∀ r s, P' r s → P r s)
    (hQ : ∀ o r s, Q o r s → Q' o r s) : Couples F P' x y Q' := by
  refine ⟨h.fades, fun r o r' hrun hfair s hs => ?_⟩
  obtain ⟨s', hy, hs'⟩ := h.follows hrun hfair s (hP r s hs)
  exact ⟨s', hy, hQ o r' s' hs'⟩

/-- Only the related states matter for what follows. -/
lemma of_eq {x' y' : Action σ α} (h : Couples F P x' y' Q) (hfades : Within (Fades F) x)
    (heq : ∀ r s, P r s → x r = x' r ∧ y s = y' s) : Couples F P x y Q := by
  refine ⟨hfades, fun r o r' hrun hfair s hs => ?_⟩
  obtain ⟨hx, hy⟩ := heq r s hs
  rw [hx] at hrun
  rw [hy]
  exact h.follows hrun hfair s hs

lemma unending : Couples F P Action.unending y Q := by
  refine ⟨Within.unending, fun r o r' hrun => ?_⟩
  cases hrun

lemma step {f g : σ → α × σ} (hfades : ∀ r, Fades F r (f r).2)
    (h : ∀ r s, P r s → (g s).1 = (f r).1 ∧ Q (.ok (f r).1) (f r).2 (g s).2) :
    Couples F P (Action.step f) (Action.step g) Q := by
  refine ⟨Within.step hfades, fun r o r' hrun _ s hs => ?_⟩
  obtain ⟨rfl, rfl⟩ := Prod.mk.inj (Option.some.inj hrun)
  obtain ⟨hvalue, hafter⟩ := h r s hs
  exact ⟨(g s).2, by rw [step_apply, hvalue], hafter⟩

lemma update {f g : σ → σ} {Q : Except Fault Unit → σ → σ → Prop}
    (hfades : ∀ r, Fades F r (f r)) (h : ∀ r s, P r s → Q (.ok ()) (f r) (g s)) :
    Couples F P (Action.update f) (Action.update g) Q := by
  refine ⟨Within.update hfades, fun r o r' hrun _ s hs => ?_⟩
  obtain ⟨rfl, rfl⟩ := Prod.mk.inj (Option.some.inj hrun)
  exact ⟨g s, rfl, h r s hs⟩

lemma read {f g : σ → α} (h : ∀ r s, P r s → g s = f r ∧ Q (.ok (f r)) r s) :
    Couples F P (Action.read f) (Action.read g) Q := by
  refine ⟨Within.read f, fun r o r' hrun _ s hs => ?_⟩
  obtain ⟨rfl, rfl⟩ := Prod.mk.inj (Option.some.inj hrun)
  obtain ⟨hvalue, hsame⟩ := h r s hs
  exact ⟨s, by rw [read_apply, hvalue], hsame⟩

lemma ofExcept {o : Except Fault α} (h : ∀ r s, P r s → Q o r s) :
    Couples F P (Action.ofExcept o) (Action.ofExcept o) Q := by
  refine ⟨Within.ofExcept o, fun r o' r' hrun _ s hs => ?_⟩
  obtain ⟨rfl, rfl⟩ := Prod.mk.inj (Option.some.inj hrun)
  exact ⟨s, rfl, h r s hs⟩

lemma ite {c : Prop} [Decidable c] {x' y' : Action σ α} (hx : Couples F P x y Q)
    (hy : Couples F P x' y' Q) : Couples F P (if c then x else x') (if c then y else y') Q := by
  split
  · exact hx
  · exact hy

lemma bind (hxy : Couples F P x y Q) (hfg : ∀ a, Couples F (Q (.ok a)) (f a) (g a) T)
    (herror : ∀ e r s, Q (.error e) r s → T (.error e) r s) :
    Couples F P (x >>= f) (y >>= g) T := by
  refine ⟨hxy.fades.bind fun a => (hfg a).fades, fun r o r' hrun hfair s hs => ?_⟩
  rcases bind_eq_some.1 hrun with ⟨a, r₁, hx, hf⟩ | ⟨e, hx, rfl⟩
  · obtain ⟨s₁, hy, hs₁⟩ := hxy.follows hx ((hfg a).fades hf hfair) s hs
    obtain ⟨s', hg, hs'⟩ := (hfg a).follows hf hfair s₁ hs₁
    exact ⟨s', bind_eq_some.2 (.inl ⟨a, s₁, hy, hg⟩), hs'⟩
  · obtain ⟨s', hy, hs'⟩ := hxy.follows hx hfair s hs
    exact ⟨s', bind_eq_some.2 (.inr ⟨e, hy, rfl⟩), herror e r' s' hs'⟩

/-- What goes on from an attempt on both sides goes on from the same outcome. -/
lemma attempt_bind {f g : Except Fault α → Action σ β} (hxy : Couples F P x y Q)
    (hfg : ∀ o, Couples F (Q o) (f o) (g o) T) :
    Couples F P (x.attempt >>= f) (y.attempt >>= g) T := by
  refine ⟨hxy.fades.attempt.bind fun o => (hfg o).fades, fun r o r' hrun hfair s hs => ?_⟩
  obtain ⟨outcome, r₁, hx, hf⟩ := attempt_bind_eq_some.1 hrun
  obtain ⟨s₁, hy, hs₁⟩ := hxy.follows hx ((hfg outcome).fades hf hfair) s hs
  obtain ⟨s', hg, hs'⟩ := (hfg outcome).follows hf hfair s₁ hs₁
  exact ⟨s', attempt_bind_eq_some.2 ⟨outcome, s₁, hy, hg⟩, hs'⟩

/-- A step that cannot fail takes both sides from one relation to another. -/
lemma update_bind {f g : σ → σ} {x y : Action σ β} (hfades : ∀ r, Fades F r (f r))
    (h : ∀ r s, P r s → P' (f r) (g s)) (hxy : Couples F P' x y T) :
    Couples F P (Action.update f >>= fun _ => x) (Action.update g >>= fun _ => y) T := by
  exact (update (Q := Unfailing P') hfades h).bind (fun _ => hxy) fun _ _ _ h => h.elim

/-- What goes on from reading the same on both sides. -/
lemma read_bind {f g : σ → α} {x y : α → Action σ β} (h : ∀ r s, P r s → g s = f r)
    (hxy : ∀ a, Couples F P (x a) (y a) T) :
    Couples F P (Action.read f >>= x) (Action.read g >>= y) T := by
  exact (read (Q := Unfailing P) fun r s hs => ⟨h r s hs, hs⟩).bind hxy fun _ _ _ h => h.elim

end Couples

/-! ## Relations that depend on the fault -/

/-- `x` and `y` come to the same from states that `Q` relates where nothing has failed, to states
that it relates by what has. -/
def Paired (F : σ → Prop) (Q : Fault.Relation σ) (x y : Action σ α) : Prop :=
  Couples F (Q none) x y fun o => Q (Fault.ofOutcome o)

namespace Paired

variable {Q : Fault.Relation σ}

lemma pure (a : α) : Paired F Q (Pure.pure a : Action σ α) (Pure.pure a) :=
  Couples.ofExcept (o := .ok a) fun _ _ h => h

lemma bind (hxy : Paired F Q x y) (hfg : ∀ a, Paired F Q (f a) (g a)) :
    Paired F Q (x >>= f) (y >>= g) :=
  Couples.bind hxy hfg fun _ _ _ h => h

lemma ite {c : Prop} [Decidable c] {x' y' : Action σ α} (hx : Paired F Q x y)
    (hy : Paired F Q x' y') : Paired F Q (if c then x else x') (if c then y else y') :=
  Couples.ite hx hy

lemma map (h : α → β) (hxy : Paired F Q x y) : Paired F Q (h <$> x) (h <$> y) := by
  rw [map_eq_bind, map_eq_bind]
  exact hxy.bind fun a => pure (h a)

lemma discard (hxy : Paired F Q x y) : Paired F Q (Functor.discard x) (Functor.discard y) :=
  hxy.map _

lemma forM {ts : List β} {f g : β → Action σ PUnit} (h : ∀ t ∈ ts, Paired F Q (f t) (g t)) :
    Paired F Q (ts.forM f) (ts.forM g) := by
  induction ts with
  | nil => exact pure _
  | cons t rest ih =>
    simp only [List.forM_eq_forM, List.forM_cons]
    exact (h t (by simp)).bind fun _ => ih fun u hu => h u (by simp [hu])

end Paired

/-! ## One state on both sides -/

/-- The two states are one, and it has the property `P`. -/
def Same (P : σ → Prop) : Fault.Relation σ := fun _ r s => s = r ∧ P r

variable {P : σ → Prop}

lemma Paired.of_within {R : σ → σ → Prop} (hx : Within R x) (hR : ∀ r r', R r r' → P r → P r') :
    Paired (fun _ => True) (Same P) x x := by
  refine ⟨fun _ _ _ _ _ => trivial, ?_⟩
  rintro r o r' hrun - s ⟨rfl, hr⟩
  exact ⟨r', hrun, rfl, hR _ _ (hx hrun) hr⟩

lemma paired_same_iff : Paired (fun _ => True) (Same P) x y ↔
    ∀ ⦃r o r'⦄, P r → x r = some (o, r') → y r = some (o, r') ∧ P r' := by
  constructor
  · intro h r o r' hr hrun
    obtain ⟨_, hrun', rfl, hr'⟩ := h.follows hrun trivial r ⟨rfl, hr⟩
    exact ⟨hrun', hr'⟩
  · refine fun h => ⟨fun _ _ _ _ _ => trivial, ?_⟩
    rintro r o r' hrun - s ⟨rfl, hr⟩
    obtain ⟨hrun', hr'⟩ := h hr hrun
    exact ⟨r', hrun', rfl, hr'⟩

/-- Where each of two actions does what the other one does, they are the same. -/
lemma Paired.eq_of_same (h : Paired (fun _ => True) (Same P) x y)
    (h' : Paired (fun _ => True) (Same P) y x) {r : σ} (hr : P r) : x r = y r := by
  rcases hx : x r with _ | ⟨o, r'⟩
  · rcases hy : y r with _ | ⟨o, r'⟩
    · rfl
    · exact absurd (paired_same_iff.1 h' hr hy).1 (by rw [hx]; exact nofun)
  · exact (paired_same_iff.1 h hr hx).1.symm

end Action

/-! ## Automata with one table -/

namespace Automaton

/-- The automata have the same table, and their special states are related by `R`. -/
structure SameTable (R : SpecialState → SpecialState → Prop) (a a' : Automaton) : Prop where
  decision_eq : a'.decision = a.decision
  description_eq : a'.description = a.description
  states_eq : a'.states = a.states
  alternatives_eq : a'.alternatives = a.alternatives
  special (i : Nat) : Option.Rel R (a.special i) (a'.special i)

namespace SameTable

variable {R R' : SpecialState → SpecialState → Prop} {a a' : Automaton}

lemma of_special (h : ∀ special, R special special) : a.SameTable R a where
  decision_eq := rfl
  description_eq := rfl
  states_eq := rfl
  alternatives_eq := rfl
  special i := by
    cases a.special i with
    | none => exact .none
    | some special => exact .some (h special)

lemma imp (h : a.SameTable R a') (hR : ∀ special special', R special special' →
    R' special special') : a.SameTable R' a' where
  decision_eq := h.decision_eq
  description_eq := h.description_eq
  states_eq := h.states_eq
  alternatives_eq := h.alternatives_eq
  special i := by
    have hi := h.special i
    generalize a.special i = special?, a'.special i = special?' at hi ⊢
    cases hi with
    | none => exact .none
    | some hspecial => exact .some (hR _ _ hspecial)

lemma symm (h : a.SameTable R a') (hR : ∀ special special', R special special' →
    R' special' special) : a'.SameTable R' a where
  decision_eq := h.decision_eq.symm
  description_eq := h.description_eq.symm
  states_eq := h.states_eq.symm
  alternatives_eq := h.alternatives_eq.symm
  special i := by
    have hi := h.special i
    generalize a.special i = special?, a'.special i = special?' at hi ⊢
    cases hi with
    | none => exact .none
    | some hspecial => exact .some (hR _ _ hspecial)

end SameTable

end Automaton

/-! ## Through a prediction -/

namespace Recognizer

open Action

variable {S X α : Type} [Cursor S] {F : Recognizer S X → Prop}
  {Q : Fault.Relation (Recognizer S X)} {start : Nat} {hooks hooks' : Hooks S X}

lemma firstParsing_paired (decision : Nat) (tryAll : Bool)
    (h : ∀ n, Paired F Q (visiting start (synpred (hooks.speculate decision n)))
      (visiting start (synpred (hooks'.speculate decision n)))) (alternatives : List Nat) :
    Paired F Q (firstParsing hooks decision start tryAll alternatives)
      (firstParsing hooks' decision start tryAll alternatives) := by
  induction alternatives with
  | nil => exact .pure _
  | cons n rest ih =>
    rw [firstParsing, firstParsing]
    refine (h n).bind fun parses => .ite (.ite ?_ (.pure _)) ih
    exact ih.discard.bind fun _ => .pure _

/-- What a walk asks of its surroundings is paired on the two sides. -/
structure Partners (F : Recognizer S X → Prop) (Q : Fault.Relation (Recognizer S X)) (start : Nat)
    (hooks hooks' : Hooks S X) : Prop where
  lookahead : Paired F Q (lookahead 1) (lookahead 1)
  consume : Paired F Q consume consume
  fail {α : Type} (kind : FailureKind) (expected : Option TokenSet) :
    Paired F Q (fail kind expected : Action (Recognizer S X) α) (fail kind expected)
  misuse {α : Type} (cause : Misuse) :
    Paired F Q (.fault (.misuse cause) : Action (Recognizer S X) α) (.fault (.misuse cause))
  predicate (id : Nat) :
    Paired F Q (visiting start (hooks.predicate id)) (visiting start (hooks'.predicate id))
  simulate (a : Automaton) (alternatives : List Nat) :
    Paired F Q (simulate hooks a start alternatives) (simulate hooks' a start alternatives)

namespace Partners

variable (h : Partners F Q start hooks hooks')

include h

lemma firstOpen (type : TokenType) (edges : List PredicatedEdge) :
    Paired F Q (firstOpen hooks start type edges) (firstOpen hooks' start type edges) := by
  induction edges with
  | nil => exact .pure _
  | cons e rest ih =>
    rw [Recognizer.firstOpen, Recognizer.firstOpen]
    refine .ite (.bind ?_ fun holds => .ite (.pure _) ih) ih
    rw [isOpen, isOpen]
    split
    · exact h.predicate _
    · exact .pure _

lemma resolve (a : Automaton) (special : SpecialState) :
    Paired F Q (resolve hooks a start special) (resolve hooks' a start special) := by
  rw [Recognizer.resolve, Recognizer.resolve]
  refine h.lookahead.bind fun type => (h.firstOpen type special.edges).bind fun target => ?_
  split
  · exact .pure _
  · refine .ite (.pure _) (.bind (h.simulate a special.simulate) fun parsed => ?_)
    cases parsed with
    | none => exact .pure _
    | some n => exact .pure _

end Partners

/-- Walks over two automata with one table.  What they ask of their surroundings is paired, and so
is what their special states come to. -/
structure Alongside (F : Recognizer S X → Prop) (Q : Fault.Relation (Recognizer S X)) (start : Nat)
    (hooks hooks' : Hooks S X) (a a' : Automaton) : Prop where
  table : a.SameTable (fun special special' =>
    Paired F Q (resolve hooks a start special) (resolve hooks' a' start special')) a'
  lookahead : Paired F Q (lookahead 1) (lookahead 1)
  consume : Paired F Q consume consume
  fail {α : Type} (kind : FailureKind) (expected : Option TokenSet) :
    Paired F Q (fail kind expected : Action (Recognizer S X) α) (fail kind expected)
  misuse {α : Type} (cause : Misuse) :
    Paired F Q (.fault (.misuse cause) : Action (Recognizer S X) α) (.fault (.misuse cause))

namespace Alongside

variable {a a' : Automaton} (h : Alongside F Q start hooks hooks' a a')

include h

lemma noViable (s : Nat) :
    Paired F Q (noViable a s : Action (Recognizer S X) α) (noViable a' s) := by
  rw [Recognizer.noViable, Recognizer.noViable, h.table.decision_eq, h.table.description_eq,
    h.table.states_eq, h.table.alternatives_eq]
  exact h.fail _ _

lemma arrivingAt (s : Nat) {follow follow' : SpecialState → Action (Recognizer S X) Settled}
    (hfollow : ∀ special special',
      Paired F Q (resolve hooks a start special) (resolve hooks' a' start special') →
        Paired F Q (follow special) (follow' special')) :
    Paired F Q (arrivingAt a s follow) (arrivingAt a' s follow') := by
  have hstate : a'.state s = a.state s := by
    rw [Automaton.state, Automaton.state, h.table.states_eq, h.table.decision_eq]
  rw [Recognizer.arrivingAt, Recognizer.arrivingAt, hstate]
  refine .bind ?_ fun state => ?_
  · cases a.state s with
    | ok state => exact .pure state
    | error cause => exact h.misuse cause
  · cases state.special with
    | none => exact .pure _
    | some i =>
      have hi := h.table.special i
      simp only
      generalize a.special i = special?, a'.special i = special?' at hi
      cases hi with
      | none => exact h.noViable s
      | some hresolve => exact hfollow _ _ hresolve

lemma settle (hops s : Nat) :
    Paired F Q (settle hooks a start hops s) (settle hooks' a' start hops s) := by
  induction hops generalizing s with
  | zero => exact h.arrivingAt s fun _ _ _ => h.noViable s
  | succ hops ih =>
    refine h.arrivingAt s fun special special' hresolve => hresolve.bind fun resolution => ?_
    cases resolution with
    | state t => exact .ite (h.noViable s) (ih t)
    | alternative n => exact .pure _
    | stuck => exact h.noViable s

lemma deciding (s : Nat) {onward onward' : Nat → Action (Recognizer S X) Nat}
    (honward : ∀ t, Paired F Q (onward t) (onward' t)) :
    Paired F Q (deciding hooks a start s onward) (deciding hooks' a' start s onward') := by
  have hcount : a'.stateCount = a.stateCount := congrArg Array.size h.table.states_eq
  rw [Recognizer.deciding, Recognizer.deciding, hcount]
  refine (h.settle a.stateCount s).bind fun settled => ?_
  split
  · exact .pure _
  · split
    · exact .pure _
    · exact honward _

/-- Walks over the same table are paired if their special states are. -/
lemma walk (budget s : Nat) :
    Paired F Q (walk hooks a start budget s) (walk hooks' a' start budget s) := by
  have hstep (s : Nat) (type : TokenType) : a'.step s type = a.step s type := by
    simp only [Automaton.step, Automaton.arrive, h.table.states_eq]
  induction budget generalizing s with
  | zero => exact h.deciding s fun t => h.noViable t
  | succ budget ih =>
    refine h.deciding s fun t => h.lookahead.bind fun type => ?_
    rw [hstep]
    cases a.step t type with
    | accept n => exact .pure _
    | next target | special target => exact h.consume.bind fun _ => ih _
    | none => exact h.noViable t

end Alongside

/-- Walks with paired hooks are paired. -/
lemma Partners.walk (h : Partners F Q start hooks hooks') (a : Automaton) (budget s : Nat) :
    Paired F Q (walk hooks a start budget s) (walk hooks' a start budget s) := by
  have halongside : Alongside F Q start hooks hooks' a a :=
    { table := .of_special (h.resolve a)
      lookahead := h.lookahead
      consume := h.consume
      fail := h.fail
      misuse := h.misuse }
  exact halongside.walk budget s

end Recognizer

end Lookahead
