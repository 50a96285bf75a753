import Lookahead.Recognizer.Action
import Mathlib.Order.Defs.Unbundled

/-!
# What an action keeps

`Action.Within R x` says that the relation `R` holds between the states before and after `x`,
whatever comes of `x`.  If `R` is a preorder, then it is kept by a sequence of actions as soon as it
is kept by each of them, so a fact about the runs of whole programs is a fact about single
operations (`Within.bind`, `Within.attempt`, `Within.forM`).

`bind_eq_some` and its relatives take a finished run apart instead, where the parts of a sequence
keep a relation only together.
-/

namespace Lookahead.Action

variable {σ α β : Type} {R T : σ → σ → Prop}

/-- Whatever comes of `x`, the states before and after it are related by `R`. -/
def Within (R : σ → σ → Prop) (x : Action σ α) : Prop :=
  ∀ ⦃s : σ⦄ ⦃outcome : Except Fault α⦄ ⦃s' : σ⦄, x s = some (outcome, s') → R s s'

/-! ## Finished runs -/

lemma bind_eq_some {x : Action σ α} {f : α → Action σ β} {s s' : σ} {outcome : Except Fault β} :
    (x >>= f) s = some (outcome, s') ↔
      (∃ a s₁, x s = some (.ok a, s₁) ∧ f a s₁ = some (outcome, s')) ∨
        ∃ e, x s = some (.error e, s') ∧ outcome = .error e := by
  rw [bind_apply]
  constructor
  · intro h
    rcases hx : x s with _ | ⟨e | a, s₁⟩
    · rw [hx] at h
      cases h
    · rw [hx] at h
      obtain ⟨rfl, rfl⟩ := Prod.mk.inj (Option.some.inj h)
      exact .inr ⟨e, rfl, rfl⟩
    · rw [hx] at h
      exact .inl ⟨a, s₁, rfl, h⟩
  · rintro (⟨a, s₁, hx, h⟩ | ⟨e, hx, rfl⟩)
    · rw [hx]
      exact h
    · rw [hx]

lemma bind_of_ok {x : Action σ α} {f : α → Action σ β} {s s₁ : σ} {a : α}
    (h : x s = some (.ok a, s₁)) : (x >>= f) s = f a s₁ := by
  rw [bind_apply, h]

lemma bind_of_none {x : Action σ α} {f : α → Action σ β} {s : σ} (h : x s = none) :
    (x >>= f) s = none := by
  rw [bind_apply, h]

lemma attempt_eq_some {x : Action σ α} {s s' : σ} {outcome : Except Fault (Except Fault α)} :
    x.attempt s = some (outcome, s') ↔ ∃ r, x s = some (r, s') ∧ outcome = .ok r := by
  rw [attempt_apply]
  rcases hx : x s with _ | ⟨r, s₁⟩
  · simp
  · simp only [Option.map_some, Option.some.injEq, Prod.mk.injEq]
    constructor
    · rintro ⟨rfl, rfl⟩
      exact ⟨r, ⟨rfl, rfl⟩, rfl⟩
    · rintro ⟨_, ⟨rfl, rfl⟩, rfl⟩
      exact ⟨rfl, rfl⟩

/-- What goes on from an attempt goes on from any outcome. -/
lemma attempt_bind_eq_some {x : Action σ α} {f : Except Fault α → Action σ β} {s s' : σ}
    {outcome : Except Fault β} :
    (x.attempt >>= f) s = some (outcome, s') ↔
      ∃ r s₁, x s = some (r, s₁) ∧ f r s₁ = some (outcome, s') := by
  rw [bind_apply, attempt_apply]
  rcases x s with _ | ⟨r, s₁⟩
  · simp
  · simp only [Option.map_some, Option.some.injEq, Prod.mk.injEq]
    constructor
    · exact fun h => ⟨r, s₁, ⟨rfl, rfl⟩, h⟩
    · rintro ⟨_, _, ⟨rfl, rfl⟩, h⟩
      exact h

lemma map_eq_bind (f : α → β) (x : Action σ α) : f <$> x = x >>= fun a => pure (f a) :=
  map_eq_pure_bind f x

/-! ## Related states -/

namespace Within

lemma mono {x : Action σ α} (h : ∀ s s', R s s' → T s s') (hx : Within R x) : Within T x :=
  fun _ _ _ hs => h _ _ (hx hs)

lemma unending : Within R (Action.unending : Action σ α) := by
  intro s o s' h
  simp at h

lemma attempt {x : Action σ α} (hx : Within R x) : Within R x.attempt := by
  intro s o s' h
  obtain ⟨r, hr, -⟩ := attempt_eq_some.1 h
  exact hx hr

lemma update {f : σ → σ} (hf : ∀ s, R s (f s)) : Within R (Action.update f) := by
  intro s o s' h
  obtain ⟨-, rfl⟩ := Prod.mk.inj (Option.some.inj h)
  exact hf s

lemma step {f : σ → α × σ} (hf : ∀ s, R s (f s).2) : Within R (Action.step f) := by
  intro s o s' h
  obtain ⟨-, rfl⟩ := Prod.mk.inj (Option.some.inj h)
  exact hf s

variable [IsPreorder σ R]

lemma ofExcept (r : Except Fault α) : Within R (Action.ofExcept r) := by
  intro s o s' h
  obtain ⟨-, rfl⟩ := Prod.mk.inj (Option.some.inj h)
  exact refl_of R s

lemma pure (a : α) : Within R (Pure.pure a : Action σ α) := ofExcept (.ok a)

lemma fault (e : Fault) : Within R (Action.fault e : Action σ α) := ofExcept (.error e)

lemma read (f : σ → α) : Within R (Action.read f) := by
  intro s o s' h
  obtain ⟨-, rfl⟩ := Prod.mk.inj (Option.some.inj h)
  exact refl_of R s

lemma bind {x : Action σ α} {f : α → Action σ β} (hx : Within R x) (hf : ∀ a, Within R (f a)) :
    Within R (x >>= f) := by
  intro s o s' h
  rcases bind_eq_some.1 h with ⟨a, s₁, h₁, h₂⟩ | ⟨e, h₁, -⟩
  · exact trans_of R (hx h₁) (hf a h₂)
  · exact hx h₁

lemma map {x : Action σ α} (f : α → β) (hx : Within R x) : Within R (f <$> x) := by
  rw [map_eq_bind]
  exact hx.bind fun a => pure (f a)

lemma discard {x : Action σ α} (hx : Within R x) : Within R (Functor.discard x) := hx.map _

omit [IsPreorder σ R] in
lemma ite {c : Prop} [Decidable c] {x y : Action σ α} (hx : Within R x) (hy : Within R y) :
    Within R (if c then x else y) := by
  split
  · exact hx
  · exact hy

/-- Run over a list, each element keeping the relation. -/
lemma forM {ts : List β} {f : β → Action σ PUnit} (hf : ∀ t ∈ ts, Within R (f t)) :
    Within R (ts.forM f) := by
  induction ts with
  | nil => exact pure _
  | cons t rest ih =>
    rw [List.forM_eq_forM, List.forM_cons]
    exact (hf t (by simp)).bind fun _ => ih fun u hu => hf u (by simp [hu])

end Within

/-! ## Two actions at once -/

/-- `x` keeps `R`, and where `P` holds, `y` is the same as `x`. -/
structure Alike (R : σ → σ → Prop) (P : σ → Prop) (x y : Action σ α) : Prop where
  within : Within R x
  eq_of : ∀ s, P s → x s = y s

namespace Alike

variable {P : σ → Prop}

lemma refl {x : Action σ α} (h : Within R x) : Alike R P x x := ⟨h, fun _ _ => rfl⟩

lemma ite {c : Prop} [Decidable c] {x x' y y' : Action σ α} (hx : Alike R P x x')
    (hy : Alike R P y y') : Alike R P (if c then x else y) (if c then x' else y') := by
  split
  · exact hx
  · exact hy

variable [IsPreorder σ R]

/-- Sequences are alike if their parts are, as long as `R` keeps `P`. -/
lemma bind (keeps : ∀ s s', R s s' → P s → P s') {x y : Action σ α} {f g : α → Action σ β}
    (hxy : Alike R P x y) (hfg : ∀ a, Alike R P (f a) (g a)) : Alike R P (x >>= f) (y >>= g) := by
  refine ⟨hxy.within.bind fun a => (hfg a).within, fun s hs => ?_⟩
  rw [bind_apply, bind_apply, ← hxy.eq_of s hs]
  rcases hx : x s with _ | ⟨e | a, s₁⟩
  · rfl
  · rfl
  · exact (hfg a).eq_of s₁ (keeps s s₁ (hxy.within hx) hs)

lemma discard (keeps : ∀ s s', R s s' → P s → P s') {x y : Action σ α} (h : Alike R P x y) :
    Alike R P (Functor.discard x) (Functor.discard y) := by
  simp only [Functor.discard, Functor.mapConst, Function.comp_def]
  exact h.bind keeps fun _ => refl (Within.pure _)

end Alike

/-- From every state that `R` relates to `s`, `x` and `y` come to the same. -/
def SameFrom (R : σ → σ → Prop) (s : σ) (x y : Action σ α) : Prop := ∀ s', R s s' → x s' = y s'

namespace SameFrom

variable {s : σ} {x y : Action σ α} {f g : α → Action σ β}

lemma refl (x : Action σ α) : SameFrom R s x x := fun _ _ => rfl

lemma attempt (h : SameFrom R s x y) : SameFrom R s x.attempt y.attempt := fun s' hs => by
  rw [attempt_apply, attempt_apply, h s' hs]

lemma bind_left (h : SameFrom R s x y) : SameFrom R s (x >>= f) (y >>= f) := fun s' hs => by
  rw [bind_apply, bind_apply, h s' hs]

lemma bind_right [IsPreorder σ R] (hx : Within R x) (hfg : ∀ a, SameFrom R s (f a) (g a)) :
    SameFrom R s (x >>= f) (x >>= g) := by
  intro s' hs
  rw [bind_apply, bind_apply]
  rcases hrun : x s' with _ | ⟨_ | a, s₁⟩
  · rfl
  · rfl
  · exact hfg a s₁ (trans_of R hs (hx hrun))

end SameFrom

/-! ## Values and certain outcomes -/

section

variable {A : α → Prop} {B : β → Prop}

/-- If `x` ends, then with a value that has a property, and not with a fault. -/
def Returns (x : Action σ α) (A : α → Prop) : Prop :=
  ∀ ⦃s : σ⦄ ⦃o : Except Fault α⦄ ⦃s' : σ⦄, x s = some (o, s') → ∃ a, o = .ok a ∧ A a

namespace Returns

lemma pure {a : α} (h : A a) : Returns (Pure.pure a : Action σ α) A := by
  intro s o s' hrun
  obtain ⟨rfl, -⟩ := Prod.mk.inj (Option.some.inj hrun)
  exact ⟨a, rfl, h⟩

lemma update {f : σ → σ} : Returns (Action.update f) fun _ => True := by
  intro s o s' hrun
  obtain ⟨rfl, -⟩ := Prod.mk.inj (Option.some.inj hrun)
  exact ⟨(), rfl, trivial⟩

lemma step {f : σ → α × σ} : Returns (Action.step f) fun _ => True := by
  intro s o s' hrun
  obtain ⟨rfl, -⟩ := Prod.mk.inj (Option.some.inj hrun)
  exact ⟨_, rfl, trivial⟩

lemma attempt {x : Action σ α} : Returns x.attempt fun _ => True := by
  intro s o s' hrun
  obtain ⟨r, -, rfl⟩ := attempt_eq_some.1 hrun
  exact ⟨r, rfl, trivial⟩

lemma bind {x : Action σ α} {f : α → Action σ β} (hx : Returns x A)
    (hf : ∀ a, A a → Returns (f a) B) : Returns (x >>= f) B := by
  intro s o s' hrun
  rcases bind_eq_some.1 hrun with ⟨a, s₁, hx₁, hf₁⟩ | ⟨e, hx₁, rfl⟩
  · obtain ⟨a', heq, ha⟩ := hx hx₁
    obtain rfl := Except.ok.inj heq
    exact hf a ha hf₁
  · obtain ⟨a, ha, -⟩ := hx hx₁
    cases ha

/-- What goes on from a value goes on. -/
lemma bind_eq_some {x : Action σ α} {f : α → Action σ β} {s s' : σ} {o : Except Fault β}
    (hx : Returns x A) (h : (x >>= f) s = some (o, s')) :
    ∃ a s₁, x s = some (.ok a, s₁) ∧ f a s₁ = some (o, s') := by
  rcases Action.bind_eq_some.1 h with h | ⟨e, he, -⟩
  · exact h
  · obtain ⟨a, ha, -⟩ := hx he
    cases ha

end Returns

end

/-- If `x` ends, then with a fault. -/
def Faults (x : Action σ α) : Prop :=
  ∀ ⦃s : σ⦄ ⦃o : Except Fault α⦄ ⦃s' : σ⦄, x s = some (o, s') → ∃ e, o = .error e

namespace Faults

lemma fault (e : Fault) : Faults (Action.fault e : Action σ α) := by
  intro s o s' hrun
  obtain ⟨rfl, -⟩ := Prod.mk.inj (Option.some.inj hrun)
  exact ⟨e, rfl⟩

lemma bind {x : Action σ α} {f : α → Action σ β} (hf : ∀ a, Faults (f a)) : Faults (x >>= f) := by
  intro s o s' hrun
  rcases bind_eq_some.1 hrun with ⟨a, s₁, -, hf₁⟩ | ⟨e, -, rfl⟩
  · exact hf a hf₁
  · exact ⟨e, rfl⟩

lemma ite {c : Prop} [Decidable c] {x y : Action σ α} (hx : Faults x) (hy : Faults y) :
    Faults (if c then x else y) := by
  split
  · exact hx
  · exact hy

end Faults

variable {P Q T : σ → Prop} {x : Action σ α} {f : α → Action σ β} {a : α}

/-- From wherever `P` holds, `x` ends with the outcome `o` where `Q` holds. -/
def Gives (P : σ → Prop) (x : Action σ α) (o : Except Fault α) (Q : σ → Prop) : Prop :=
  ∀ s, P s → ∃ s', x s = some (o, s') ∧ Q s'

namespace Gives

lemma ofExcept (o : Except Fault α) : Gives P (Action.ofExcept o) o P := fun s hs => ⟨s, rfl, hs⟩

lemma pure (a : α) : Gives P (Pure.pure a : Action σ α) (.ok a) P := ofExcept (.ok a)

lemma read {f : σ → α} (h : ∀ s, P s → f s = a) : Gives P (Action.read f) (.ok a) P :=
  fun s hs => ⟨s, by rw [read_apply, h s hs], hs⟩

lemma attempt {o : Except Fault α} (h : Gives P x o Q) : Gives P x.attempt (.ok o) Q := by
  intro s hs
  obtain ⟨s', hx, hs'⟩ := h s hs
  exact ⟨s', by rw [attempt_apply, hx, Option.map_some], hs'⟩

lemma bind {o : Except Fault β} (hx : Gives P x (.ok a) Q) (hf : Gives Q (f a) o T) :
    Gives P (x >>= f) o T := by
  intro s hs
  obtain ⟨s₁, hx, hs₁⟩ := hx s hs
  obtain ⟨s', hf, hs'⟩ := hf s₁ hs₁
  exact ⟨s', by rw [bind_apply, hx]; exact hf, hs'⟩

lemma bind_error {e : Fault} (hx : Gives P x (.error e) Q) : Gives P (x >>= f) (.error e) Q := by
  intro s hs
  obtain ⟨s', hx, hs'⟩ := hx s hs
  exact ⟨s', by rw [bind_apply, hx], hs'⟩

lemma discard {o : Except Fault α} (hx : Gives P x o Q) :
    Gives P (Functor.discard x) (o.map fun _ => ()) Q := by
  simp only [Functor.discard, Functor.mapConst, Function.comp_def]
  cases o with
  | ok a => exact hx.bind (pure _)
  | error e => exact hx.bind_error

end Gives

/-- `x` ends, and the states before and after it are related by `R`. -/
def Ensures (R : σ → σ → Prop) (x : Action σ α) : Prop :=
  ∀ s, ∃ outcome s', x s = some (outcome, s') ∧ R s s'

namespace Ensures

variable {R : σ → σ → Prop}

lemma update {f : σ → σ} (hf : ∀ s, R s (f s)) : Ensures R (Action.update f) :=
  fun s => ⟨_, _, rfl, hf s⟩

lemma step {f : σ → α × σ} (hf : ∀ s, R s (f s).2) : Ensures R (Action.step f) :=
  fun s => ⟨_, _, rfl, hf s⟩

lemma ite {c : Prop} [Decidable c] {x y : Action σ α} (hx : Ensures R x) (hy : Ensures R y) :
    Ensures R (if c then x else y) := by
  split
  · exact hx
  · exact hy

variable [IsPreorder σ R]

lemma ofExcept (r : Except Fault α) : Ensures R (Action.ofExcept r) :=
  fun s => ⟨r, s, rfl, refl_of R s⟩

lemma pure (a : α) : Ensures R (Pure.pure a : Action σ α) := ofExcept (.ok a)

lemma fault (e : Fault) : Ensures R (Action.fault e : Action σ α) := ofExcept (.error e)

lemma read (f : σ → α) : Ensures R (Action.read f) := fun s => ⟨_, s, rfl, refl_of R s⟩

lemma bind {x : Action σ α} {f : α → Action σ β} (hx : Ensures R x) (hf : ∀ a, Ensures R (f a)) :
    Ensures R (x >>= f) := by
  intro s
  obtain ⟨_ | a, s₁, hx, hs₁⟩ := hx s
  · exact ⟨_, s₁, by rw [bind_apply, hx], hs₁⟩
  · obtain ⟨o, s', hf, hs'⟩ := hf a s₁
    exact ⟨o, s', by rw [bind_apply, hx]; exact hf, trans_of R hs₁ hs'⟩

end Ensures

end Lookahead.Action
