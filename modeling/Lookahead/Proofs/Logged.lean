import Lookahead.Proofs.Action

/-!
# Actions with a log

`Logged ε σ α` is the type of actions that write a log of entries `ε`.  The log is kept whatever
comes of the action, and it has no influence on it: its sequences are those of actions, so that a
copy of an action that also says what it does is the action again once the log is forgotten
(`Logged.forget`).  What a log says is therefore said of the action itself.

`Logged.Within` is `Action.Within` with a log: a relation between the state before, the log and the
state after is had from the parts of a sequence if it composes along with the logs (`Composes`).
-/

namespace Lookahead

/-- A step with a log, from a state to a value or a fault, and a state.  It is `none` if the step
does not end. -/
def Logged (ε σ α : Type) : Type := σ → Option (List ε × Except Fault α × σ)

namespace Logged

variable {ε σ α β : Type}

/-- Do nothing, and log nothing. -/
protected def pure (a : α) : Logged ε σ α := fun s => some ([], .ok a, s)

/-- Do one thing, and with its value the next; a fault ends both.  The logs are joined. -/
protected def bind (x : Logged ε σ α) (f : α → Logged ε σ β) : Logged ε σ β := fun s =>
  match x s with
  | some (log, .ok a, s) => (f a s).map fun (log', o, s) => (log ++ log', o, s)
  | some (log, .error e, s) => some (log, .error e, s)
  | none => none

instance : Monad (Logged ε σ) where
  pure := Logged.pure
  bind := Logged.bind

/-- An action, and the entries that are told of it: by the state before, the outcome, and the state
after. -/
def telling (entries : σ → Except Fault α → σ → List ε) (x : Action σ α) : Logged ε σ α :=
  fun s => (x s).map fun (o, s') => (entries s o s', o, s')

/-- An action of which nothing is logged, and which is otherwise done as it is. -/
def silent (x : Action σ α) : Logged ε σ α := fun s => (x s).map fun (o, s) => ([], o, s)

/-- Log something, and do nothing. -/
def tell (log : List ε) : Logged ε σ Unit := fun s => some (log, .ok (), s)

/-- Do something, and return its fault as a value. What was logged before the fault stays in the
log. -/
def attempt (x : Logged ε σ α) : Logged ε σ (Except Fault α) := fun s =>
  (x s).map fun (log, o, s) => (log, .ok o, s)

/-- Do something, and change its log as a whole. -/
def editing (f : List ε → List ε) (x : Logged ε σ α) : Logged ε σ α := fun s =>
  (x s).map fun (log, r) => (f log, r)

/-- The action without its log, which is what is proved to be the action of the model. -/
def forget (x : Logged ε σ α) : Action σ α := fun s => (x s).map fun (_, o, s) => (o, s)

lemma bind_apply (x : Logged ε σ α) (f : α → Logged ε σ β) (s : σ) :
    (x >>= f) s = match x s with
      | some (log, .ok a, s) => (f a s).map fun (log', o, s) => (log ++ log', o, s)
      | some (log, .error e, s) => some (log, .error e, s)
      | none => none := rfl

/-! ## Forgetting -/

@[simp] lemma forget_pure (a : α) : forget (pure a : Logged ε σ α) = pure a := rfl

@[simp] lemma forget_tell (log : List ε) : forget (tell log : Logged ε σ Unit) = pure () := rfl

@[simp] lemma forget_telling (entries : σ → Except Fault α → σ → List ε) (x : Action σ α) :
    forget (telling entries x) = x := by
  funext s
  simp only [forget, telling, Option.map_map]
  exact Option.map_id_apply

@[simp] lemma forget_silent (x : Action σ α) : forget (silent x : Logged ε σ α) = x :=
  forget_telling (fun _ _ _ => []) x

@[simp] lemma forget_attempt (x : Logged ε σ α) : forget x.attempt = (forget x).attempt := by
  funext s
  simp only [forget, attempt, Action.attempt_apply, Option.map_map]
  rfl

@[simp] lemma forget_editing (f : List ε → List ε) (x : Logged ε σ α) :
    forget (editing f x) = forget x := by
  funext s
  simp only [forget, editing, Option.map_map]
  rfl

@[simp] lemma forget_bind (x : Logged ε σ α) (f : α → Logged ε σ β) :
    forget (x >>= f) = forget x >>= fun a => forget (f a) := by
  funext s
  simp only [forget, bind_apply, Action.bind_apply]
  rcases x s with _ | ⟨log, e | a, s₁⟩
  · rfl
  · rfl
  · simp only [Option.map_some, Option.map_map]
    rfl

@[simp] lemma forget_discard (x : Logged ε σ α) :
    forget (Functor.discard x) = Functor.discard (forget x) :=
  forget_bind x fun _ => pure ()

@[simp] lemma forget_ite (c : Prop) [Decidable c] (x y : Logged ε σ α) :
    forget (if c then x else y) = if c then forget x else forget y :=
  apply_ite forget c x y

/-- An action that ends has a log. -/
lemma exists_log {x : Logged ε σ α} {s s' : σ} {o : Except Fault α}
    (h : forget x s = some (o, s')) : ∃ log, x s = some (log, o, s') := by
  obtain ⟨⟨log, o', s''⟩, hx, heq⟩ := Option.map_eq_some_iff.1 h
  obtain ⟨rfl, rfl⟩ := Prod.mk.inj heq
  exact ⟨log, hx⟩

lemma forget_eq_some {x : Logged ε σ α} {s s' : σ} {log : List ε} {o : Except Fault α}
    (h : x s = some (log, o, s')) : forget x s = some (o, s') := by
  rw [forget, h, Option.map_some]

/-! ## Related states -/

/-- Whatever comes of `x`, the states before and after it and its log are related by `R`. -/
def Within (R : σ → List ε → σ → Prop) (x : Logged ε σ α) : Prop :=
  ∀ ⦃s : σ⦄ ⦃log : List ε⦄ ⦃o : Except Fault α⦄ ⦃s' : σ⦄, x s = some (log, o, s') → R s log s'

/-- A relation by way of a log that composes as the logs are joined. -/
class Composes (R : σ → List ε → σ → Prop) : Prop where
  refl (s : σ) : R s [] s
  trans {s s₁ s' : σ} {log log' : List ε} (h : R s log s₁) (h' : R s₁ log' s') :
    R s (log ++ log') s'

/-- What leads from one state to another without an entry. -/
def Silently (R : σ → List ε → σ → Prop) (s s' : σ) : Prop := R s [] s'

variable {R T : σ → List ε → σ → Prop}

instance [Composes R] : IsPreorder σ (Silently R) where
  refl s := Composes.refl s
  trans _ _ _ h h' := Composes.trans h h'

namespace Within

lemma mono {x : Logged ε σ α} (h : ∀ s log s', R s log s' → T s log s') (hx : Within R x) :
    Within T x :=
  fun _ _ _ _ hs => h _ _ _ (hx hs)

lemma telling {entries : σ → Except Fault α → σ → List ε} {x : Action σ α}
    (h : ∀ ⦃s o s'⦄, x s = some (o, s') → R s (entries s o s') s') :
    Within R (Logged.telling entries x) := by
  intro s log o s' hrun
  obtain ⟨⟨o', s''⟩, hx, heq⟩ := Option.map_eq_some_iff.1 hrun
  obtain ⟨rfl, rfl, rfl⟩ : entries s o' s'' = log ∧ o' = o ∧ s'' = s' := by simpa using heq
  exact h hx

lemma silent {x : Action σ α} (h : Action.Within (Silently R) x) : Within R (Logged.silent x) :=
  telling fun _ _ _ hrun => h hrun

lemma tell {log : List ε} (h : ∀ s, R s log s) : Within R (Logged.tell log) := by
  intro s log' o s' hrun
  obtain ⟨rfl, rfl, rfl⟩ : log = log' ∧ .ok () = o ∧ s = s' := by simpa using Option.some.inj hrun
  exact h s

lemma attempt {x : Logged ε σ α} (h : Within R x) : Within R x.attempt := by
  intro s log o s' hrun
  obtain ⟨⟨log', o', s''⟩, hx, heq⟩ := Option.map_eq_some_iff.1 hrun
  obtain ⟨rfl, rfl, rfl⟩ : log' = log ∧ .ok o' = o ∧ s'' = s' := by simpa using heq
  exact h hx

/-- If the log is thrown away, it does not matter what it is. -/
lemma erasing {x : Logged ε σ α} (h : Action.Within (Silently R) (forget x)) :
    Within R (x.editing fun _ => []) := by
  intro s log o s' hrun
  obtain ⟨⟨log', o', s''⟩, hx, heq⟩ := Option.map_eq_some_iff.1 hrun
  obtain ⟨rfl, rfl, rfl⟩ : [] = log ∧ o' = o ∧ s'' = s' := by simpa using heq
  exact h (forget_eq_some hx)

lemma editing_id {x : Logged ε σ α} (h : Within R x) : Within R (x.editing id) := by
  intro s log o s' hrun
  obtain ⟨⟨log', o', s''⟩, hx, heq⟩ := Option.map_eq_some_iff.1 hrun
  obtain ⟨rfl, rfl, rfl⟩ : log' = log ∧ o' = o ∧ s'' = s' := by simpa using heq
  exact h hx

lemma ite {c : Prop} [Decidable c] {x y : Logged ε σ α} (hx : Within R x) (hy : Within R y) :
    Within R (if c then x else y) := by
  split
  · exact hx
  · exact hy

variable [Composes R]

lemma read (f : σ → α) : Within R (Logged.silent (.read f)) := silent (Action.Within.read f)

lemma ofExcept (o : Except Fault α) : Within R (Logged.silent (.ofExcept o)) :=
  silent (Action.Within.ofExcept o)

lemma pure (a : α) : Within R (Pure.pure a : Logged ε σ α) := by
  intro s log o s' hrun
  obtain ⟨rfl, rfl, rfl⟩ : [] = log ∧ .ok a = o ∧ s = s' := by simpa using Option.some.inj hrun
  exact Composes.refl s

/-- A sequence, where the first part only returns values that have a property. -/
lemma bind_of {A : α → Prop} {x : Logged ε σ α} {f : α → Logged ε σ β} (hx : Within R x)
    (hA : ∀ ⦃s log a s'⦄, x s = some (log, .ok a, s') → A a)
    (hf : ∀ a, A a → Within R (f a)) : Within R (x >>= f) := by
  intro s log o s' hrun
  rw [bind_apply] at hrun
  rcases hfirst : x s with _ | ⟨log₁, e | a, s₁⟩
  · rw [hfirst] at hrun
    cases hrun
  · rw [hfirst] at hrun
    obtain ⟨rfl, rfl, rfl⟩ : log₁ = log ∧ .error e = o ∧ s₁ = s' := by
      simpa using Option.some.inj hrun
    exact hx hfirst
  · rw [hfirst] at hrun
    obtain ⟨⟨log₂, o', s₂⟩, hrest, heq⟩ := Option.map_eq_some_iff.1 hrun
    obtain ⟨rfl, rfl, rfl⟩ : log₁ ++ log₂ = log ∧ o' = o ∧ s₂ = s' := by simpa using heq
    exact Composes.trans (hx hfirst) (hf a (hA hfirst) hrest)

lemma bind {x : Logged ε σ α} {f : α → Logged ε σ β} (hx : Within R x) (hf : ∀ a, Within R (f a)) :
    Within R (x >>= f) :=
  hx.bind_of (A := fun _ => True) (fun _ _ _ _ _ => trivial) fun a _ => hf a

lemma discard {x : Logged ε σ α} (hx : Within R x) : Within R (Functor.discard x) :=
  hx.bind fun _ => pure ()

/-- Run over a list, each element keeping the relation. -/
lemma forM {ts : List β} {f : β → Logged ε σ PUnit} (hf : ∀ t ∈ ts, Within R (f t)) :
    Within R (ts.forM f) := by
  induction ts with
  | nil => exact pure _
  | cons t rest ih =>
    rw [List.forM_eq_forM, List.forM_cons]
    exact (hf t (by simp)).bind fun _ => ih fun u hu => hf u (by simp [hu])

end Within

lemma forget_forM {ts : List β} {f : β → Logged ε σ PUnit} :
    forget (ts.forM f) = ts.forM fun t => forget (f t) := by
  induction ts with
  | nil => rfl
  | cons t rest ih =>
    simp only [List.forM_eq_forM, List.forM_cons, forget_bind] at ih ⊢
    rw [ih]

end Logged

end Lookahead
