import Lookahead.Failure

/-!
# Actions

What a recognizer does is an *action* on its state `σ`: it may return a value, it may be
interrupted by a fault, and in both cases it leaves a state behind.  It may also fail to come to an
end, which is what the outer `Option` stands for; no library operation does that by itself, but a
grammar's programs can loop.

The equations `pure_apply`, `bind_apply` and so on are all that has to be known about actions.
-/

namespace Lookahead

/-- A step of a recognizer: from a state to a value or a fault, and a state.  It is `none` if the
step does not end. -/
def Action (σ α : Type) : Type := σ → Option (Except Fault α × σ)

namespace Action

variable {σ α β : Type}

/-- Return a value and leave the state as it is. -/
protected def pure (a : α) : Action σ α := fun s => some (.ok a, s)

/-- Do one thing, and with its value the next. A fault of the first is the fault of both, and then
the second is not done. -/
protected def bind (x : Action σ α) (f : α → Action σ β) : Action σ β := fun s =>
  match x s with
  | some (.ok a, s) => f a s
  | some (.error e, s) => some (.error e, s)
  | none => none

instance : Monad (Action σ) where
  pure := Action.pure
  bind := Action.bind

/-- Be interrupted by a fault, with the state as it is. -/
def fault (e : Fault) : Action σ α := fun s => some (.error e, s)

/-- Come to no end. -/
def unending : Action σ α := fun _ => none

/-- Return a value or be interrupted by a fault, as an outcome says. -/
def ofExcept (r : Except Fault α) : Action σ α := fun s => some (r, s)

/-- Do something, and return its outcome as a value. No fault gets past this, but what does not end
still does not. -/
def attempt (x : Action σ α) : Action σ (Except Fault α) := fun s =>
  (x s).map fun (r, s) => (.ok r, s)

/-- Compute a value from the state. -/
def read (f : σ → α) : Action σ α := fun s => some (.ok (f s), s)

/-- Change the state. -/
def update (f : σ → σ) : Action σ Unit := fun s => some (.ok (), f s)

/-- Compute a value from the state and change the state. -/
def step (f : σ → α × σ) : Action σ α := fun s => let (a, s) := f s; some (.ok a, s)

@[simp] theorem pure_apply (a : α) (s : σ) : (pure a : Action σ α) s = some (.ok a, s) := rfl

theorem bind_apply (x : Action σ α) (f : α → Action σ β) (s : σ) :
    (x >>= f) s = match x s with
      | some (.ok a, s) => f a s
      | some (.error e, s) => some (.error e, s)
      | none => none := rfl

@[simp] theorem fault_apply (e : Fault) (s : σ) :
    (fault e : Action σ α) s = some (.error e, s) := rfl

@[simp] theorem unending_apply (s : σ) : (unending : Action σ α) s = none := rfl

@[simp] theorem ofExcept_apply (r : Except Fault α) (s : σ) :
    (ofExcept r : Action σ α) s = some (r, s) := rfl

@[simp] theorem attempt_apply (x : Action σ α) (s : σ) :
    attempt x s = (x s).map fun (r, s) => (.ok r, s) := rfl

@[simp] theorem read_apply (f : σ → α) (s : σ) : read f s = some (.ok (f s), s) := rfl

@[simp] theorem update_apply (f : σ → σ) (s : σ) : update f s = some (.ok (), f s) := rfl

@[simp] theorem step_apply (f : σ → α × σ) (s : σ) :
    step f s = some (.ok (f s).1, (f s).2) := rfl

instance : LawfulMonad (Action σ) := LawfulMonad.mk' _
  (fun x => by
    funext s
    show Action.bind x (Action.pure ∘ id) s = x s
    unfold Action.bind
    rcases x s with _ | ⟨_ | _, _⟩ <;> rfl)
  (fun _ _ => rfl)
  (fun x f g => by
    funext s
    simp only [bind_apply]
    rcases x s with _ | ⟨_ | _, _⟩ <;> rfl)

end Action

end Lookahead
