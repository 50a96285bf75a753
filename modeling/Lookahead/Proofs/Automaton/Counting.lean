import Lookahead.Automaton.Prediction
import Lookahead.Proofs.Action

/-!
# What a walk takes

`countedWalk` is `walk` with a count of what it does: a list with one number for each unit that was
ahead, which says how many special states were resolved while it was.  A unit more is ahead with
each consumption, so a walk consumes one unit less than the list is long.

A count comes with every outcome, faults included, so the outcome is returned as a value next to it.
Forgetting the count gives back the walk (`forget_countedWalk`).
-/

namespace Lookahead

open Action

namespace Action

variable {σ α β γ : Type}

/-- Go on with the outcome, and forget what came with it. -/
def forget (x : Action σ (γ × Except Fault α)) : Action σ α := x >>= fun p => .ofExcept p.2

lemma forget_attempt (c : γ) (x : Action σ α) :
    forget (do return (c, ← x.attempt)) = x := by
  funext s
  simp only [forget, bind_apply, attempt_apply, pure_apply]
  rcases x s with _ | ⟨o, s'⟩ <;> rfl

lemma attempt_bind_forget (x : Action σ β) (f : Except Fault β → Action σ (γ × Except Fault α))
    (g : β → Action σ α) (hok : ∀ b, forget (f (.ok b)) = g b)
    (herror : ∀ e, forget (f (.error e)) = .fault e) : forget (x.attempt >>= f) = x >>= g := by
  funext s
  rw [forget, bind_assoc, bind_apply, bind_apply, attempt_apply]
  rcases x s with _ | ⟨e | b, s'⟩
  · rfl
  · exact congrFun (herror e) s'
  · exact congrFun (hok b) s'

end Action

namespace Automaton

/-- The special state that decides at a state, if the state has one and the automaton knows it. -/
def specialAt (a : Automaton) (s : Nat) : Option SpecialState :=
  (a.states[s]?.bind AutomatonState.special).bind a.special

variable {a : Automaton} {s : Nat} {special : SpecialState}

lemma specialAt_eq_some (h : a.specialAt s = some special) :
    ∃ state i, a.states[s]? = some state ∧ state.special = some i ∧ a.special i = some special := by
  obtain ⟨i, hi, hspecial⟩ := Option.bind_eq_some_iff.1 h
  obtain ⟨state, hstate, hi⟩ := Option.bind_eq_some_iff.1 hi
  exact ⟨state, i, hstate, hi, hspecial⟩

lemma lt_stateCount_of_specialAt (h : a.specialAt s = some special) : s < a.stateCount := by
  obtain ⟨state, i, hstate, -⟩ := specialAt_eq_some h
  exact (Array.getElem?_eq_some_iff.1 hstate).1

end Automaton

namespace Recognizer

variable {S X : Type} [Cursor S]

/-! ## Arriving at a state -/

section

variable {a : Automaton} {s : Nat}

lemma mapError_ok {ε ε' α : Type} (f : ε → ε') (a : α) :
    (Except.ok a : Except ε α).mapError f = .ok a := rfl

lemma arrivingAt_of_special {special : SpecialState} (h : a.specialAt s = some special)
    (follow : SpecialState → Action (Recognizer S X) Settled) :
    arrivingAt a s follow = follow special := by
  obtain ⟨state, i, hstate, hi, hspecial⟩ := Automaton.specialAt_eq_some h
  have hok : a.state s = .ok state := by simp [Automaton.state, hstate]
  funext r
  simp [arrivingAt, bind_apply, hok, mapError_ok, hi, hspecial]

/-- Where there is no special state, it does not matter how one would be followed. -/
lemma arrivingAt_of_none (h : a.specialAt s = none)
    (follow follow' : SpecialState → Action (Recognizer S X) Settled) :
    arrivingAt a s follow = arrivingAt a s follow' := by
  funext r
  unfold arrivingAt Automaton.state
  cases hstate : a.states[s]? with
  | none => rfl
  | some state =>
    cases hi : state.special with
    | none => simp [bind_apply, mapError_ok, hi]
    | some i =>
      have hnone : a.special i = none := by simpa [Automaton.specialAt, hstate, hi] using h
      simp [bind_apply, mapError_ok, hi, hnone]

end

/-- What a walk does at state `s` when its special state has come to something. -/
def afterResolving (a : Automaton) (s : Nat) (follow : Nat → Action (Recognizer S X) Settled) :
    Resolution → Action (Recognizer S X) Settled
  | .alternative n => return .alternative n
  | .state t => if t = s then noViable a s else follow t
  | .stuck => noViable a s

lemma settle_succ_of_special {hooks : Hooks S X} {a : Automaton} {start hops s : Nat}
    {special : SpecialState} (h : a.specialAt s = some special) :
    settle hooks a start (hops + 1) s =
      resolve hooks a start special >>= afterResolving a s (settle hooks a start hops) := by
  rw [settle, arrivingAt_of_special h]
  rfl

lemma settle_of_none {hooks : Hooks S X} {a : Automaton} {start hops s : Nat}
    (h : a.specialAt s = none) :
    settle hooks a start hops s = arrivingAt a s fun _ => noViable a s := by
  cases hops with
  | zero => rfl
  | succ hops => exact arrivingAt_of_none h _ _

/-! ## Counts -/

variable (hooks : Hooks S X) (a : Automaton) (start : Nat)

/-- `settle`, with the number of special states that were resolved on the way, whatever came of
them. -/
def countedSettle : (hops s : Nat) → Action (Recognizer S X) (Nat × Except Fault Settled)
  | 0, s => do
    return (0, ← (arrivingAt a s fun _ => noViable a s).attempt)
  | hops + 1, s =>
    match a.specialAt s with
    | none => do
      return (0, ← (arrivingAt a s fun _ => noViable a s).attempt)
    | some special => do
      match ← (resolve hooks a start special).attempt with
      | .ok (.alternative n) => return (1, .ok (.alternative n))
      | .ok (.state t) =>
        if t = s then return (1, ← (noViable a s).attempt)
        else
          let (n, settled) ← countedSettle hops t
          return (n + 1, settled)
      | .ok .stuck => return (1, ← (noViable a s).attempt)
      | .error cause => return (1, .error cause)

/-- `deciding`, with the numbers of special states that were resolved, here and then further on. -/
def countedDeciding (s : Nat)
    (onward : Nat → Action (Recognizer S X) (List Nat × Except Fault Nat)) :
    Action (Recognizer S X) (List Nat × Except Fault Nat) := do
  let (n, settled) ← countedSettle hooks a start a.stateCount s
  match settled with
  | .error cause => return ([n], .error cause)
  | .ok (.alternative m) => return ([n], .ok m)
  | .ok (.state s state) =>
    match state.accept with
    | some m => return ([n], .ok m)
    | none =>
      let (ns, outcome) ← onward s
      return (n :: ns, outcome)

/-- `walk`, with the counts: for each unit that was ahead, the number of special states that were
resolved. -/
def countedWalk : (budget s : Nat) → Action (Recognizer S X) (List Nat × Except Fault Nat)
  | 0, s => countedDeciding hooks a start s fun s => do
    return ([], ← (noViable a s).attempt)
  | budget + 1, s => countedDeciding hooks a start s fun s => do
    match a.step s (← lookahead 1) with
    | .accept n => return ([], .ok n)
    | .next target | .special target =>
      consume
      countedWalk budget target
    | .none => return ([], ← (noViable a s).attempt)

variable {hooks a start}

lemma countedSettle_le (hops s : Nat) :
    Returns (countedSettle hooks a start hops s) fun p => p.1 ≤ hops := by
  induction hops generalizing s with
  | zero => exact Returns.attempt.bind fun _ _ => .pure (Nat.le_refl 0)
  | succ hops ih =>
    rw [countedSettle]
    have hone : 1 ≤ hops + 1 := Nat.le_add_left 1 hops
    split
    · exact Returns.attempt.bind fun _ _ => .pure (Nat.zero_le _)
    · refine Returns.attempt.bind fun resolution _ => ?_
      split
      · exact .pure hone
      · split
        · exact Returns.attempt.bind fun _ _ => .pure hone
        · exact (ih _).bind fun p hp => .pure (Nat.succ_le_succ hp)
      · exact Returns.attempt.bind fun _ _ => .pure hone
      · exact .pure hone

lemma countedDeciding_le {s budget : Nat}
    {onward : Nat → Action (Recognizer S X) (List Nat × Except Fault Nat)}
    (honward : ∀ t, Returns (onward t) fun p =>
      p.1.length ≤ budget ∧ ∀ n ∈ p.1, n ≤ a.stateCount) :
    Returns (countedDeciding hooks a start s onward) fun p =>
      p.1.length ≤ budget + 1 ∧ ∀ n ∈ p.1, n ≤ a.stateCount := by
  refine (countedSettle_le a.stateCount s).bind fun (n, settled) hn => ?_
  have hsingle : ([n] : List Nat).length ≤ budget + 1 ∧ ∀ m ∈ [n], m ≤ a.stateCount :=
    ⟨Nat.succ_le_succ (Nat.zero_le _), by simpa using hn⟩
  simp only
  split
  · exact .pure hsingle
  · exact .pure hsingle
  · split
    · exact .pure hsingle
    · refine (honward _).bind fun (ns, outcome) ⟨hlength, hall⟩ => .pure ⟨?_, fun m hm => ?_⟩
      · exact Nat.succ_le_succ hlength
      · rcases List.mem_cons.1 hm with rfl | hm
        · exact hn
        · exact hall m hm

/-- No more units are consumed than allowed, and no more special states resolved in between than
there are states. -/
lemma countedWalk_le (budget s : Nat) :
    Returns (countedWalk hooks a start budget s) fun p =>
      p.1.length ≤ budget + 1 ∧ ∀ n ∈ p.1, n ≤ a.stateCount := by
  have hnil (b : Nat) : ([] : List Nat).length ≤ b ∧ ∀ n ∈ ([] : List Nat), n ≤ a.stateCount :=
    ⟨Nat.zero_le b, by simp⟩
  induction budget generalizing s with
  | zero =>
    exact countedDeciding_le fun t => Returns.attempt.bind fun _ _ => .pure (hnil 0)
  | succ budget ih =>
    have hlook : Returns (lookahead 1 : Action (Recognizer S X) TokenType) fun _ => True := by
      unfold lookahead stepInput
      exact Returns.step
    refine countedDeciding_le fun t => hlook.bind fun type _ => ?_
    split
    · exact .pure (hnil _)
    · exact Returns.update.bind fun _ _ => ih _
    · exact Returns.update.bind fun _ _ => ih _
    · exact Returns.attempt.bind fun _ _ => .pure (hnil _)

/-! ## The counted walk is the walk -/

lemma forget_countedSettle (hops s : Nat) :
    forget (countedSettle hooks a start hops s) = settle hooks a start hops s := by
  induction hops generalizing s with
  | zero => exact forget_attempt 0 _
  | succ hops ih =>
    rw [countedSettle]
    cases hspecial : a.specialAt s with
    | none =>
      rw [settle_of_none hspecial]
      exact forget_attempt 0 _
    | some special =>
      rw [settle_succ_of_special hspecial]
      refine attempt_bind_forget _ _ _ (fun resolution => ?_) fun e => rfl
      rcases resolution with t | n | _
      · by_cases hself : t = s
        · simp only [if_pos hself, afterResolving]
          exact forget_attempt 1 _
        · simp only [if_neg hself, afterResolving, ← ih t]
          simp only [forget, bind_assoc, pure_bind]
      · rfl
      · exact forget_attempt 1 _

lemma forget_countedDeciding (s : Nat)
    (onward : Nat → Action (Recognizer S X) (List Nat × Except Fault Nat)) :
    forget (countedDeciding hooks a start s onward) =
      deciding hooks a start s fun t => forget (onward t) := by
  unfold deciding countedDeciding
  rw [← forget_countedSettle, forget, forget, bind_assoc, bind_assoc]
  congr 1
  funext (n, settled)
  rcases settled with cause | (⟨t, state⟩ | m)
  · rfl
  · show _ = (match state.accept with
      | some n => Pure.pure n
      | none => forget (onward t))
    simp only
    split
    · rfl
    · simp only [forget, bind_assoc, pure_bind]
  · rfl

/-- **Counting changes nothing.** -/
lemma forget_countedWalk (budget s : Nat) :
    forget (countedWalk hooks a start budget s) = walk hooks a start budget s := by
  induction budget generalizing s with
  | zero =>
    rw [countedWalk, walk, forget_countedDeciding]
    simp only [forget_attempt]
  | succ budget ih =>
    rw [countedWalk, walk, forget_countedDeciding]
    congr 1
    funext t
    rw [forget, bind_assoc]
    congr 1
    funext type
    cases a.step t type with
    | accept n => rfl
    | next u | special u =>
      show forget (consume >>= fun _ => countedWalk hooks a start budget u) =
        consume >>= fun _ => walk hooks a start budget u
      rw [← ih u, forget, forget, bind_assoc]
    | none => exact forget_attempt [] _

end Recognizer

end Lookahead
