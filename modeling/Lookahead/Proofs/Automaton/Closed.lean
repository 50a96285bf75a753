import Lookahead.Automaton.Clauses
import Lookahead.Automaton.Packed
import Lookahead.Proofs.Automaton.Reference
import Lookahead.Proofs.Automaton.Survey
import Lookahead.Proofs.Stream.Savepoints

/-!
# Accepted automata are closed

An automaton is accepted only if it is `Closed`: whatever link a walk can take from one of its
states leads to another one of them, and what it can predict is among its alternatives.  So a
prediction has nobody to blame for a misuse but its hooks.

Where a misuse comes from is read off the log of the prediction (`Survey.predict`).  A hook may have
raised it.  Or a hook has popped a mark that the prediction needs: the prediction's own, or the one
of the speculation that the hook runs in (`Finding.Excuses`).  `predict_closed` says that there is
no third way; `Sound` is what it is carried through a walk by.
-/

namespace Lookahead

/-! ## Closed automata -/

namespace Automaton

/-- All links lead to states that exist, and all that can be predicted is listed, in order. -/
structure Closed (a : Automaton) : Prop where
  nonempty : 0 < a.stateCount
  table : ∀ s ∈ a.states, ∀ t, some t ∈ s.edges → t < a.stateCount
  endOfToken : ∀ s ∈ a.states, ∀ t, s.endOfToken = some t → t < a.stateCount
  endOfInput : ∀ s ∈ a.states, ∀ t, s.endOfInput = some t → t < a.stateCount
  special : ∀ s ∈ a.states, ∀ i, s.special = some i → i < a.specials.size
  predicated : ∀ s ∈ a.specials, ∀ e ∈ s.edges, e.target < a.stateCount
  fallback : ∀ s ∈ a.specials, ∀ t, s.fallback = some t → t < a.stateCount
  alternatives_iff : ∀ n, n ∈ a.alternatives ↔
    (∃ s ∈ a.states, s.accept = some n) ∨ ∃ s ∈ a.specials, n ∈ s.simulate
  ascending : a.alternatives.Pairwise (· < ·)

lemma forM_eq_ok {α ε : Type} {f : α → Except ε PUnit} {xs : List α} :
    xs.forM f = .ok () ↔ ∀ x ∈ xs, f x = .ok () := by
  induction xs with
  | nil => simp [pure, Except.pure]
  | cons x rest ih =>
    rw [List.forM_eq_forM] at ih ⊢
    rw [List.forM_cons, List.forall_mem_cons, ← ih]
    cases f x with
    | error e => simp [bind, Except.bind]
    | ok u => simp [bind, Except.bind]

lemma bind_eq_ok {α β ε : Type} {x : Except ε α} {f : α → Except ε β} {b : β} :
    x >>= f = .ok b ↔ ∃ a, x = .ok a ∧ f a = .ok b := by
  cases x <;> simp [bind, Except.bind]

lemma checkTarget_eq_ok {decision count target : Nat} {role : EdgeRole} :
    checkTarget decision count role target = .ok () ↔ target < count := by
  unfold checkTarget
  split <;> simp_all

lemma checkState_eq_ok {decision count specials : Nat} {s : AutomatonState}
    (h : checkState decision count specials s = .ok ()) :
    (∀ p ∈ stateTargets s, p.2 < count) ∧ ∀ i, s.special = some i → i < specials := by
  obtain ⟨⟨⟩, htargets, hspecial⟩ := bind_eq_ok.1 h
  refine ⟨fun p hp => checkTarget_eq_ok.1 (forM_eq_ok.1 htargets p hp), fun i hi => ?_⟩
  by_contra hnot
  have hrefused := forM_eq_ok.1 hspecial i (by simp [hi])
  rw [if_neg hnot] at hrefused
  cases hrefused

/-- **Only closed tables are accepted.** If some states and special states make an automaton at all,
then all its links lead to states that exist, and it lists what it can predict in order. -/
theorem closed_of_ofStates {decision : Nat} {description : String} {states : List AutomatonState}
    {specials : List SpecialState} {a : Automaton}
    (h : ofStates decision description states specials = .ok a) : a.Closed := by
  unfold ofStates at h
  split at h
  · cases h
  rename_i hempty
  obtain ⟨⟨⟩, hstates, h⟩ := bind_eq_ok.1 h
  obtain ⟨⟨⟩, hspecials, h⟩ := bind_eq_ok.1 h
  obtain rfl := Except.ok.inj h
  have hstate {s : AutomatonState} (hs : s ∈ states) :=
    checkState_eq_ok (forM_eq_ok.1 hstates s hs)
  have hspecial {s : SpecialState} (hs : s ∈ specials) (role : EdgeRole) {t : Nat}
      (ht : (role, t) ∈ specialTargets s) : t < states.length :=
    checkTarget_eq_ok.1 (forM_eq_ok.1 (forM_eq_ok.1 hspecials s hs) _ ht)
  obtain ⟨hsorted, hmem⟩ := ascending_spec
    (states.filterMap AutomatonState.accept ++ specials.flatMap SpecialState.simulate)
  constructor
  · exact List.length_pos_iff.2 (by simpa using hempty)
  · intro s hs t ht
    exact (hstate (by simpa using hs)).1 (.table, t) (by simpa [stateTargets] using ht)
  · intro s hs t ht
    exact (hstate (by simpa using hs)).1 (.endOfToken, t) (by simp [stateTargets, ht])
  · intro s hs t ht
    exact (hstate (by simpa using hs)).1 (.endOfInput, t) (by simp [stateTargets, ht])
  · intro s hs i hi
    exact (hstate (by simpa using hs)).2 i hi
  · intro s hs e he
    refine hspecial (by simpa using hs) .predicated ?_
    simp only [specialTargets, List.mem_append, List.mem_map]
    exact .inl ⟨e, he, rfl⟩
  · intro s hs t ht
    exact hspecial (by simpa using hs) .fallback (by simp [specialTargets, ht])
  · intro n
    simp [hmem]
  · exact hsorted

/-- The automaton is what some clauses describe, or what packed tables stand for. -/
inductive Accepted (a : Automaton) : Prop
  | built {decision : Nat} {description : String} {clauses : List AutomatonClause}
      (h : ofClauses decision description clauses = .ok a)
  | unpacked {p : PackedTables} {specials : List SpecialState} (h : ofPacked p specials = .ok a)

lemma Accepted.closed {a : Automaton} (h : a.Accepted) : a.Closed := by
  cases h with
  | built h => exact closed_of_ofStates h
  | unpacked h =>
    unfold ofPacked at h
    split at h
    · cases h
    · obtain ⟨accept, -, h⟩ := bind_eq_ok.1 h
      obtain ⟨states, -, h⟩ := bind_eq_ok.1 h
      exact closed_of_ofStates h

variable {a : Automaton} {s t n : Nat} {type : TokenType}

/-- A step leads to states that exist, and predicts what is listed. -/
lemma Closed.step (ha : a.Closed) (s : Nat) (type : TokenType) :
    (∀ n, a.step s type = .accept n → n ∈ a.alternatives) ∧
      ∀ t, a.step s type = .next t ∨ a.step s type = .special t → t < a.stateCount := by
  have harrive (u : Nat) : (∀ n, a.arrive u = .accept n → n ∈ a.alternatives) ∧
      ∀ t, a.arrive u = .next t ∨ a.arrive u = .special t → t < a.stateCount := by
    unfold arrive
    cases hu : a.states[u]? with
    | none => simp
    | some state =>
      obtain ⟨hlt, hget⟩ := Array.getElem?_eq_some_iff.1 hu
      have hstate : state ∈ a.states := hget ▸ Array.getElem_mem hlt
      have hcount : u < a.stateCount := hlt
      simp only
      split
      · simp [hcount]
      · cases haccept : state.accept with
        | none => simp [hcount]
        | some m => simpa using (ha.alternatives_iff m).2 (.inl ⟨state, hstate, haccept⟩)
  unfold Automaton.step
  cases a.states[s]? with
  | none => simp
  | some state =>
    simp only
    cases state.target type with
    | none => simp
    | some u => exact harrive u

end Automaton

/-! ## Where a misuse comes from -/

namespace Cursor

open View

variable {S : Type} [Cursor S]

/-- The stream can be taken back to the mark, so that the mark is open. -/
def Holds (s : S) (m : Mark) : Prop := ∃ s', rewind s m = .ok s'

variable [View S] [Savable S] {s : S} {m m' : Mark}

lemma holds_iff : Holds s m ↔ ∃ p, holds (marks s) m p := by
  constructor
  · rintro ⟨s', h⟩
    obtain ⟨p, hm⟩ := marks_of_rewind h
    exact ⟨p, (MarkStack.rewind_eq_ok.1 hm).1⟩
  · rintro ⟨p, hp⟩
    obtain ⟨back, heq, -⟩ := Savable.marks_rewind s m
    exact ⟨_, by rw [heq, MarkStack.rewind_eq_ok.2 ⟨hp, rfl⟩]; rfl⟩

lemma Holds.of_marks_eq {s' : S} (h : Holds s m) (hmarks : marks s' = marks s) : Holds s' m := by
  rw [holds_iff] at h ⊢
  rwa [hmarks]

/-- A new mark is open, and the others stay so. -/
lemma holds_mark : Holds (mark s).2 m ↔ Holds s m ∨ m = (mark s).1 := by
  simp only [holds_iff, Savable.marks_mark, holds_push, Savable.mark_eq]
  constructor
  · rintro ⟨p, hp | ⟨hm, -⟩⟩
    · exact .inl ⟨p, hp⟩
    · exact .inr hm
  · rintro (⟨p, hp⟩ | hm)
    · exact ⟨p, .inl hp⟩
    · exact ⟨_, .inr ⟨hm, rfl⟩⟩

/-- A guard that goes back is refused only if its mark is not open, and keeps the marks that were
open before it. -/
lemma endGuard_restore {t : S} (hm : Holds s m) (ht : Holds t m) :
    Holds (endGuard t (mark s).1 .restore).2 m ∧
      ∀ cause, (endGuard t (mark s).1 .restore).1 = .error cause → ¬ Holds t (mark s).1 := by
  cases hpop : rewind t (mark s).1 with
  | error cause =>
    rw [endGuard_restore_error hpop]
    refine ⟨ht, fun _ _ => ?_⟩
    rintro ⟨t', ht'⟩
    rw [hpop] at ht'
    cases ht'
  | ok t' =>
    rw [endGuard_back (by decide) hpop]
    refine ⟨?_, by simp⟩
    obtain ⟨p, hp⟩ := marks_of_rewind hpop
    obtain ⟨q, hq⟩ := holds_iff.1 ht
    obtain ⟨q', hq'⟩ := holds_iff.1 hm
    refine holds_iff.2 ⟨q, ?_⟩
    rw [(MarkStack.rewind_eq_ok.1 hp).2, holds_take]
    refine ⟨hq, ?_⟩
    rw [Savable.mark_eq]
    exact depth_lt_of_holds hq'

end Cursor

/-- The mark was open in the first stream, and is not in the second. -/
def Cursor.Loses {S : Type} [Cursor S] (m : Mark) (s t : S) : Prop :=
  Cursor.Holds s m ∧ ¬ Cursor.Holds t m

instance {S : Type} [Cursor S] (s : S) (m : Mark) : Decidable (Cursor.Holds s m) :=
  match h : Cursor.rewind s m with
  | .ok s' => .isTrue ⟨s', h⟩
  | .error _ => .isFalse fun ⟨s', hs'⟩ => by cases h.symm.trans hs'

instance {S : Type} [Cursor S] (m : Mark) (s t : S) : Decidable (Cursor.Loses m s t) :=
  inferInstanceAs (Decidable (_ ∧ _))

namespace Finding

variable {S X : Type} [Cursor S]

/-- A hook was called, and the mark was open before the call and not after it. -/
def Loses (m : Mark) : Finding S X → Prop
  | .reached _ => False
  | .called _ before _ after => Cursor.Loses m before.input after.input

instance (m : Mark) (f : Finding S X) : Decidable (f.Loses m) :=
  match f with
  | .reached _ => inferInstanceAs (Decidable False)
  | .called _ before _ after =>
    inferInstanceAs (Decidable (Cursor.Loses m before.input after.input))

/-- The fault that a hook has raised. -/
def fault : Finding S X → Option Fault
  | .reached _ => none
  | .called _ _ fault _ => fault

/-- A hook was called that has raised the misuse, or has popped the prediction's mark `m` or the one
of its own speculation. -/
def Excuses (m : Mark) (cause : Misuse) : Finding S X → Prop
  | .reached _ => False
  | .called own before fault after =>
    fault = some (.misuse cause) ∨ Cursor.Loses m before.input after.input ∨
      ∃ m', own = some m' ∧ Cursor.Loses m' before.input after.input

lemma Loses.excuses {m : Mark} {f : Finding S X} (h : f.Loses m) (cause : Misuse) :
    f.Excuses m cause := by
  cases f with
  | reached s => exact h.elim
  | called own before fault after => exact .inr (.inl h)

end Finding

namespace Survey

open Recognizer Logged Cursor

variable {S X α β : Type} [Cursor S]

/-- What is to be shown of a part of a prediction under the mark `m`: what it returns has the
property `A`, it is at states that exist, and it neither pops the mark nor comes to a misuse unless
there is an excuse. -/
structure Fine (a : Automaton) (m : Mark) (A : α → Prop) (r : Recognizer S X)
    (log : List (Finding S X)) (o : Except Fault α) (r' : Recognizer S X) : Prop where
  value : ∀ v, o = .ok v → A v
  states : ∀ s, .reached s ∈ log → s < a.stateCount
  kept : Holds r.input m → Holds r'.input m ∨ ∃ f ∈ log, f.Loses m
  excused : Holds r.input m → ∀ cause, o = .error (.misuse cause) → ∃ f ∈ log, f.Excuses m cause

/-- Every run of this part of a prediction is fine, and a value that it returns satisfies `A`. -/
def Sound (a : Automaton) (m : Mark) (x : Surveyed S X α) (A : α → Prop) : Prop :=
  ∀ ⦃r log o r'⦄, x r = some (log, o, r') → Fine a m A r log o r'

/-- An action that pops no marks and comes to no misuse by itself. -/
def Innocent (m : Mark) (x : Action (Recognizer S X) α) (A : α → Prop) : Prop :=
  ∀ ⦃r o r'⦄, x r = some (o, r') → (∀ v, o = .ok v → A v) ∧
    (Holds r.input m → Holds r'.input m) ∧ ∀ cause, o ≠ .error (.misuse cause)

namespace Sound

variable {a : Automaton} {m : Mark} {x : Surveyed S X α} {A : α → Prop} {B : β → Prop}

lemma mono {A' : α → Prop} (hx : Sound a m x A) (h : ∀ v, A v → A' v) : Sound a m x A' :=
  fun _ _ _ _ hrun =>
    ⟨fun v hv => h v ((hx hrun).value v hv), (hx hrun).states, (hx hrun).kept, (hx hrun).excused⟩

lemma pure {v : α} (h : A v) : Sound a m (Pure.pure v : Surveyed S X α) A := by
  intro r log o r' hrun
  obtain ⟨rfl, rfl, rfl⟩ : [] = log ∧ .ok v = o ∧ r = r' := by simpa using Option.some.inj hrun
  exact ⟨fun w hw => Except.ok.inj hw ▸ h, by simp, .inl, by simp⟩

lemma silent {y : Action (Recognizer S X) α} (h : Innocent m y A) :
    Sound a m (Logged.silent y) A := by
  intro r log o r' hrun
  obtain ⟨⟨o', r''⟩, hy, heq⟩ := Option.map_eq_some_iff.1 hrun
  obtain ⟨rfl, rfl, rfl⟩ : [] = log ∧ o' = o ∧ r'' = r' := by simpa using heq
  obtain ⟨hvalue, hkept, hmisuse⟩ := h hy
  exact ⟨hvalue, by simp, fun hm => .inl (hkept hm), fun _ cause hc => absurd hc (hmisuse cause)⟩

lemma tell {s : Nat} (h : s < a.stateCount) :
    Sound a m (Logged.tell [.reached s] : Surveyed S X Unit) fun _ => True := by
  intro r log o r' hrun
  obtain ⟨rfl, rfl, rfl⟩ : [.reached s] = log ∧ .ok () = o ∧ r = r' := by
    simpa using Option.some.inj hrun
  refine ⟨fun _ _ => trivial, fun t ht => ?_, .inl, by simp⟩
  obtain rfl := Finding.reached.inj (List.mem_singleton.1 ht)
  exact h

lemma bind {f : α → Surveyed S X β} (hx : Sound a m x A) (hf : ∀ v, A v → Sound a m (f v) B) :
    Sound a m (x >>= f) B := by
  intro r log o r' hrun
  rw [bind_apply] at hrun
  rcases hfirst : x r with _ | ⟨log₁, e | v, r₁⟩
  · rw [hfirst] at hrun
    cases hrun
  · rw [hfirst] at hrun
    obtain ⟨rfl, rfl, rfl⟩ : log₁ = log ∧ .error e = o ∧ r₁ = r' := by
      simpa using Option.some.inj hrun
    obtain ⟨-, hstates, hkept, hexcused⟩ := hx hfirst
    exact ⟨by simp, hstates, hkept,
      fun hm cause hc => hexcused hm cause (by rw [Except.error.inj hc])⟩
  · rw [hfirst] at hrun
    obtain ⟨⟨log₂, o', r₂⟩, hrest, heq⟩ := Option.map_eq_some_iff.1 hrun
    obtain ⟨rfl, rfl, rfl⟩ : log₁ ++ log₂ = log ∧ o' = o ∧ r₂ = r' := by simpa using heq
    have hfirst := hx hfirst
    have hrest := hf v (hfirst.value v rfl) hrest
    have hleft {f : Finding S X} (h : f ∈ log₁) : f ∈ log₁ ++ log₂ := List.mem_append_left _ h
    have hright {f : Finding S X} (h : f ∈ log₂) : f ∈ log₁ ++ log₂ := List.mem_append_right _ h
    refine ⟨hrest.value, fun s hs => ?_, fun hm => ?_, fun hm cause hc => ?_⟩
    · exact (List.mem_append.1 hs).elim (hfirst.states s) (hrest.states s)
    · rcases hfirst.kept hm with hm | ⟨f, hf, hloses⟩
      · exact (hrest.kept hm).imp id fun ⟨f, hf, hloses⟩ => ⟨f, hright hf, hloses⟩
      · exact .inr ⟨f, hleft hf, hloses⟩
    · rcases hfirst.kept hm with hm | ⟨f, hf, hloses⟩
      · obtain ⟨f, hf, hexcuses⟩ := hrest.excused hm cause hc
        exact ⟨f, hright hf, hexcuses⟩
      · exact ⟨f, hleft hf, hloses.excuses cause⟩

lemma discard (hx : Sound a m x A) : Sound a m (Functor.discard x) fun _ => True :=
  hx.bind fun _ _ => pure trivial

end Sound

/-! ## Parts of a prediction -/

variable {a : Automaton} {m : Mark}

lemma innocent_read {f : Recognizer S X → α} : Innocent m (.read f) fun _ => True := by
  intro r o r' hrun
  obtain ⟨rfl, rfl⟩ := Prod.mk.inj (Option.some.inj hrun)
  exact ⟨fun _ _ => trivial, id, by simp⟩

lemma visiting_apply (i : Nat) (body : Surveyed S X α) (r : Recognizer S X) :
    visiting i body r = (body { r with input := Cursor.seek r.input i }).map fun (log, o, r₁) =>
      (log, o, { r₁ with input := Cursor.seek r₁.input (Cursor.index r.input) }) := by
  simp only [Logged.visiting, Logged.bind_apply, Logged.silent, index_apply, seek_apply, Option.map_some,
    Logged.attempt]
  rcases body { r with input := Cursor.seek r.input i } with _ | ⟨log, o, r₁⟩
  · rfl
  · simp

/-- A syntactic predicate calls its hook under a new mark, and then goes back to it. -/
lemma synpred_apply (fragment : Action (Recognizer S X) Unit) (r : Recognizer S X) :
    Logged.synpred (fun m => call (some m) fragment) r =
      (fragment (begun true r)).map fun (o, r₁) =>
        let (result, i) := Cursor.endGuard r₁.input (Cursor.mark r.input).1 .restore
        ([.called (some (Cursor.mark r.input).1) (begun true r) (Fault.ofOutcome o) r₁],
          (result.mapError .misuse).bind fun _ => answer o, ended true i (cleared r₁)) := by
  simp only [Logged.synpred, Logged.bind_apply, Logged.silent, beginSpeculation_apply,
    Option.map_some, Logged.attempt, call, Logged.telling]
  rcases fragment (begun true r) with _ | ⟨o, r₁⟩
  · rfl
  · simp only [Option.map_some, updateState_apply, endSpeculation_apply, cleared]
    cases (Cursor.endGuard r₁.input (Cursor.mark r.input).1 .restore).1 <;> rfl

lemma predict_apply (hooks : Hooks S X) (a : Automaton) (r : Recognizer S X) :
    predict hooks a r = ((observer hooks).decide a (begun false r)).map fun (log, o, r₁) =>
      let (result, i) := Cursor.endGuard r₁.input (Cursor.mark r.input).1 .restore
      (log, (result.mapError .misuse).bind fun _ => o, ended false i r₁) := by
  simp only [predict, Observer.predict, Logged.speculating, Logged.bind_apply, Logged.silent,
    beginSpeculation_apply, Option.map_some, Logged.attempt]
  rcases (observer hooks).decide a (begun false r) with _ | ⟨log, o, r₁⟩
  · rfl
  · simp only [Option.map_some, endSpeculation_apply]
    cases (Cursor.endGuard r₁.input (Cursor.mark r.input).1 .restore).1 <;>
      simp [Except.mapError, Except.bind]

variable [View S] [Savable S]

lemma innocent_lookahead (k : Int) :
    Innocent m (lookahead k : Action (Recognizer S X) TokenType) fun _ => True := by
  intro r o r' hrun
  obtain ⟨rfl, rfl⟩ := Prod.mk.inj (Option.some.inj hrun)
  exact ⟨fun _ _ => trivial, fun hm => hm.of_marks_eq (Savable.marks_lookahead _ k),
    by simp⟩

lemma innocent_consume : Innocent m (consume : Action (Recognizer S X) Unit) fun _ => True := by
  intro r o r' hrun
  obtain ⟨rfl, rfl⟩ := Prod.mk.inj (Option.some.inj hrun)
  exact ⟨fun _ _ => trivial, fun hm => hm.of_marks_eq (Savable.marks_consume _),
    by simp⟩

/-- Not to find an alternative is no misuse. -/
lemma innocent_noViable (s : Nat) {A : α → Prop} :
    Innocent m (noViable a s : Action (Recognizer S X) α) A := by
  intro r o r' hrun
  simp only [noViable, fail, Action.bind_apply, readState_apply] at hrun
  by_cases hdepth : 0 < r.state.backtracking
  · rw [if_pos hdepth] at hrun
    obtain ⟨rfl, rfl⟩ := Prod.mk.inj (Option.some.inj hrun)
    exact ⟨by simp, id, by simp⟩
  · rw [if_neg hdepth] at hrun
    obtain ⟨rfl, rfl⟩ := Prod.mk.inj (Option.some.inj hrun)
    exact ⟨by simp, fun hm => hm.of_marks_eq (Savable.marks_symbol _), by simp⟩

lemma sound_noViable (s : Nat) {A : α → Prop} :
    Sound a m (Logged.silent (noViable a s) : Surveyed S X α) A :=
  .silent (innocent_noViable s)

omit [View S] [Savable S] in
/-- A hook that is called has an excuse for what comes of it. -/
lemma sound_call (hook : Action (Recognizer S X) α) :
    Sound a m (call none hook) fun _ => True := by
  intro r log o r' hrun
  obtain ⟨⟨o', r''⟩, -, heq⟩ := Option.map_eq_some_iff.1 hrun
  obtain ⟨rfl, rfl, rfl⟩ : [.called none r (Fault.ofOutcome o') r''] = log ∧ o' = o ∧ r'' = r' := by
    simpa using heq
  refine ⟨fun _ _ => trivial, by simp, fun hm => ?_, fun _ cause hc => ?_⟩
  · by_cases hm' : Holds r''.input m
    · exact .inl hm'
    · exact .inr ⟨_, List.mem_singleton_self _, hm, hm'⟩
  · subst hc
    exact ⟨_, List.mem_singleton_self _, .inl rfl⟩

lemma sound_visiting {i : Nat} {body : Surveyed S X α} {A : α → Prop} (h : Sound a m body A) :
    Sound a m (visiting i body) A := by
  intro r log o r' hrun
  rw [visiting_apply] at hrun
  obtain ⟨⟨log', o', r₁⟩, hbody, heq⟩ := Option.map_eq_some_iff.1 hrun
  obtain ⟨rfl, rfl, rfl⟩ : log' = log ∧ o' = o ∧ _ = r' := by simpa using heq
  obtain ⟨hvalue, hstates, hkept, hexcused⟩ := h hbody
  have hthere (hm : Holds r.input m) : Holds (Cursor.seek r.input i) m :=
    hm.of_marks_eq (Savable.marks_seek _ _)
  exact ⟨hvalue, hstates,
    fun hm => (hkept (hthere hm)).imp_left fun hm => hm.of_marks_eq (Savable.marks_seek _ _),
    fun hm => hexcused (hthere hm)⟩

lemma sound_synpred (fragment : Action (Recognizer S X) Unit) :
    Sound a m (Logged.synpred fun m => call (some m) fragment) fun _ => True := by
  intro r log o r' hrun
  rw [synpred_apply] at hrun
  obtain ⟨⟨o', r₁⟩, -, heq⟩ := Option.map_eq_some_iff.1 hrun
  obtain ⟨rfl, rfl, rfl⟩ : [_] = log ∧ _ = o ∧ _ = r' := by simpa using heq
  have hbegun (hm : Holds r.input m) : Holds (begun true r).input m := holds_mark.2 (.inl hm)
  refine ⟨fun _ _ => trivial, by simp, fun hm => ?_, fun hm cause hc => ?_⟩
  · by_cases hm' : Holds r₁.input m
    · exact .inl (endGuard_restore hm hm').1
    · exact .inr ⟨_, List.mem_singleton_self _, hbegun hm, hm'⟩
  · refine ⟨_, List.mem_singleton_self _, ?_⟩
    by_cases hm' : Holds r₁.input m
    · cases hend : (Cursor.endGuard r₁.input (Cursor.mark r.input).1 .restore).1 with
      | error refused =>
        -- the mark of the speculation is gone
        have hgone := (endGuard_restore hm hm').2 refused hend
        exact .inr (.inr ⟨_, rfl, holds_mark.2 (.inr rfl), hgone⟩)
      | ok u =>
        rw [hend] at hc
        rcases o' with (_ | _ | cause') | _
        all_goals cases hc
        exact .inl rfl
    · exact .inr (.inl ⟨hbegun hm, hm'⟩)

/-! ## The walk -/

variable {hooks : Hooks S X} {start : Nat}

lemma sound_firstOpen (type : TokenType) {edges : List PredicatedEdge}
    (h : ∀ e ∈ edges, e.target < a.stateCount) :
    Sound a m ((observer hooks).firstOpen start type edges) fun t => ∀ u, t = some u → u < a.stateCount := by
  induction edges with
  | nil => exact .pure fun u hu => by cases hu
  | cons e rest ih =>
    have hrest := ih fun e' he' => h e' (List.mem_cons_of_mem e he')
    rw [Observer.firstOpen]
    split
    · have hopen : Sound a m ((observer hooks).isOpen start e) fun _ => True := by
        rw [Observer.isOpen]
        split
        · exact sound_visiting (sound_call _)
        · exact .pure trivial
      refine hopen.bind fun isOpen _ => ?_
      cases isOpen with
      | false => exact hrest
      | true => exact .pure fun u hu => Option.some.inj hu ▸ h e List.mem_cons_self
    · exact hrest

lemma sound_firstParsing (decision : Nat) (tryAll : Bool) (alternatives : List Nat) :
    Sound a m ((observer hooks).firstParsing decision start tryAll alternatives)
      fun n => ∀ k, n = some k → k ∈ alternatives := by
  induction alternatives with
  | nil => exact .pure fun k hk => by cases hk
  | cons n rest ih =>
    refine (sound_visiting (sound_synpred _)).bind fun parses _ => ?_
    cases parses with
    | false => exact ih.mono fun _ hn k hk => List.mem_cons_of_mem n (hn k hk)
    | true =>
      have hfound : Sound a m (pure (some n) : Surveyed S X (Option Nat))
          fun n' => ∀ k, n' = some k → k ∈ n :: rest :=
        .pure fun k hk => Option.some.inj hk ▸ List.mem_cons_self
      cases tryAll with
      | false => exact hfound
      | true => exact ih.discard.bind fun _ _ => hfound

/-- A special state leads to states that exist and to alternatives that are listed. -/
def Resolves (a : Automaton) : Resolution → Prop
  | .state s => s < a.stateCount
  | .alternative n => n ∈ a.alternatives
  | .stuck => True

lemma sound_resolve (ha : a.Closed) {special : SpecialState} (h : special ∈ a.specials) :
    Sound a m ((observer hooks).resolve a start special) (Resolves a) := by
  refine (Sound.silent (innocent_lookahead 1)).bind fun type _ => ?_
  refine (sound_firstOpen type (ha.predicated special h)).bind fun target htarget => ?_
  cases target with
  | some t => exact .pure (htarget t rfl)
  | none =>
    -- However the alternative was looked for, what follows goes by what was found.
    have hlast : ∀ {k : Option Nat → Surveyed S X Resolution},
        (∀ n, k (some n) = pure (.alternative n)) →
        k none = pure ((special.fallback.map .state).getD .stuck) →
        ∀ parsed, (∀ n, parsed = some n → n ∈ special.simulate) →
          Sound a m (k parsed) (Resolves a) := by
      intro k hsome hnone parsed hparsed
      cases parsed with
      | some n =>
        rw [hsome]
        exact .pure ((ha.alternatives_iff n).2 (.inr ⟨special, h, hparsed n rfl⟩))
      | none =>
        rw [hnone]
        refine .pure ?_
        cases hfallback : special.fallback with
        | none => trivial
        | some t => exact ha.fallback special h t hfallback
    simp only
    split
    · exact (Sound.pure (A := fun n => ∀ k, n = some k → k ∈ special.simulate)
        fun k hk => by cases hk).bind (hlast (fun _ => rfl) rfl)
    · refine Sound.bind ?_ (hlast (fun _ => rfl) rfl)
      refine (Sound.silent innocent_read).bind fun options _ => ?_
      refine (Sound.silent innocent_read).bind fun depth _ => ?_
      split
      · exact .pure fun k hk => by cases hk
      · refine (sound_firstParsing _ _ _).mono fun n hn k hk => ?_
        exact ((Automaton.ascending_spec special.simulate).2 k).1 (hn k hk)

/-- The special states at one place of the input lead to an ordinary state that exists, or to an
alternative that is listed. -/
def Arrives (a : Automaton) : Settled → Prop
  | .state s state => a.states[s]? = some state
  | .alternative n => n ∈ a.alternatives

omit [View S] [Savable S] in
lemma sound_arrivingAt (ha : a.Closed) {s : Nat} (hs : s < a.stateCount)
    {follow : SpecialState → Surveyed S X Settled}
    (h : ∀ special ∈ a.specials, Sound a m (follow special) (Arrives a)) :
    Sound a m ((observer hooks).arrivingAt a s follow) (Arrives a) := by
  obtain ⟨state, hstate⟩ : ∃ state, a.states[s]? = some state := ⟨_, Array.getElem?_eq_getElem hs⟩
  have hmem : state ∈ a.states := Array.mem_of_getElem? hstate
  have hfound : Innocent m (.ofExcept ((a.state s).mapError .misuse) : Action (Recognizer S X) _)
      fun state' => state' = state := by
    intro r o r' hrun
    obtain ⟨rfl, rfl⟩ := Prod.mk.inj (Option.some.inj hrun)
    rw [Automaton.state, hstate]
    exact ⟨fun _ hv => (Except.ok.inj hv).symm, id, by simp [Except.mapError]⟩
  refine (Sound.tell hs).bind fun _ _ => (Sound.silent hfound).bind ?_
  rintro state rfl
  cases hspecial : state.special with
  | none => exact .pure hstate
  | some i =>
    have hi : i < a.specials.size := ha.special state hmem i hspecial
    simp only [Automaton.special, Array.getElem?_eq_getElem hi]
    exact h _ (Array.getElem_mem hi)

lemma sound_settle (ha : a.Closed) (hops : Nat) {s : Nat} (hs : s < a.stateCount) :
    Sound a m ((observer hooks).settle a start hops s) (Arrives a) := by
  induction hops generalizing s with
  | zero => exact sound_arrivingAt ha hs fun _ _ => sound_noViable s
  | succ hops ih =>
    refine sound_arrivingAt ha hs fun special hspecial => ?_
    refine (sound_resolve ha hspecial).bind fun resolution hresolution => ?_
    cases resolution with
    | alternative n => exact .pure hresolution
    | stuck => exact sound_noViable s
    | state next =>
      simp only
      split
      · exact sound_noViable s
      · exact ih hresolution

lemma sound_deciding (ha : a.Closed) {s : Nat} (hs : s < a.stateCount)
    {onward : Nat → Surveyed S X Nat}
    (h : ∀ t < a.stateCount, Sound a m (onward t) fun n => n ∈ a.alternatives) :
    Sound a m ((observer hooks).deciding a start s onward) fun n => n ∈ a.alternatives := by
  refine (sound_settle ha a.stateCount hs).bind fun settled hsettled => ?_
  cases settled with
  | alternative n => exact .pure hsettled
  | state t state =>
    cases haccept : state.accept with
    | none =>
      simp only [haccept]
      exact h t (Array.getElem?_eq_some_iff.1 hsettled).1
    | some n =>
      simp only [haccept]
      refine .pure ((ha.alternatives_iff n).2 (.inl ⟨state, ?_, haccept⟩))
      exact Array.mem_of_getElem? hsettled

lemma sound_walk (ha : a.Closed) (budget : Nat) {s : Nat} (hs : s < a.stateCount) :
    Sound a m ((observer hooks).walk a start budget s) fun n => n ∈ a.alternatives := by
  induction budget generalizing s with
  | zero => exact sound_deciding ha hs fun t _ => sound_noViable t
  | succ budget ih =>
    refine sound_deciding ha hs fun t _ => ?_
    refine (Sound.silent (innocent_lookahead 1)).bind fun type _ => ?_
    obtain ⟨haccept, hnext⟩ := ha.step t type
    cases hstep : a.step t type with
    | accept n => exact .pure (haccept n hstep)
    | next u => exact (Sound.silent innocent_consume).bind fun _ _ => ih (hnext u (.inl hstep))
    | special u => exact (Sound.silent innocent_consume).bind fun _ _ => ih (hnext u (.inr hstep))
    | none => exact sound_noViable t

/-- What a prediction does under its mark is fine. -/
lemma sound_decide (ha : a.Closed) : Sound a m ((observer hooks).decide a) fun n => n ∈ a.alternatives := by
  refine (Sound.silent innocent_read).bind fun start _ => ?_
  refine (Sound.silent innocent_read).bind fun options _ => ?_
  exact sound_walk ha _ ha.nonempty

end Survey

/-! ## Main result -/

namespace Recognizer

open Cursor

variable {S X : Type} [Cursor S] [View S] [Savable S]

/-- **An accepted automaton is closed, so a prediction does not misuse it.**  Accepted is what
was built from clauses or read from packed tables.  Every link of such an automaton leads to a
state that exists, and its alternatives are in strictly ascending order.

The hooks, the stream and the state of the recognizer are any.  Whatever a prediction comes to,
its log, which is that of the same prediction with its states and calls written down
(`Survey.predict`), names states of the automaton only, and what it returns is one of the
alternatives.  If it comes to a misuse, then one of the hooks in the log has raised this misuse,
or has popped a mark that the prediction had taken: its own, or that of the speculation which
the hook was called in. -/
theorem predict_closed {a : Automaton} (ha : a.Accepted) (hooks : Hooks S X)
    (r : Recognizer S X) :
    a.Closed ∧ a.alternatives.Pairwise (· < ·) ∧
      ∀ o r', predict hooks a r = some (o, r') →
        ∃ log, Survey.predict hooks a r = some (log, o, r') ∧
          (∀ s, .reached s ∈ log → ∃ state, a.state s = .ok state) ∧
          (∀ n, o = .ok n → n ∈ a.alternatives) ∧
          ∀ cause, o = .error (.misuse cause) →
            ∃ f ∈ log, f.Excuses (Cursor.mark r.input).1 cause := by
  refine ⟨ha.closed, ha.closed.ascending, fun o r' hrun => ?_⟩
  rw [← Survey.forget_predict] at hrun
  obtain ⟨⟨log, o', r''⟩, hsurvey, heq⟩ := Option.map_eq_some_iff.1 hrun
  obtain ⟨rfl, rfl⟩ := Prod.mk.inj heq
  refine ⟨log, hsurvey, ?_⟩
  rw [Survey.predict_apply] at hsurvey
  obtain ⟨⟨log', o, r₁⟩, hdecide, heq⟩ := Option.map_eq_some_iff.1 hsurvey
  obtain ⟨rfl, rfl, rfl⟩ : log' = log ∧ _ = o' ∧ _ = r'' := by simpa using heq
  have hmark : Holds (begun false r).input (Cursor.mark r.input).1 := holds_mark.2 (.inr rfl)
  obtain ⟨hvalue, hstates, hkept, hexcused⟩ :=
    Survey.sound_decide (m := (Cursor.mark r.input).1) ha.closed hdecide
  refine ⟨fun s hs => ?_, fun n hn => ?_, fun cause hc => ?_⟩
  · obtain ⟨state, hstate⟩ : ∃ state, a.states[s]? = some state :=
      ⟨_, Array.getElem?_eq_getElem (hstates s hs)⟩
    exact ⟨state, by simp [Automaton.state, hstate]⟩
  · cases hend : (Cursor.endGuard r₁.input (Cursor.mark r.input).1 .restore).1 with
    | error refused =>
      rw [hend] at hn
      cases hn
    | ok u =>
      rw [hend] at hn
      exact hvalue n hn
  · rcases hkept hmark with ⟨t, ht⟩ | ⟨f, hf, hloses⟩
    · rw [endGuard_back (by decide) ht] at hc
      exact hexcused hmark cause hc
    · exact ⟨f, hf, hloses.excuses cause⟩

/-- A recognizer at the start of a text. -/
def atText : Recognizer CharacterStream Unit :=
  .ofInput (.ofString "a" "text") () .standard .characters

/-- A predicate that leaves a mark open, and a speculative parse that goes back to it. -/
def meddling : Hooks CharacterStream Unit where
  predicate _ := do
    let m ← mark
    .update fun r => { r with handles := r.handles.push m }
    return true
  speculate _ _ := do
    let m ← .read fun r => r.handles.getD 0 default
    tryInput fun input => Cursor.rewind input m

/-- A decision that asks a predicate, and then tries an alternative. -/
def askThenTry : Automaton where
  decision := 1
  description := "d"
  states := #[⟨none, some 0, none, none, 0, #[]⟩, ⟨none, some 1, none, none, 0, #[]⟩]
  specials := #[⟨[⟨none, some 7, 1⟩], [], none⟩, ⟨[], [1], none⟩]
  alternatives := [1]

lemma accepted_askThenTry : askThenTry.Accepted := by
  have hbuilt : Automaton.ofClauses 1 "d"
      [.special 0 (SpecialState.empty.gated none 7 1),
        .special 1 (SpecialState.empty.simulating [1])] = .ok askThenTry := by
    decide +kernel
  exact .built hbuilt

lemma eq_error_of_ofOutcome {α : Type} {o : Except Fault α} {e : Fault}
    (h : Fault.ofOutcome o = some e) : o = .error e := by
  cases o with
  | ok v => cases h
  | error e' => rw [Option.some.inj h]

/-- The hook that goes back too far has popped the mark of the speculation that it was called in. -/
theorem predict_closed_meddling : ∃ r' log,
    predict meddling askThenTry atText = some (.error (.misuse (.staleMark 2)), r') ∧
      Survey.predict meddling askThenTry atText =
        some (log, .error (.misuse (.staleMark 2)), r') ∧
      ∃ f ∈ log, f.Excuses (Cursor.mark atText.input).1 (.staleMark 2) := by
  have hend : (predict meddling askThenTry atText).map (fun p => Fault.ofOutcome p.1) =
      some (some (.misuse (.staleMark 2))) := by
    decide +kernel
  obtain ⟨⟨o, r'⟩, hrun, hout⟩ := Option.map_eq_some_iff.1 hend
  obtain rfl := eq_error_of_ofOutcome hout
  obtain ⟨-, -, hpredict⟩ := predict_closed accepted_askThenTry meddling atText
  obtain ⟨log, hlog, -, -, hexcused⟩ := hpredict _ r' hrun
  exact ⟨r', log, hrun, hlog, hexcused _ rfl⟩

/-- **A prediction may lose a mark that is not its own.**  Neither of the two hooks raises anything,
and the prediction's mark is open all the time; but the second hook pops the mark of the speculation
that it is called in, and the prediction comes to a misuse. -/
theorem prediction_misused : askThenTry.Accepted ∧ ∃ log r',
    Survey.predict meddling askThenTry atText = some (log, .error (.misuse (.staleMark 2)), r') ∧
      ∀ f ∈ log, ¬ f.Loses (Cursor.mark atText.input).1 ∧ f.fault = none := by
  have hend : (Survey.predict meddling askThenTry atText).map (fun p => (Fault.ofOutcome p.2.1,
      decide (∀ f ∈ p.1, ¬ f.Loses (Cursor.mark atText.input).1 ∧ f.fault = none))) =
      some (some (.misuse (.staleMark 2)), true) := by
    decide +kernel
  obtain ⟨⟨log, o, r'⟩, hrun, hvalues⟩ := Option.map_eq_some_iff.1 hend
  obtain ⟨hout, hall⟩ := Prod.mk.inj hvalues
  obtain rfl := eq_error_of_ofOutcome hout
  exact ⟨accepted_askThenTry, log, r', hrun, of_decide_eq_true hall⟩

end Recognizer

end Lookahead
