import Lookahead.Proofs.Automaton.Counting
import Lookahead.Proofs.Automaton.Outlook
import Lookahead.Proofs.Automaton.Transparency
import Mathlib.Data.List.Nodup
import Mathlib.Data.List.Perm.Subperm

/-!
# The bound on hops is exact

A walk counts hops between special states, and gives up if there are more of them than states.  This
rejects only what would go on forever: with one unit ahead, a special state always comes to the
same, so a state that is met twice is met again and again.  `Outlook.Settles` says in how many
resolutions a place is done with, which is a single number (`Outlook.Settles.unique`), so the states
on the way are different, and there are no more of them than the automaton has
(`Outlook.Settles.le_stateCount`).

`walk_decides` puts the walk beside the rules without bounds.  It finds what they find, and where
they find nothing it answers that no alternative is viable.
-/

namespace Lookahead

open Action Cursor
open Cursor.View (Ready)

/-! ## How many resolutions it takes -/

namespace Outlook

variable {w : Outlook} {a : Automaton} {k n m s t : Nat} {special : SpecialState}

/-- From state `s` on, the special states are done with the unit ahead after `n` resolutions. -/
inductive Settles (w : Outlook) (a : Automaton) (k : Nat) : (n s : Nat) → Prop
  | rest {s : Nat} (h : a.specialAt s = none) : Settles w a k 0 s
  | decided {s : Nat} {special : SpecialState} {v : Verdict} (h : a.specialAt s = some special)
      (hv : w.Moves a k s (.stop v)) : Settles w a k 1 s
  | hop {n s t : Nat} {special : SpecialState} (h : a.specialAt s = some special)
      (ht : w.Moves a k s (.hop t)) (hn : Settles w a k n t) : Settles w a k (n + 1) s

lemma Settles.unique (h : w.Settles a k n s) (h' : w.Settles a k m s) : n = m := by
  induction h generalizing m with
  | rest h =>
    cases h' with
    | rest => rfl
    | decided h' => simp [h] at h'
    | hop h' => simp [h] at h'
  | decided h hv =>
    cases h' with
    | rest h' => simp [h] at h'
    | decided => rfl
    | hop _ ht => cases hv.unique ht
  | hop h ht _ ih =>
    cases h' with
    | rest h' => simp [h] at h'
    | decided _ hv => cases ht.unique hv
    | hop _ ht' hn' =>
      obtain rfl := Move.hop.inj (ht.unique ht')
      rw [ih hn']

/-- The special states on the way, each of them with a number of resolutions of its own. -/
lemma Settles.visited (h : w.Settles a k n s) :
    ∃ states : List Nat, states.length = n ∧ states.Nodup ∧
      ∀ t ∈ states, t < a.stateCount ∧ ∃ m ≤ n, w.Settles a k m t := by
  induction h with
  | rest => exact ⟨[], rfl, List.nodup_nil, by simp⟩
  | @decided s special v h hv =>
    refine ⟨[s], rfl, List.nodup_singleton s, fun t ht => ?_⟩
    obtain rfl := List.mem_singleton.1 ht
    exact ⟨Automaton.lt_stateCount_of_specialAt h, 1, Nat.le_refl _, .decided h hv⟩
  | @hop n s t special h ht hn ih =>
    obtain ⟨states, hlength, hnodup, hstates⟩ := ih
    refine ⟨s :: states, by rw [List.length_cons, hlength], ?_, fun u hu => ?_⟩
    · refine List.nodup_cons.2 ⟨fun hs => ?_, hnodup⟩
      -- `s` takes one resolution more than any state behind it
      obtain ⟨-, m, hm, hsettles⟩ := hstates s hs
      have := hsettles.unique (.hop h ht hn)
      omega
    · rcases List.mem_cons.1 hu with rfl | hu
      · exact ⟨Automaton.lt_stateCount_of_specialAt h, n + 1, Nat.le_refl _, .hop h ht hn⟩
      · obtain ⟨hlt, m, hm, hsettles⟩ := hstates u hu
        exact ⟨hlt, m, Nat.le_succ_of_le hm, hsettles⟩

/-- No more resolutions are needed than there are states. -/
lemma Settles.le_stateCount (h : w.Settles a k n s) : n ≤ a.stateCount := by
  obtain ⟨states, hlength, hnodup, hstates⟩ := h.visited
  have hsub : states ⊆ List.range a.stateCount := fun t ht => List.mem_range.2 (hstates t ht).1
  have hle := (List.subperm_of_subset hnodup hsub).length_le
  rwa [hlength, List.length_range] at hle

lemma Moves.hop_of_edge {state : AutomatonState} {i : Nat} (h : a.states[s]? = some state)
    (hi : state.special = some i) (hspecial : a.special i = some special)
    (ht : special.edges.findSome? (w.edge (w.unit k)) = some (.ok t)) : w.Moves a k s (.hop t) :=
  .special h hi hspecial (.edge ht)

lemma Moves.specialAt_of_hop (h : w.Moves a k s (.hop t)) :
    ∃ special, a.specialAt s = some special := by
  generalize hm : Move.hop t = m at h
  cases h with
  | @special state i special o h hi hspecial ho =>
    exact ⟨special, by simp [Automaton.specialAt, h, hi, hspecial]⟩
  | _ => cases hm

lemma Moves.specialAt_of_consume (h : w.Moves a k s (.consume t)) : a.specialAt s = none := by
  generalize hm : Move.consume t = m at h
  cases h with
  | @special state i special o h hi hspecial ho =>
    rcases o with _ | (_ | _ | _) <;> cases hm
  | step h hi => simp [Automaton.specialAt, h, hi]
  | _ => cases hm

/-- What is found is found after finitely many resolutions. -/
lemma Finds.settles {v : Verdict} (h : w.Finds a k s v) : ∃ n, w.Settles a k n s := by
  induction h with
  | @stop k s v h =>
    cases hspecial : a.specialAt s with
    | none => exact ⟨0, .rest hspecial⟩
    | some special => exact ⟨1, .decided hspecial h⟩
  | hop h _ ih =>
    obtain ⟨n, hn⟩ := ih
    obtain ⟨special, hspecial⟩ := h.specialAt_of_hop
    exact ⟨n + 1, .hop hspecial h hn⟩
  | consume h => exact ⟨0, .rest h.specialAt_of_consume⟩

lemma finds_iff_of_hop {v : Verdict} (h : w.Moves a k s (.hop t)) :
    w.Finds a k s v ↔ w.Finds a k t v := by
  constructor
  · intro hv
    cases hv with
    | stop h' => cases h.unique h'
    | hop h' hv =>
      obtain rfl := Move.hop.inj (h.unique h')
      exact hv
    | consume h' => cases h.unique h'
  · exact .hop h

lemma finds_iff_of_consume {v : Verdict} (h : w.Moves a k s (.consume t)) :
    w.Finds a k s v ↔ w.Finds a (k + 1) t v := by
  constructor
  · intro hv
    cases hv with
    | stop h' => cases h.unique h'
    | hop h' => cases h.unique h'
    | consume h' hv =>
      obtain rfl := Move.consume.inj (h.unique h')
      exact hv
  · exact .consume h

/-- A step of the table, at a state that neither has a special state nor predicts anything. -/
lemma moves_step {state : AutomatonState} (hstate : a.states[s]? = some state)
    (hspecial : state.special = none) (haccept : state.accept = none) (hk : k < w.maxLookahead) :
    match a.step s (w.unit k) with
    | .accept n => w.Finds a k s (.alternative n)
    | .next t | .special t => w.Moves a k s (.consume t)
    | .none => w.Moves a k s (.stop (.noViable s)) := by
  simp only [Automaton.step, hstate]
  cases htarget : state.target (w.unit k) with
  | none =>
    refine .dead hstate hspecial haccept hk fun t ht => ?_
    rw [AutomatonState.leads_iff, htarget] at ht
    cases ht
  | some t =>
    have hleads : state.Leads (w.unit k) t := AutomatonState.leads_iff.2 htarget
    simp only [Automaton.arrive]
    cases hnext : a.states[t]? with
    | none =>
      refine .dead hstate hspecial haccept hk fun u hu => ?_
      rw [AutomatonState.leads_iff, htarget] at hu
      obtain rfl := Option.some.inj hu
      exact Array.getElem?_eq_none_iff.1 hnext
    | some next =>
      have hsize : t < a.stateCount := (Array.getElem?_eq_some_iff.1 hnext).1
      have hmove : w.Moves a k s (.consume t) := .step hstate hspecial haccept hk hleads hsize
      by_cases hnextspecial : next.special.isSome = true
      · simp only [if_pos hnextspecial]
        exact hmove
      · simp only [if_neg hnextspecial]
        cases hn : next.accept with
        | none => exact hmove
        | some n =>
          have hnone : next.special = none := by simpa using hnextspecial
          exact .consume hmove (.stop (.accept hnext hnone hn))

end Outlook

/-! ## The walk follows the rules -/

/-- The fault that says that no alternative is viable from state `s` on, at a depth of
backtracking. -/
def Automaton.NotViable (a : Automaton) (depth s : Nat) (e : Fault) : Prop :=
  if 0 < depth then e = .backtracking
  else ∃ f : Failure, e = .failed f ∧
    f.kind = .noViableAlternative a.decision s a.alternatives a.description

/-- An outcome says what was found. No way on from a state shows as the failure of the decision
there, or as the signal of a speculative parse. -/
def Verdict.Says (a : Automaton) (depth : Nat) : Verdict → Except Fault Nat → Prop
  | .alternative n, o => o = .ok n
  | .noViable s, o => ∃ e, o = .error e ∧ a.NotViable depth s e
  | .raised e, o => o = .error e

namespace Recognizer

variable {S X α : Type} [Cursor S] [View S] {w : Outlook} {hooks : Hooks S X} {a : Automaton}
  {r₀ : Recognizer S X} {k s t : Nat} {v : Verdict}

/-- From every recognizer that has consumed `k` units, `x` comes to an end and finds `v`. -/
def Meets (r₀ : Recognizer S X) (a : Automaton) (k : Nat) (x : Action (Recognizer S X) Nat)
    (v : Verdict) : Prop :=
  ∀ r, At r₀ (r₀.placeAhead k) r →
    ∃ o r', x r = some (o, r') ∧ v.Says a r₀.state.backtracking o

/-- With `k` units consumed, `x` finds what the rules find from state `s` on, and no alternative
where they find nothing. -/
def Decides (w : Outlook) (r₀ : Recognizer S X) (a : Automaton) (k s : Nat)
    (x : Action (Recognizer S X) Nat) : Prop :=
  (∃ v, w.Finds a k s v ∧ Meets r₀ a k x v) ∨
    ((∀ v, ¬ w.Finds a k s v) ∧ ∃ t, Meets r₀ a k x (.noViable t))

/-- What a walk does when its special states are done with the unit ahead. -/
def landing (onward : Nat → Action (Recognizer S X) Nat) : Settled → Action (Recognizer S X) Nat
  | .alternative n => return n
  | .state s state =>
    match state.accept with
    | some n => return n
    | none => onward s

omit [View S] in
lemma deciding_eq (start s : Nat) (onward : Nat → Action (Recognizer S X) Nat) :
    deciding hooks a start s onward =
      settle hooks a start a.stateCount s >>= landing onward := by
  unfold deciding
  rfl

section

variable {x : Action (Recognizer S X) α} {f : α → Action (Recognizer S X) Nat} {b : α} {j : Nat}

lemma Meets.bind (hx : Gives (At r₀ (r₀.placeAhead k)) x (.ok b) (At r₀ (r₀.placeAhead j)))
    (hf : Meets r₀ a j (f b) v) : Meets r₀ a k (x >>= f) v := by
  intro r hr
  obtain ⟨r₁, hrun, hr₁⟩ := hx r hr
  obtain ⟨o, r', hrest, ho⟩ := hf r₁ hr₁
  exact ⟨o, r', by rw [bind_apply, hrun]; exact hrest, ho⟩

lemma Meets.bind_error {e : Fault} {Q : Recognizer S X → Prop}
    (hx : Gives (At r₀ (r₀.placeAhead k)) x (.error e) Q) :
    Meets r₀ a k (x >>= f) (.raised e) := by
  intro r hr
  obtain ⟨r₁, hrun, -⟩ := hx r hr
  exact ⟨.error e, r₁, by rw [bind_apply, hrun], rfl⟩

lemma Meets.pure (n : Nat) : Meets r₀ a k (pure n) (.alternative n) :=
  fun r _ => ⟨.ok n, r, rfl, rfl⟩

omit [View S] in
lemma noViable_apply {r : Recognizer S X} (hr : r.state.backtracking = r₀.state.backtracking) :
    ∃ e r', (noViable a s : Action (Recognizer S X) α) r = some (.error e, r') ∧
      a.NotViable r₀.state.backtracking s e := by
  unfold noViable fail Automaton.NotViable
  rw [bind_apply, readState_apply, hr]
  by_cases hdepth : 0 < r₀.state.backtracking
  · simp only [if_pos hdepth]
    exact ⟨_, _, rfl, rfl⟩
  · simp only [if_neg hdepth]
    exact ⟨_, _, rfl, _, rfl, rfl⟩

/-- Once no alternative is viable, nothing comes behind. -/
lemma Meets.noViable (s : Nat) (f : α → Action (Recognizer S X) Nat) :
    Meets r₀ a k (noViable a s >>= f) (.noViable s) := by
  intro r hr
  obtain ⟨e, r', hrun, he⟩ := noViable_apply (α := α) (a := a) (s := s) hr.backtracking_eq
  exact ⟨.error e, r', by rw [bind_apply, hrun], e, rfl, he⟩

lemma Meets.noViable_here (s : Nat) :
    Meets r₀ a k (Recognizer.noViable a s : Action (Recognizer S X) Nat) (.noViable s) := by
  have h : Meets r₀ a k (Recognizer.noViable a s >>= Pure.pure) (.noViable s) := .noViable s _
  rwa [bind_pure] at h

end

lemma Decides.of_finds {x : Action (Recognizer S X) Nat} (hv : w.Finds a k s v)
    (hx : Meets r₀ a k x v) : Decides w r₀ a k s x := .inl ⟨v, hv, hx⟩

/-- What is done first does not matter as long as the rules move on with it. -/
lemma Decides.bind {j : Nat} {x : Action (Recognizer S X) α} {b : α}
    {f : α → Action (Recognizer S X) Nat}
    (hx : Gives (At r₀ (r₀.placeAhead k)) x (.ok b) (At r₀ (r₀.placeAhead j)))
    (hmove : ∀ v, w.Finds a k s v ↔ w.Finds a j t v) (hf : Decides w r₀ a j t (f b)) :
    Decides w r₀ a k s (x >>= f) := by
  rcases hf with ⟨v, hv, hmeets⟩ | ⟨hnone, u, hmeets⟩
  · exact .inl ⟨v, (hmove v).2 hv, hmeets.bind hx⟩
  · exact .inr ⟨fun v hv => hnone v ((hmove v).1 hv), u, hmeets.bind hx⟩

section

variable [Lawful S] (hw : w.Describes hooks a.decision r₀) (hr₀ : Ready r₀.input)
  {onward : Nat → Action (Recognizer S X) Nat}

omit [Lawful S] in
/-- A state without a special state is where the special states lead. -/
lemma decides_settle_of_none {start hops : Nat} (h : a.specialAt s = none)
    (honward : ∀ state, a.states[s]? = some state → state.special = none → state.accept = none →
      Decides w r₀ a k s (onward s)) :
    Decides w r₀ a k s (settle hooks a start hops s >>= landing onward) := by
  rw [settle_of_none h, arrivingAt, bind_assoc]
  cases hstate : a.states[s]? with
  | none =>
    have hmissing : a.state s = .error (.noState a.decision s) := by
      simp [Automaton.state, hstate]
    rw [hmissing]
    exact .of_finds (.stop (.missing hstate)) (.bind_error (Gives.ofExcept _))
  | some state =>
    have hok : a.state s = .ok state := by simp [Automaton.state, hstate]
    rw [hok]
    have hread : Gives (At r₀ (r₀.placeAhead k))
        (.ofExcept ((Except.ok state : Except Misuse AutomatonState).mapError .misuse))
        (.ok state) (At r₀ (r₀.placeAhead k)) := Gives.ofExcept (.ok state)
    cases hspecial : state.special with
    | some i =>
      have hunknown : a.special i = none := by
        simpa [Automaton.specialAt, hstate, hspecial] using h
      refine .of_finds (.stop (.unknown hstate hspecial hunknown)) (.bind hread ?_)
      simp only [hspecial, hunknown]
      exact .noViable s _
    | none =>
      cases haccept : state.accept with
      | some n =>
        refine .of_finds (.stop (.accept hstate hspecial haccept)) (.bind hread ?_)
        simp only [hspecial, pure_bind, landing, haccept]
        exact .pure n
      | none =>
        refine .bind hread (fun _ => Iff.rfl) ?_
        simp only [hspecial, pure_bind, landing, haccept]
        exact honward state hstate hspecial haccept

include hw hr₀

/-- Special states that are done with the unit ahead in no more resolutions than there may be. -/
lemma decides_settle {n hops : Nat} (h : w.Settles a k n s) (hle : n ≤ hops)
    (honward : ∀ t state, a.states[t]? = some state → state.special = none → state.accept = none →
      Decides w r₀ a k t (onward t)) :
    Decides w r₀ a k s
      (settle hooks a (Cursor.index r₀.input) hops s >>= landing onward) := by
  induction h generalizing hops with
  | rest h => exact decides_settle_of_none h (honward _)
  | @decided s special v h hv =>
    obtain ⟨hops, rfl⟩ : ∃ m, hops = m + 1 := ⟨hops - 1, by omega⟩
    obtain ⟨state, i, hstate, hi, hspecial⟩ := Automaton.specialAt_eq_some h
    obtain ⟨o, ho, hgives⟩ := hw.resolve hr₀ a rfl (k := k) special
    have hmove := (Outlook.Moves.special hstate hi hspecial ho).unique hv
    refine .of_finds (.stop hv) ?_
    rw [settle_succ_of_special h, bind_assoc]
    rcases o with cause | (u | n | _)
    · obtain rfl := Move.stop.inj hmove
      exact .bind_error hgives
    · cases hmove
    · obtain rfl := Move.stop.inj hmove
      exact .bind hgives (.pure n)
    · obtain rfl := Move.stop.inj hmove
      exact .bind hgives (.noViable s _)
  | @hop n s t special h ht hn ih =>
    obtain ⟨hops, rfl⟩ : ∃ m, hops = m + 1 := ⟨hops - 1, by omega⟩
    obtain ⟨state, i, hstate, hi, hspecial⟩ := Automaton.specialAt_eq_some h
    obtain ⟨o, ho, hgives⟩ := hw.resolve hr₀ a rfl (k := k) special
    have hmove := (Outlook.Moves.special hstate hi hspecial ho).unique ht
    have hne : t ≠ s := by
      rintro rfl
      have := hn.unique (.hop h ht hn)
      omega
    rw [settle_succ_of_special h, bind_assoc]
    rcases o with cause | (u | n | _)
    · cases hmove
    · obtain rfl := Move.hop.inj hmove
      refine .bind hgives (fun v => Outlook.finds_iff_of_hop ht) ?_
      rw [afterResolving, if_neg hne]
      exact ih (by omega)
    · cases hmove
    · cases hmove

/-- Special states that hop in circles.  However many hops there may be, they run out. -/
lemma meets_settle_of_not_settles {hops : Nat} (h : ∀ n, ¬ w.Settles a k n s) :
    ∃ t, Meets r₀ a k (settle hooks a (Cursor.index r₀.input) hops s >>= landing onward)
      (.noViable t) := by
  induction hops generalizing s with
  | zero =>
    cases hspecial : a.specialAt s with
    | none => exact (h 0 (.rest hspecial)).elim
    | some special =>
      refine ⟨s, ?_⟩
      rw [settle, arrivingAt_of_special hspecial]
      exact .noViable s _
  | succ hops ih =>
    cases hspecial : a.specialAt s with
    | none => exact (h 0 (.rest hspecial)).elim
    | some special =>
      obtain ⟨state, i, hstate, hi, hsome⟩ := Automaton.specialAt_eq_some hspecial
      obtain ⟨o, ho, hgives⟩ := hw.resolve hr₀ a rfl (k := k) special
      have hmove := Outlook.Moves.special hstate hi hsome ho
      rw [settle_succ_of_special hspecial, bind_assoc]
      rcases o with cause | (t | n | _)
      · exact (h 1 (.decided hspecial hmove)).elim
      · by_cases hself : t = s
        · refine ⟨s, .bind hgives ?_⟩
          rw [afterResolving, if_pos hself]
          exact .noViable s _
        · obtain ⟨u, hu⟩ := ih fun n hn => h (n + 1) (.hop hspecial hmove hn)
          refine ⟨u, .bind hgives ?_⟩
          rw [afterResolving, if_neg hself]
          exact hu
      · exact (h 1 (.decided hspecial hmove)).elim
      · exact (h 1 (.decided hspecial hmove)).elim

lemma decides_deciding
    (honward : ∀ t state, a.states[t]? = some state → state.special = none → state.accept = none →
      Decides w r₀ a k t (onward t)) :
    Decides w r₀ a k s (deciding hooks a (Cursor.index r₀.input) s onward) := by
  rw [deciding_eq]
  by_cases h : ∃ n, w.Settles a k n s
  · obtain ⟨n, hn⟩ := h
    exact decides_settle hw hr₀ hn hn.le_stateCount honward
  · have hnot (n : Nat) : ¬ w.Settles a k n s := fun hn => h ⟨n, hn⟩
    exact .inr ⟨fun v hv => h hv.settles, meets_settle_of_not_settles hw hr₀ hnot⟩

lemma decides_walk (budget : Nat) (hk : k + budget = w.maxLookahead) :
    Decides w r₀ a k s (walk hooks a (Cursor.index r₀.input) budget s) := by
  induction budget generalizing k s with
  | zero =>
    refine decides_deciding hw hr₀ fun t state hstate hspecial haccept => ?_
    have hcut : w.Moves a k t (.stop (.noViable t)) :=
      .cut hstate hspecial haccept (by omega)
    exact .of_finds (.stop hcut) (.noViable_here t)
  | succ budget ih =>
    refine decides_deciding hw hr₀ fun t state hstate hspecial haccept => ?_
    have hstep := Outlook.moves_step (w := w) (k := k) hstate hspecial haccept (by omega)
    have hlook := At.lookahead (k := k) hw
    have hgo {u : Nat} (hmove : w.Moves a k t (.consume u)) :
        Decides w r₀ a k t (consume >>= fun _ => walk hooks a (Cursor.index r₀.input) budget u) :=
      .bind At.consume (fun v => Outlook.finds_iff_of_consume hmove) (ih (by omega))
    refine .bind hlook (fun _ => Iff.rfl) ?_
    cases h : a.step t (w.unit k) with
    | accept n =>
      rw [h] at hstep
      exact .of_finds hstep (.pure n)
    | next u =>
      rw [h] at hstep
      exact hgo hstep
    | special u =>
      rw [h] at hstep
      exact hgo hstep
    | none =>
      rw [h] at hstep
      exact .of_finds (.stop hstep) (.noViable_here t)

end

/-! ## Main theorem -/

/-- **A walk ends within its bounds, and finds what the rules without bounds find.**  What the
decision will see is described by `w`: the units from the cursor on, what each predicate says at
the start and whether each alternative parses there.  `countedWalk` is the walk with a log of
how many special states it has resolved between any two units that it consumed; without the log
it is the walk.

The walk always comes to an end.  It has consumed no more units than the recognizer allows, and
has resolved no more special states between two of them than the automaton has states.  Where
the rules that know no counters (`Outlook.Finds`) find something, the walk comes to the same;
where they find nothing, because they would go round for ever, it says that no alternative is
viable. -/
theorem walk_exact [Lawful S] (hw : w.Describes hooks a.decision r₀) (hlive : Live r₀.input) :
    forget (countedWalk hooks a (Cursor.index r₀.input) r₀.state.options.maxLookahead 0) =
        walk hooks a (Cursor.index r₀.input) r₀.state.options.maxLookahead 0 ∧
      ∃ resolutions outcome r',
        countedWalk hooks a (Cursor.index r₀.input) r₀.state.options.maxLookahead 0 r₀ =
          some (.ok (resolutions, outcome), r') ∧
        walk hooks a (Cursor.index r₀.input) r₀.state.options.maxLookahead 0 r₀ =
          some (outcome, r') ∧
        resolutions.length ≤ r₀.state.options.maxLookahead + 1 ∧
        (∀ n ∈ resolutions, n ≤ a.stateCount) ∧
        (∀ v, w.Finds a 0 0 v → v.Says a r₀.state.backtracking outcome) ∧
        ((∀ v, ¬ w.Finds a 0 0 v) →
          ∃ s, (Verdict.noViable s).Says a r₀.state.backtracking outcome) := by
  have hr₀ : Ready r₀.input := hlive.ready
  have hhere : At r₀ (r₀.placeAhead 0) r₀ := ⟨hr₀, rfl, rfl, rfl, rfl⟩
  have hforget :
      forget (countedWalk hooks a (Cursor.index r₀.input) r₀.state.options.maxLookahead 0) =
        walk hooks a (Cursor.index r₀.input) r₀.state.options.maxLookahead 0 :=
    forget_countedWalk _ 0
  refine ⟨hforget, ?_⟩
  have hdecides : Decides w r₀ a 0 0
      (walk hooks a (Cursor.index r₀.input) r₀.state.options.maxLookahead 0) :=
    decides_walk hw hr₀ _ (by rw [hw.maxLookahead_eq, Nat.zero_add])
  -- a run of the walk is a run of the counted walk
  have hcounted {outcome : Except Fault Nat} {r' : Recognizer S X}
      (hrun : walk hooks a (Cursor.index r₀.input) r₀.state.options.maxLookahead 0 r₀ =
        some (outcome, r')) :
      ∃ resolutions,
        countedWalk hooks a (Cursor.index r₀.input) r₀.state.options.maxLookahead 0 r₀ =
          some (.ok (resolutions, outcome), r') ∧
        resolutions.length ≤ r₀.state.options.maxLookahead + 1 ∧
        ∀ n ∈ resolutions, n ≤ a.stateCount := by
    rw [← hforget] at hrun
    rcases bind_eq_some.1 hrun with ⟨⟨resolutions, o⟩, r₁, hcount, hrest⟩ | ⟨e, hcount, -⟩
    · obtain ⟨rfl, rfl⟩ := Prod.mk.inj (Option.some.inj hrest)
      obtain ⟨p, hp, hbounds⟩ := countedWalk_le _ _ hcount
      obtain rfl := Except.ok.inj hp
      exact ⟨resolutions, hcount, hbounds⟩
    · obtain ⟨p, hp, -⟩ := countedWalk_le _ _ hcount
      cases hp
  rcases hdecides with ⟨v, hv, hmeets⟩ | ⟨hnone, s, hmeets⟩
  · obtain ⟨outcome, r', hrun, hsays⟩ := hmeets r₀ hhere
    obtain ⟨resolutions, hcount, hlength, hall⟩ := hcounted hrun
    refine ⟨resolutions, outcome, r', hcount, hrun, hlength, hall, fun v' hv' => ?_, fun h => ?_⟩
    · rw [hv'.unique hv]
      exact hsays
    · exact absurd hv (h v)
  · obtain ⟨outcome, r', hrun, hsays⟩ := hmeets r₀ hhere
    obtain ⟨resolutions, hcount, hlength, hall⟩ := hcounted hrun
    exact ⟨resolutions, outcome, r', hcount, hrun, hlength, hall,
      fun v hv => absurd hv (hnone v), fun _ => ⟨s, hsays⟩⟩

/-- What a decision with wandering hooks sees of two units. -/
def wanderingOutlook : Outlook where
  unit k := View.typeAt (View.input twoUnits.input) (twoUnits.placeAhead k)
  predicate _ := .ok true
  parse _ := .error .backtracking
  speculates := true
  tryAll := false
  maxLookahead := 4096

lemma describes_wandering (decision : Nat) :
    wanderingOutlook.Describes wandering decision twoUnits where
  unit_eq _ := rfl
  speculates_iff := by decide
  tryAll_eq := rfl
  maxLookahead_eq := rfl
  predicate id _ hr _ _ := ⟨_, rfl, (tame_wandering.predicate id rfl hr).1, rfl, rfl⟩
  speculate n _ _ _ _ := ⟨_, rfl, tame_wandering.speculate decision n rfl, rfl⟩

/-- A decision whose two states lead to each other. -/
def circlingAutomaton : Automaton where
  decision := 0
  description := ""
  states := #[⟨none, some 0, none, none, 0, #[]⟩, ⟨none, some 1, none, none, 0, #[]⟩]
  specials := #[⟨[⟨none, none, 1⟩], [], none⟩, ⟨[⟨none, none, 0⟩], [], none⟩]
  alternatives := []

lemma not_finds_circling (v : Verdict) : ¬ wanderingOutlook.Finds circlingAutomaton 0 0 v := by
  have hhop (k : Nat) : wanderingOutlook.Moves circlingAutomaton k 0 (.hop 1) ∧
      wanderingOutlook.Moves circlingAutomaton k 1 (.hop 0) :=
    ⟨.hop_of_edge rfl rfl rfl rfl, .hop_of_edge rfl rfl rfl rfl⟩
  suffices h : ∀ k s v, wanderingOutlook.Finds circlingAutomaton k s v → s = 0 ∨ s = 1 → False from
    fun hv => h 0 0 v hv (.inl rfl)
  intro k s v hv hs
  induction hv with
  | stop h =>
    rcases hs with rfl | rfl
    · cases h.unique (hhop _).1
    · cases h.unique (hhop _).2
  | hop h _ ih =>
    rcases hs with rfl | rfl
    · cases h.unique (hhop _).1
      exact ih (.inr rfl)
    · cases h.unique (hhop _).2
      exact ih (.inl rfl)
  | consume h =>
    rcases hs with rfl | rfl
    · cases h.unique (hhop _).1
    · cases h.unique (hhop _).2

/-- A walk that finds an alternative behind two predicates, and one that goes in circles. -/
theorem walk_exact_wandering :
    (∃ r', walk wandering askingAutomaton 0 4096 0 twoUnits = some (.ok 2, r')) ∧
      ∃ s f r', walk wandering circlingAutomaton 0 4096 0 twoUnits = some (.error (.failed f), r') ∧
        f.kind = .noViableAlternative 0 s [] "" := by
  constructor
  · obtain ⟨-, resolutions, outcome, r', -, hrun, -, -, hfinds, -⟩ :=
      walk_exact (describes_wandering askingAutomaton.decision) live_twoUnits
    have hfound : wanderingOutlook.Finds askingAutomaton 0 0 (.alternative 2) :=
      .hop (t := 1) (.hop_of_edge rfl rfl rfl rfl)
        (.hop (t := 2) (.hop_of_edge rfl rfl rfl rfl) (.stop (.accept rfl rfl rfl)))
    obtain rfl : outcome = .ok 2 := hfinds _ hfound
    exact ⟨r', hrun⟩
  · obtain ⟨-, resolutions, outcome, r', -, hrun, -, -, -, hnone⟩ :=
      walk_exact (describes_wandering circlingAutomaton.decision) live_twoUnits
    obtain ⟨s, e, rfl, f, rfl, hkind⟩ := hnone not_finds_circling
    exact ⟨s, f, r', hrun, hkind⟩

end Recognizer

end Lookahead
