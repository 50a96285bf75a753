import Lookahead.Parser.Basic
import Lookahead.Proofs.Grammar.Coupling
import Lookahead.Proofs.Parser.Lockstep
import Lookahead.Proofs.Recognizer.Guards
import Lookahead.Proofs.Stream.Legible

/-!
# What records stand for

The record of a rule at a place says what becomes of the rule's body there.  It is right if every
recognizer without records comes to that, whatever else it has gone through: the recorded outcome is
then that of the place (`Yields`).  A memo table is `Truthful` if all its records are right.

The proof compares a recognizer in a speculation, which replays and makes records, to an unaided one
that speculates at the same place.  `Echoes` says what they have in common.  It is little: their
inputs, the marks of each, and that they speculate.  Nothing else has a say in what a speculation
comes to.

This module has the single operations, and the guards.
-/

namespace Lookahead

open Action Cursor Recognizer
open Cursor.View (Ready spot marks)

/-- An event that does not tell that it was gone on from a failed speculation, or that a rule was
left because of a misuse. -/
def Event.Straight : Event → Prop
  | .attempted (some .backtracking) => False
  | .exited _ _ (some (.misuse _)) _ => False
  | _ => True

instance : DecidablePred Event.Straight
  | .attempted (some .backtracking) | .exited _ _ (some (.misuse _)) _ => isFalse id
  | .attempted none | .attempted (some (.failed _)) => isTrue trivial
  | .attempted (some (.misuse _)) => isTrue trivial
  | .exited _ _ none _ | .exited _ _ (some (.failed _)) _ => isTrue trivial
  | .exited _ _ (some .backtracking) _ => isTrue trivial
  | .predicted _ _ _ | .tried _ | .evaluated _ _ _ | .speculated _ _ _ _ => isTrue trivial
  | .matchedToken _ | .matchedNode _ | .rooted _ | .entered _ _ _ => isTrue trivial
  | .observed _ | .emitted _ | .shown _ _ => isTrue trivial

variable {S X ι α β : Type} [Cursor S] [View S]

/-- What a run is about: a program in its dialect, the options, and the input. -/
structure Setting (S X ι : Type) [View S] where
  dialect : Dialect S X ι
  grammar : Grammar ι
  options : Options
  input : View.Input S

namespace Setting

variable (c : Setting S X ι)

/-- Run a block of the setting's grammar. -/
def run (fuel : Nat) (block : Block ι) : Action (Recognizer S X) Unit :=
  c.grammar.run c.dialect fuel block

/-- Run the body of a rule. -/
def runRule (fuel rule : Nat) : Action (Recognizer S X) Unit := c.run fuel (c.grammar.body rule)

end Setting

/-! ## Records -/

/-- The recognizer stands at a place of the input and has no records, and its predictions may nest
speculations as deep as a run with so much fuel can. -/
structure Unaided (c : Setting S X ι) (start fuel : Nat) (s : Recognizer S X) : Prop where
  ready : Ready s.input
  input_eq : View.input s.input = c.input
  index_eq : Cursor.index s.input = start
  unbound : ∃ bound, s.state.options = c.options.plain bound ∧
    s.state.backtracking + fuel ≤ bound

/-- All that a later speculation depends on is as it was, but the place. -/
structure Abides (s s' : Recognizer S X) : Prop where
  placed : Placed (View.input s.input) (marks s.input).entries s'.input
  backtracking_eq : s'.state.backtracking = s.state.backtracking
  options_eq : s'.state.options = s.state.options

/-- In a speculation without records, the body of a rule comes to what the record tells, with any
fuel from `m` on. -/
def Yields (c : Setting S X ι) (rule start m : Nat) (e : MemoEntry) : Prop :=
  ∀ fuel, m ≤ fuel → ∀ s, Unaided c start fuel s → 0 < s.state.backtracking → ∃ o s',
    c.runRule fuel rule s = some (o, s') ∧ e.Tells o (Cursor.index s'.input) ∧ Abides s s'

/-- The record is of a place of the input and tells what becomes of the rule's body there. -/
structure Right (c : Setting S X ι) (rule start : Nat) (e : MemoEntry) : Prop where
  place : ∃ t : S, Ready t ∧ View.input t = c.input ∧ Cursor.index t = start
  yields : ∃ m, Yields c rule start m e

/-- All records of a table are right in the setting. -/
def Truthful (c : Setting S X ι) (memo : MemoTable) : Prop :=
  ∀ rule start e, memo.find? rule start = some e → Right c rule start e

lemma truthful_empty (c : Setting S X ι) : Truthful c .empty :=
  fun _ _ _ h => by cases h

/-- The records are right now, and were so whenever the grammar looked at the recognizer. -/
structure Honest (c : Setting S X ι) (r : Recognizer S X) : Prop where
  now : Truthful c r.state.memo
  seen : ∀ look, .observed look ∈ r.trace →
    Truthful c look.state.memo ∧ look.state.options = c.options

/-- The stream is ready, or becomes so as soon as somebody takes a mark. -/
def Usable (t : S) : Prop := Ready t ∨ Reached t

/-- A recognizer in the setting, over its input and with its options, whose records are right. -/
structure Trusted (c : Setting S X ι) (r : Recognizer S X) : Prop where
  usable : Usable r.input
  input_eq : View.input r.input = c.input
  options_eq : r.state.options = c.options
  honest : Honest c r

/-! ## Fuel -/

lemma MemoEntry.Tells.unique {e e' : MemoEntry} {o : Except Fault Unit} {i : Nat}
    (h : e.Tells o i) (h' : e'.Tells o i) : e = e' := by
  cases e with
  | parsed stop =>
    obtain ⟨rfl, rfl⟩ := h
    cases e' with
    | parsed stop' => rw [h'.2]
    | failed => cases h'
  | failed =>
    obtain rfl : o = .error .backtracking := h
    cases e' with
    | parsed stop' => cases h'.1
    | failed => rfl

/-- The fuel `m` is enough for the body of a rule, if any is. -/
def Timely (c : Setting S X ι) (m rule start : Nat) : Prop :=
  ∀ e n, Yields c rule start n e → Yields c rule start m e

lemma Timely.mono {c : Setting S X ι} {m n rule start : Nat} (h : Timely c m rule start)
    (hle : m ≤ n) : Timely c n rule start :=
  fun e k hk fuel hfuel => h e k hk fuel (Nat.le_trans hle hfuel)

lemma exists_timely (c : Setting S X ι) (rule start : Nat) : ∃ m, Timely c m rule start := by
  by_cases hsome : ∃ e m, Yields c rule start m e
  · obtain ⟨e, m, h⟩ := hsome
    refine ⟨m, fun e' n h' fuel hfuel s hs hpos => ?_⟩
    obtain ⟨bound, hoptions, hbound⟩ := hs.unbound
    -- both records tell the run with the larger fuel
    let t : Recognizer S X :=
      { s with state := { s.state with options := c.options.plain (bound + n) } }
    have ht : Unaided c start (max fuel n) t := by
      refine ⟨hs.ready, hs.input_eq, hs.index_eq, bound + n, rfl, ?_⟩
      show s.state.backtracking + max fuel n ≤ bound + n
      omega
    obtain ⟨o, t', hrun, htells, -⟩ := h _ (Nat.le_trans hfuel (Nat.le_max_left _ _)) t ht hpos
    obtain ⟨o', t'', hrun', htells', -⟩ := h' _ (Nat.le_max_right _ _) t ht hpos
    obtain ⟨rfl, rfl⟩ := Prod.mk.inj (Option.some.inj (hrun.symm.trans hrun'))
    obtain rfl := htells.unique htells'
    exact h fuel hfuel s hs hpos
  · exact ⟨0, fun e m h => absurd ⟨e, m, h⟩ hsome⟩

/-- Some fuel is enough for all rules that there are records of. -/
lemma exists_timely_of_memo (c : Setting S X ι) (memo : MemoTable) :
    ∃ m, ∀ rule start, (memo.find? rule start).isSome → Timely c m rule start := by
  have hkeys (entries : List ((Nat × Nat) × MemoEntry)) : ∃ m, ∀ rule start,
      (entries.lookup (rule, start)).isSome → Timely c m rule start := by
    induction entries with
    | nil => exact ⟨0, fun _ _ h => by cases h⟩
    | cons entry rest ih =>
      obtain ⟨m, hm⟩ := ih
      obtain ⟨n, hn⟩ := exists_timely c entry.1.1 entry.1.2
      refine ⟨max m n, fun rule start h => ?_⟩
      by_cases hkey : (rule, start) = entry.1
      · rw [← hkey] at hn
        exact hn.mono (Nat.le_max_right _ _)
      · rw [List.lookup_cons, beq_eq_false_iff_ne.2 hkey] at h
        exact (hm rule start h).mono (Nat.le_max_left _ _)
  exact hkeys memo.entries

/-! ## What is kept -/

/-- Only operations on the stream have changed the input, nobody has looked, and the records, the
options and the depth of backtracking are what they were. -/
structure Undisturbed (r r' : Recognizer S X) : Prop where
  reaches : Reaches r.input r'.input
  trace : ∃ new, r'.trace.toList = r.trace.toList ++ new ∧ ∀ look, .observed look ∉ new
  memo_eq : r'.state.memo = r.state.memo
  options_eq : r'.state.options = r.state.options
  backtracking_eq : r'.state.backtracking = r.state.backtracking

instance : IsPreorder (Recognizer S X) Undisturbed where
  refl r := ⟨Reaches.refl _, ⟨[], by simp, by simp⟩, rfl, rfl, rfl⟩
  trans r r₁ r' h h' := by
    obtain ⟨new, htrace, hnew⟩ := h.trace
    obtain ⟨new', htrace', hnew'⟩ := h'.trace
    refine ⟨h.reaches.trans h'.reaches, ⟨new ++ new', ?_, fun look hlook => ?_⟩,
      h'.memo_eq.trans h.memo_eq, h'.options_eq.trans h.options_eq,
      h'.backtracking_eq.trans h.backtracking_eq⟩
    · rw [htrace', htrace, List.append_assoc]
    · rcases List.mem_append.1 hlook with hlook | hlook
      · exact hnew look hlook
      · exact hnew' look hlook

/-- Nothing is taken back from the trace, nor from what there are records of. -/
structure Amasses (r r' : Recognizer S X) : Prop where
  trace : ∀ e ∈ r.trace, e ∈ r'.trace
  keys : ∀ rule start, (r.state.memo.find? rule start).isSome →
    (r'.state.memo.find? rule start).isSome

/-- The run has been straight, and the fuel `m` is enough for all rules that there are records
of. -/
structure Candid (c : Setting S X ι) (m : Nat) (r : Recognizer S X) : Prop where
  straight : ∀ e ∈ r.trace, e.Straight
  timely : ∀ rule start, (r.state.memo.find? rule start).isSome → Timely c m rule start

section

variable {c : Setting S X ι} {m : Nat} {r r' : Recognizer S X}

lemma Amasses.fades (h : Amasses r r') : Fades (Candid c m) r r' := fun hcandid =>
  ⟨fun e he => hcandid.straight e (h.trace e he),
    fun rule start hsome => hcandid.timely rule start (h.keys rule start hsome)⟩

omit [View S] in
lemma Undisturbed.amasses (h : Undisturbed r r') : Amasses r r' := by
  obtain ⟨new, htrace, -⟩ := h.trace
  refine ⟨fun e he => ?_, fun rule start hsome => h.memo_eq ▸ hsome⟩
  rw [← Array.mem_toList_iff] at he ⊢
  rw [htrace]
  exact List.mem_append_left _ he

lemma Undisturbed.fades (h : Undisturbed r r') : Fades (Candid c m) r r' := h.amasses.fades

lemma fades_of_undisturbed {x : Action (Recognizer S X) α} (h : Within Undisturbed x) :
    Within (Fades (Candid c m)) x :=
  h.mono fun _ _ h => h.fades

lemma Honest.of_undisturbed (h : Honest c r) (hr : Undisturbed r r') : Honest c r' := by
  obtain ⟨new, htrace, hnew⟩ := hr.trace
  refine ⟨hr.memo_eq ▸ h.now, fun look hlook => ?_⟩
  rw [← Array.mem_toList_iff, htrace] at hlook
  rcases List.mem_append.1 hlook with hlook | hlook
  · exact h.seen look (Array.mem_toList_iff.1 hlook)
  · exact absurd hlook (hnew look)

omit [View S] in
lemma undisturbed_input {i : S} (h : Reaches r.input i) : Undisturbed r { r with input := i } :=
  ⟨h, ⟨[], by simp, by simp⟩, rfl, rfl, rfl⟩

omit [View S] in
lemma undisturbed_own (own : X) : Undisturbed r { r with own } :=
  ⟨Reaches.refl _, ⟨[], by simp, by simp⟩, rfl, rfl, rfl⟩

omit [View S] in
lemma undisturbed_state {s : State} (hmemo : s.memo = r.state.memo)
    (hoptions : s.options = r.state.options) (hdepth : s.backtracking = r.state.backtracking) :
    Undisturbed r { r with state := s } :=
  ⟨Reaches.refl _, ⟨[], by simp, by simp⟩, hmemo, hoptions, hdepth⟩

omit [View S] in
lemma undisturbed_trace {e : Event} (he : ∀ look, e ≠ .observed look) :
    Undisturbed r { r with trace := r.trace.push e } :=
  ⟨Reaches.refl _, ⟨[e], by simp, fun look hlook => he look (List.mem_singleton.1 hlook).symm⟩,
    rfl, rfl, rfl⟩

end

/-! ## Operations that leave the records alone -/

section

variable {S X α : Type} [Cursor S]

lemma undisturbed_stepInput {f : S → α × S} (hf : ∀ t, Reaches t (f t).2) :
    Within Undisturbed (stepInput f : Action (Recognizer S X) α) :=
  Within.step fun r => undisturbed_input (hf r.input)

lemma undisturbed_lookahead (k : Int) :
    Within Undisturbed (lookahead k : Action (Recognizer S X) TokenType) :=
  undisturbed_stepInput fun t => (Step.lookahead t k).reaches

lemma undisturbed_symbol : Within Undisturbed (symbol : Action (Recognizer S X) Token) :=
  undisturbed_stepInput fun t => (Step.symbol t).reaches

lemma undisturbed_consume : Within Undisturbed (consume : Action (Recognizer S X) Unit) :=
  Within.update fun _ => undisturbed_input (Step.consume _).reaches

lemma undisturbed_seek (i : Nat) :
    Within Undisturbed (seek i : Action (Recognizer S X) Unit) :=
  Within.update fun _ => undisturbed_input (Step.seek _ i).reaches

lemma undisturbed_note {e : Event} (he : ∀ look, e ≠ .observed look) :
    Within Undisturbed (note e : Action (Recognizer S X) Unit) :=
  Within.update fun _ => undisturbed_trace he

lemma undisturbed_updateState {f : State → State} (hmemo : ∀ s, (f s).memo = s.memo)
    (hoptions : ∀ s, (f s).options = s.options)
    (hdepth : ∀ s, (f s).backtracking = s.backtracking) :
    Within Undisturbed (updateState f : Action (Recognizer S X) Unit) :=
  Within.update fun _ => undisturbed_state (hmemo _) (hoptions _) (hdepth _)

lemma undisturbed_giveUp : Within Undisturbed (giveUp : Action (Recognizer S X) α) := by
  refine Within.bind (undisturbed_updateState ?_ ?_ ?_) fun _ => Within.fault _
  all_goals exact fun _ => rfl

lemma undisturbed_fail (kind : FailureKind) (expected : Option TokenSet) :
    Within Undisturbed (fail kind expected : Action (Recognizer S X) α) := by
  refine (Within.read _).bind fun depth => Within.ite undisturbed_giveUp
    (Within.bind ?_ fun _ => Within.fault _)
  exact undisturbed_symbol.bind fun found => (Within.read _).bind fun index =>
    Within.step fun _ => undisturbed_state rfl rfl rfl

lemma undisturbed_replay (rule : Rule) :
    Within Undisturbed (replay rule : Action (Recognizer S X) Bool) := by
  refine (Within.read _).bind fun start => (Within.read _).bind fun memoizing => ?_
  refine Within.ite ((Within.read _).bind fun entry => ?_) (Within.pure _)
  split
  · exact undisturbed_giveUp
  · exact (undisturbed_seek _).bind fun _ => Within.pure _
  · exact Within.pure _

/-- A rule has failed from its record, which is noted. -/
lemma undisturbed_failed {r : Recognizer S X} {e : Event} (he : ∀ look, e ≠ .observed look) :
    Undisturbed r { r with
      state := { r.state with failed := true }
      trace := r.trace.push e } := by
  have hstate : Undisturbed r { r with state := { r.state with failed := true } } :=
    undisturbed_state rfl rfl rfl
  exact trans_of Undisturbed hstate (undisturbed_trace he)

/-- A rule has matched from its record, which is noted. -/
lemma undisturbed_parsed {r : Recognizer S X} {e : Event} (he : ∀ look, e ≠ .observed look)
    (stop : Nat) :
    Undisturbed r { r with
      input := Cursor.seek r.input stop
      trace := r.trace.push e } := by
  have hinput : Undisturbed r { r with input := Cursor.seek r.input stop } :=
    undisturbed_input (Step.seek r.input stop).reaches
  exact trans_of Undisturbed hinput (undisturbed_trace he)

end

/-! ## Echoes -/

/-- Where two recognizers speculate: how deep, under which marks, and how far the predictions of the
second one may go. -/
structure Footing (S : Type) [View S] where
  depth : Nat
  depth' : Nat
  bound : Nat
  marks : List (Nat × View.Spot S)
  marks' : List (Nat × View.Spot S)
  pos : 0 < depth
  pos' : 0 < depth'

/-- The second recognizer has no records, and follows the first one through a speculation.  After a
failure they need not be at one place. -/
structure Echoes (c : Setting S X ι) (j : Footing S) (fault : Option Fault)
    (r s : Recognizer S X) : Prop where
  placed : Placed c.input j.marks r.input
  placed' : Placed c.input j.marks' s.input
  spot_eq : fault ≠ some .backtracking → spot s.input = spot r.input
  depth_eq : r.state.backtracking = j.depth
  depth_eq' : s.state.backtracking = j.depth'
  options_eq : r.state.options = c.options
  options_eq' : s.state.options = c.options.plain j.bound
  honest : Honest c r
  shallow : ∀ f, fault ≠ some (.failed f)

/-- Two actions that echo each other, where the first one comes to a candid end. -/
abbrev Echoing (c : Setting S X ι) (m : Nat) (j : Footing S) (x y : Action (Recognizer S X) α) :
    Prop :=
  Paired (Candid c m) (Echoes c j) x y

variable {c : Setting S X ι} {m : Nat} {j : Footing S} {fault fault' : Option Fault}
  {r r' s s' : Recognizer S X} {raise : Bool}

namespace Echoes

lemma pos (h : Echoes c j fault r s) : 0 < r.state.backtracking := h.depth_eq ▸ j.pos

lemma pos' (h : Echoes c j fault r s) : 0 < s.state.backtracking := h.depth_eq' ▸ j.pos'

/-- The recognizers are left as they are, or nearly so. -/
lemma onward (h : Echoes c j fault r s) (hr : Undisturbed r r')
    (hdepth : s'.state.backtracking = s.state.backtracking)
    (hoptions : s'.state.options = s.state.options) (hplaced : Placed c.input j.marks r'.input)
    (hplaced' : Placed c.input j.marks' s'.input)
    (hspot : fault' ≠ some .backtracking → spot s'.input = spot r'.input)
    (hshallow : ∀ f, fault' ≠ some (.failed f)) : Echoes c j fault' r' s' where
  placed := hplaced
  placed' := hplaced'
  spot_eq := hspot
  depth_eq := hr.backtracking_eq.trans h.depth_eq
  depth_eq' := hdepth.trans h.depth_eq'
  options_eq := hr.options_eq.trans h.options_eq
  options_eq' := hoptions.trans h.options_eq'
  honest := h.honest.of_undisturbed hr
  shallow := hshallow

/-- The streams stay where they are. -/
lemma resting (h : Echoes c j fault r s) (hr : Undisturbed r r') (hinput : r'.input = r.input)
    (hdepth : s'.state.backtracking = s.state.backtracking)
    (hoptions : s'.state.options = s.state.options) (hinput' : s'.input = s.input) :
    Echoes c j fault r' s' :=
  h.onward hr hdepth hoptions (hinput ▸ h.placed) (hinput' ▸ h.placed')
    (by rw [hinput, hinput']; exact h.spot_eq) h.shallow

/-- The streams move. -/
lemma moved {t t' : S} (h : Echoes c j fault r s) (hreach : Reaches r.input t)
    (hplaced : Placed c.input j.marks t) (hplaced' : Placed c.input j.marks' t')
    (hspot : spot t' = spot t) (hshallow : ∀ f, fault' ≠ some (.failed f)) :
    Echoes c j fault' { r with input := t } { s with input := t' } :=
  h.onward (undisturbed_input hreach) rfl rfl hplaced hplaced' (fun _ => hspot) hshallow

lemma faulted (h : Echoes c j none r s) (hshallow : ∀ f, fault ≠ some (.failed f)) :
    Echoes c j fault r s :=
  { h with
    spot_eq := fun _ => h.spot_eq (by simp)
    shallow := hshallow }

end Echoes

/-- Where two recognizers are that speculate, each for itself, at depths of their own. -/
def Footing.over (r s : Recognizer S X) (bound : Nat) (hr : 0 < r.state.backtracking)
    (hs : 0 < s.state.backtracking) : Footing S where
  depth := r.state.backtracking
  depth' := s.state.backtracking
  bound
  marks := (View.marks r.input).entries
  marks' := (View.marks s.input).entries
  pos := hr
  pos' := hs

/-! ## Single operations -/

lemma echo_stepInput {f : S → α × S} (hreach : ∀ t, Reaches t (f t).2)
    (hland : ∀ t, Ready t → Lands t (f t).2 (spot t) (marks t))
    (hcongr : ∀ t t', Ready t → Ready t' → View.input t' = View.input t → spot t' = spot t →
      (f t').1 = (f t).1) :
    Echoing c m j (stepInput f : Action (Recognizer S X) α) (stepInput f) := by
  refine Couples.step (fun r => (undisturbed_input (hreach _)).fades) fun r s h => ?_
  have hinput : View.input s.input = View.input r.input :=
    h.placed'.input_eq.trans h.placed.input_eq.symm
  have hspot := h.spot_eq (by simp)
  refine ⟨hcongr _ _ h.placed.ready h.placed'.ready hinput hspot,
    h.moved (hreach _) (h.placed.lands (hland _ h.placed.ready))
      (h.placed'.lands (hland _ h.placed'.ready)) ?_ h.shallow⟩
  rw [(hland _ h.placed.ready).spot_eq, (hland _ h.placed'.ready).spot_eq, hspot]

lemma echo_update {f g : Recognizer S X → Recognizer S X} (hf : ∀ r, Undisturbed r (f r))
    (h : ∀ r s, Echoes c j none r s → Echoes c j none (f r) (g s)) :
    Echoing c m j (Action.update f) (Action.update g) :=
  Couples.update (fun r => (hf r).fades) h

/-- An update of the state that concerns neither the records nor the depth. -/
lemma echo_updateState {f : State → State} (hmemo : ∀ s, (f s).memo = s.memo)
    (hoptions : ∀ s, (f s).options = s.options)
    (hdepth : ∀ s, (f s).backtracking = s.backtracking) :
    Echoing c m j (updateState f : Action (Recognizer S X) Unit) (updateState f) := by
  have hf (r : Recognizer S X) : Undisturbed r { r with state := f r.state } :=
    undisturbed_state (hmemo _) (hoptions _) (hdepth _)
  exact echo_update hf fun r s h => h.resting (hf r) rfl (hdepth _) (hoptions _) rfl

/-- What only one kind of recognizer has makes no difference. -/
lemma echo_updateOwn (f g : X → X) :
    Echoing c m j (updateOwn f : Action (Recognizer S X) Unit) (updateOwn g) :=
  echo_update (fun _ => undisturbed_own _) fun _ _ h =>
    h.resting (undisturbed_own _) rfl rfl rfl rfl

lemma echo_note {e e' : Event} (he : ∀ look, e ≠ .observed look) :
    Echoing c m j (note e : Action (Recognizer S X) Unit) (note e') :=
  echo_update (fun _ => undisturbed_trace he) fun _ _ h =>
    h.resting (undisturbed_trace he) rfl rfl rfl rfl

lemma echo_fault {e : Fault} (he : ∀ f, e ≠ .failed f) :
    Echoing c m j (.fault e : Action (Recognizer S X) α) (.fault e) :=
  Couples.ofExcept (o := .error e) fun _ _ h => h.faulted fun f hf => he f (Option.some.inj hf)

lemma echo_giveUp : Echoing c m j (giveUp : Action (Recognizer S X) α) giveUp := by
  have hfault : Echoing c m j (.fault .backtracking : Action (Recognizer S X) α)
      (.fault .backtracking) := echo_fault fun _ h => by cases h
  have hfailed : Echoing c m j (updateState fun s => { s with failed := true } :
      Action (Recognizer S X) Unit) (updateState fun s => { s with failed := true }) :=
    echo_updateState (fun _ => rfl) (fun _ => rfl) fun _ => rfl
  exact hfailed.bind fun _ => hfault

/-- In a speculation, an operation may come down to another one. -/
lemma echo_of_eq {x y : Action (Recognizer S X) α} (hx : Within (Fades (Candid c m)) x)
    (heq : ∀ r : Recognizer S X, 0 < r.state.backtracking → x r = y r) (hy : Echoing c m j y y) :
    Echoing c m j x x :=
  Couples.of_eq hy hx fun r s h => ⟨heq r h.pos, heq s h.pos'⟩

/-- Values that need not be the same on both sides. -/
lemma echo_read_any {f g : Recognizer S X → β} {x y : β → Action (Recognizer S X) α}
    (hxy : ∀ a b, Echoing c m j (x a) (y b)) :
    Echoing c m j (Action.read f >>= x) (Action.read g >>= y) := by
  refine ⟨(Within.read f).bind fun a => (hxy a a).fades, fun r o r' hrun hfair s h => ?_⟩
  rw [bind_apply, read_apply] at hrun
  obtain ⟨s', hrun', h'⟩ := (hxy (f r) (g s)).follows hrun hfair s h
  exact ⟨s', by rw [bind_apply, read_apply]; exact hrun', h'⟩

omit [View S] in
lemma fail_of_speculating (kind : FailureKind) (expected : Option TokenSet)
    (hr : 0 < r.state.backtracking) :
    (fail kind expected : Action (Recognizer S X) α) r = giveUp r := by
  simp only [fail, bind_apply, readState_apply, if_pos hr]

variable [Legible S]

lemma echo_lookahead (k : Int) :
    Echoing c m j (lookahead k : Action (Recognizer S X) TokenType) (lookahead k) :=
  echo_stepInput (fun t => (Step.lookahead t k).reaches) (fun _ => Lawful.lookahead k)
    fun _ _ => Savable.lookahead_congr k

lemma echo_symbol : Echoing c m j (symbol : Action (Recognizer S X) Token) symbol :=
  echo_stepInput (fun t => (Step.symbol t).reaches) (fun _ => Lawful.symbol)
    fun _ _ => Savable.symbol_congr

lemma Echoes.index_eq (h : Echoes c j none r s) :
    Cursor.index s.input = Cursor.index r.input := by
  rw [Lawful.index_eq, Lawful.index_eq, h.spot_eq (by simp)]

omit [Legible S] in
lemma Echoes.trusted (h : Echoes c j fault r s) : Trusted c r :=
  ⟨.inl h.placed.ready, h.placed.input_eq, h.options_eq, h.honest⟩

/-- A recognizer is echoed by all unaided ones at its place. -/
lemma Trusted.echoes {fuel bound : Nat} (h : Trusted c r) (hready : Ready r.input)
    (hr : 0 < r.state.backtracking) (hs : Unaided c (Cursor.index r.input) fuel s)
    (hpos : 0 < s.state.backtracking) (hoptions : s.state.options = c.options.plain bound) :
    Echoes c (.over r s bound hr hpos) none r s where
  placed := ⟨hready, h.input_eq, rfl⟩
  placed' := ⟨hs.ready, hs.input_eq, rfl⟩
  spot_eq _ := spot_of_index hs.index_eq
  depth_eq := rfl
  depth_eq' := rfl
  options_eq := h.options_eq
  options_eq' := hoptions
  honest := h.honest
  shallow _ := by simp

lemma Usable.reaches {t t' : S} (h : Usable t) (hreach : Reaches t t') : Usable t' := by
  rcases h with hready | ⟨t₀, hfresh, ht⟩
  · exact .inl (hreach.ready hready).1
  · exact .inr ⟨t₀, hfresh, ht.trans hreach⟩

lemma Usable.mark {t : S} (h : Usable t) : Ready (Cursor.mark t).2 := by
  rcases h with hready | ⟨t₀, hfresh, ht⟩
  · exact (Lawful.mark hready).ready
  · exact Lawful.ready_of_reaches hfresh (ht.trans (Step.mark t).reaches) (Savable.started_mark t)

lemma Trusted.of_undisturbed (h : Trusted c r) (hr : Undisturbed r r') : Trusted c r' :=
  ⟨h.usable.reaches hr.reaches, hr.reaches.input_eq.trans h.input_eq,
    hr.options_eq.trans h.options_eq, h.honest.of_undisturbed hr⟩

lemma echo_index : Echoing c m j (index : Action (Recognizer S X) Nat) index :=
  Couples.read fun _ _ h => ⟨h.index_eq, h⟩

lemma echo_consume : Echoing c m j (consume : Action (Recognizer S X) Unit) consume := by
  refine echo_update (fun r => undisturbed_input (Step.consume _).reaches) fun r s h => ?_
  exact h.moved (Step.consume _).reaches h.placed.consume h.placed'.consume
    (spot_consume h.placed.ready h.placed'.ready (h.placed'.input_eq.trans h.placed.input_eq.symm)
      (h.spot_eq (by simp))) h.shallow

/-- A move brings the recognizers together, wherever a failure has left them. -/
lemma Echoes.sought (h : Echoes c j fault r s) (i : Nat)
    (hshallow : ∀ f, fault' ≠ some (.failed f)) :
    Echoes c j fault' { r with input := Cursor.seek r.input i }
      { s with input := Cursor.seek s.input i } :=
  h.moved (Step.seek _ i).reaches (h.placed.seek i) (h.placed'.seek i)
    (Legible.seek_congr i h.placed.ready h.placed'.ready
      (h.placed'.input_eq.trans h.placed.input_eq.symm)) hshallow

lemma echo_seek (i : Nat) : Echoing c m j (seek i : Action (Recognizer S X) Unit) (seek i) :=
  echo_update (fun _ => undisturbed_input (Step.seek _ i).reaches) fun _ _ h =>
    h.sought i h.shallow

omit [Legible S] in
lemma echo_fail (kind : FailureKind) (expected : Option TokenSet) :
    Echoing c m j (fail kind expected : Action (Recognizer S X) α) (fail kind expected) :=
  echo_of_eq (fades_of_undisturbed (undisturbed_fail kind expected))
    (fun _ => fail_of_speculating kind expected) echo_giveUp

/-- What is done at another place. -/
lemma echo_visiting {x y : Action (Recognizer S X) α} (hxy : Echoing c m j x y) (start : Nat) :
    Echoing c m j (visiting start x) (visiting start y) := by
  refine echo_index.bind fun here => (echo_seek start).bind fun _ => ?_
  refine Couples.attempt_bind hxy fun o => ?_
  exact Couples.update_bind (fun _ => (undisturbed_input (Step.seek _ here).reaches).fades)
    (fun _ _ h => h.sought here h.shallow) (Couples.ofExcept fun _ _ h => h)

/-! ## Guards -/

/-- Where two recognizers are that have taken a mark each. -/
def Footing.under (j : Footing S) (raise : Bool) (t t' : S) : Footing S :=
  { j with
    depth := j.depth + raise.toNat
    depth' := j.depth' + raise.toNat
    marks := (View.marks (Cursor.mark t).2).entries
    marks' := (View.marks (Cursor.mark t').2).entries
    pos := Nat.add_pos_left j.pos _
    pos' := Nat.add_pos_left j.pos' _ }

omit [Legible S] in
/-- A guard that raises the depth of backtracking leaves the records alone. -/
lemma Honest.of_eq (h : Honest c r) (hmemo : r'.state.memo = r.state.memo)
    (htrace : r'.trace = r.trace) : Honest c r' :=
  ⟨hmemo ▸ h.now, fun look hlook => h.seen look (htrace ▸ hlook)⟩

namespace Echoes

lemma begun (h : Echoes c j none r s) (raise : Bool) :
    Echoes c (j.under raise r.input s.input) none (begun raise r) (Recognizer.begun raise s) where
  placed := h.placed.mark
  placed' := h.placed'.mark
  spot_eq _ := by
    show spot (Cursor.mark s.input).2 = spot (Cursor.mark r.input).2
    rw [(Lawful.mark h.placed.ready).spot_eq, (Lawful.mark h.placed'.ready).spot_eq]
    exact h.spot_eq (by simp)
  depth_eq := congrArg (· + raise.toNat) h.depth_eq
  depth_eq' := congrArg (· + raise.toNat) h.depth_eq'
  options_eq := h.options_eq
  options_eq' := h.options_eq'
  honest := h.honest.of_eq rfl rfl
  shallow _ := by simp

/-- Both recognizers end their guards. -/
lemma ended {r₁ s₁ : Recognizer S X} (h : Echoes c j none r s)
    (h₁ : Echoes c (j.under raise r.input s.input) fault r₁ s₁) (ending : GuardEnd) :
    ∃ u u', Cursor.endGuard r₁.input (Cursor.mark r.input).1 ending = (.ok (), u) ∧
      Cursor.endGuard s₁.input (Cursor.mark s.input).1 ending = (.ok (), u') ∧
      Echoes c j fault (Recognizer.ended raise u r₁) (Recognizer.ended raise u' s₁) ∧
      (ending ≠ .keep → spot u' = spot u) := by
  obtain ⟨u, hu, hplaced, hspot⟩ := h.placed.endGuard h₁.placed ending
  obtain ⟨u', hu', hplaced', hspot'⟩ := h.placed'.endGuard h₁.placed' ending
  have hback (hending : ending ≠ .keep) : spot u' = spot u := by
    rw [hspot, hspot', if_neg hending, if_neg hending]
    exact h.spot_eq (by simp)
  refine ⟨u, u', hu, hu', ⟨hplaced, hplaced', fun hfault => ?_, ?_, ?_, h₁.options_eq,
    h₁.options_eq', h₁.honest.of_eq rfl rfl, h₁.shallow⟩, hback⟩
  · by_cases hending : ending = .keep
    · show spot u' = spot u
      rw [hspot, hspot', if_pos hending, if_pos hending]
      exact h₁.spot_eq hfault
    · exact hback hending
  · exact Nat.sub_eq_of_eq_add h₁.depth_eq
  · exact Nat.sub_eq_of_eq_add h₁.depth_eq'

end Echoes

omit [View S] [Legible S] in
lemma amasses_begun (raise : Bool) (r : Recognizer S X) : Amasses r (begun raise r) :=
  ⟨fun _ => id, fun _ _ => id⟩

omit [Cursor S] [View S] [Legible S] in
lemma amasses_ended (raise : Bool) (i : S) (r : Recognizer S X) : Amasses r (ended raise i r) :=
  ⟨fun _ => id, fun _ _ => id⟩

omit [Legible S] in
lemma fades_speculating {x : Action (Recognizer S X) α} (hx : Within (Fades (Candid c m)) x)
    (raise : Bool) (ending : GuardEnd) :
    Within (Fades (Candid c m)) (speculating raise ending x) := by
  intro r o r' hrun
  obtain ⟨outcome, r₁, hbody, hout⟩ := speculating_eq_some.1 hrun
  obtain ⟨-, rfl⟩ := Prod.mk.inj hout
  exact trans_of (Fades (Candid c m)) (amasses_begun raise r).fades
    (trans_of (Fades (Candid c m)) (hx hbody) (amasses_ended raise _ r₁).fades)

/-- Speculations of bodies that echo each other.  What the bodies leave behind may be judged by
more than their outcome. -/
lemma couples_guarded {x y : Action (Recognizer S X) α} {e : Except Fault α → Option Fault}
    (ending : GuardEnd)
    (hxy : ∀ i : Footing S, i.depth = j.depth + raise.toNat → i.depth' = j.depth' + raise.toNat →
      i.bound = j.bound →
      Couples (Candid c m) (Echoes c i none) x y fun o => Echoes c i (e o)) :
    Couples (Candid c m) (Echoes c j none) (speculating raise ending x)
      (speculating raise ending y) fun o r s =>
        Echoes c j (e o) r s ∧ (ending ≠ .keep → spot s.input = spot r.input) := by
  let i : Footing S :=
    { j with
      depth := j.depth + raise.toNat
      depth' := j.depth' + raise.toNat
      pos := Nat.add_pos_left j.pos _
      pos' := Nat.add_pos_left j.pos' _ }
  refine ⟨fades_speculating (hxy i rfl rfl rfl).fades raise ending,
    fun r o r' hrun hfair s h => ?_⟩
  obtain ⟨outcome, r₁, hbody, hout⟩ := speculating_eq_some.1 hrun
  have hfair₁ : Candid c m r₁ := by
    obtain ⟨-, rfl⟩ := Prod.mk.inj hout
    exact (amasses_ended raise _ r₁).fades hfair
  obtain ⟨s₁, hbody', h₁⟩ := (hxy (j.under raise r.input s.input) rfl rfl rfl).follows hbody hfair₁
    _ (h.begun raise)
  obtain ⟨u, u', hu, hu', hended, hback⟩ := h.ended h₁ ending
  simp only [concluded, hu] at hout
  obtain ⟨rfl, rfl⟩ := Prod.mk.inj hout
  refine ⟨Recognizer.ended raise u' s₁, speculating_eq_some.2 ⟨outcome, s₁, hbody', ?_⟩, hended,
    hback⟩
  simp only [concluded, hu']

lemma echo_speculating {x y : Action (Recognizer S X) α} (ending : GuardEnd)
    (hxy : ∀ i : Footing S, i.depth = j.depth + raise.toNat → i.depth' = j.depth' + raise.toNat →
      i.bound = j.bound → Echoing c m i x y) :
    Echoing c m j (speculating raise ending x) (speculating raise ending y) :=
  (couples_guarded ending hxy).mono (fun _ _ h => h) fun _ _ _ h => h.1

/-- What a syntactic predicate runs under its mark. -/
def answering (x : Action (Recognizer S X) Unit) :
    Action (Recognizer S X) (Except Fault Unit) := do
  let outcome ← x.attempt
  .update cleared
  return outcome

omit [View S] [Legible S] in
lemma synpred_eq_answering (x : Action (Recognizer S X) Unit) :
    synpred x = speculating true .restore (answering x) >>= fun outcome =>
      .ofExcept (answer outcome) :=
  synpred_eq x

/-- What has been found out, if finding it out did not fail. -/
def findings : Except Fault (Except Fault Unit) → Option Fault
  | .ok outcome => Fault.ofOutcome outcome
  | .error fault => some fault

omit [Legible S] in
lemma couples_answering {x y : Action (Recognizer S X) Unit} (hxy : Echoing c m j x y) :
    Couples (Candid c m) (Echoes c j none) (answering x) (answering y) fun o =>
      Echoes c j (findings o) := by
  have hclear (q : Recognizer S X) : Undisturbed q (cleared q) := undisturbed_state rfl rfl rfl
  refine Couples.attempt_bind hxy fun o => ?_
  exact Couples.update_bind (fun q => (hclear q).fades)
    (fun q _ h => h.resting (hclear q) rfl rfl rfl rfl)
    (Couples.ofExcept (o := .ok o) fun _ _ h => h)

/-- A syntactic predicate forgets what went wrong, unless it was a misuse. -/
lemma echo_synpred {x y : Action (Recognizer S X) Unit}
    (hxy : ∀ i : Footing S, i.depth = j.depth + 1 → i.depth' = j.depth' + 1 → i.bound = j.bound →
      Echoing c m i x y) :
    Echoing c m j (synpred x) (synpred y) := by
  rw [synpred_eq_answering, synpred_eq_answering]
  refine (couples_guarded .restore fun i hi hi' hbound =>
    couples_answering (hxy i hi hi' hbound)).bind (fun o => ?_) fun _ _ _ h => h.1
  refine Couples.ofExcept fun r s ⟨h, hback⟩ => ?_
  refine { h with spot_eq := fun _ => hback (by simp), shallow := fun f hf => ?_ }
  rcases o with (g | _ | _) | _
  · exact h.shallow g rfl
  all_goals cases hf

end Lookahead
