import Lookahead.Automaton.Prediction
import Lookahead.Proofs.Recognizer.Speculation
import Mathlib.Tactic.Tauto

/-!
# Decisions without bounds on hops

The rules by which an automaton decides, as a relation.  `Outlook` is all that a decision depends on
besides the automaton: the types of the units ahead and what the hooks of the grammar come to.
`Outlook.Moves` has the rules for a single state, and `Outlook.Finds` follows them for as long as it
takes.  Nothing here counts hops, so a decision that hops in circles finds nothing.

There is exactly one move at each state (`Outlook.Moves.unique`, `Outlook.exists_moves`).  So at
most one thing is found (`Outlook.Finds.unique`), and where nothing is found the rules go on without
end.
-/

namespace Lookahead

/-! ## Rules -/

/-- The state that an edge leads to on a token type: the table's edge, or else the one for the end
of the token, or else at the end of input the one for that. -/
inductive AutomatonState.Leads (s : AutomatonState) (t : TokenType) : Nat → Prop
  | table {u : Nat} (h : s.edge t = some u) : Leads s t u
  | endOfToken {u : Nat} (h : s.edge t = none) (hu : s.endOfToken = some u) : Leads s t u
  | endOfInput {u : Nat} (h : s.edge t = none) (h' : s.endOfToken = none) (ht : t = .eof)
      (hu : s.endOfInput = some u) : Leads s t u

lemma AutomatonState.leads_iff {s : AutomatonState} {t : TokenType} {u : Nat} :
    s.Leads t u ↔ s.target t = some u := by
  unfold target
  constructor
  · rintro (h | ⟨h, hu⟩ | ⟨h, h', rfl, hu⟩)
    · simp [h]
    · simp [h, hu]
    · simp [h, h', hu]
  · intro h
    cases htable : s.edge t with
    | some v => exact .table (by simpa [htable] using h)
    | none =>
      cases htoken : s.endOfToken with
      | some v => exact .endOfToken htable (by simpa [htable, htoken] using h)
      | none =>
        by_cases ht : t = .eof
        · rw [htable, htoken, if_pos ht] at h
          exact .endOfInput htable htoken ht h
        · rw [htable, htoken, if_neg ht] at h
          cases h

/-- The table has an edge on the types of its entries that are not empty. -/
lemma AutomatonState.edge_eq_some_iff {s : AutomatonState} {t : TokenType} {u : Nat} :
    s.edge t = some u ↔ ∃ i : Nat, s.edges[i]? = some (some u) ∧ s.low + (i : Int) = t := by
  have hentry (i : Nat) : s.edges.getD i none = some u ↔ s.edges[i]? = some (some u) := by
    rw [Array.getD_eq_getD_getElem?]
    cases s.edges[i]? <;> simp
  unfold edge
  constructor
  · intro h
    split at h
    · cases h
    · rename_i hlow
      refine ⟨(t - s.low).toNat, (hentry _).1 h, ?_⟩
      rw [Int.toNat_of_nonneg (Int.sub_nonneg_of_le (Int.not_lt.1 hlow)), Int.add_comm,
        Int.sub_add_cancel]
  · rintro ⟨i, hget, rfl⟩
    have hplace : (s.low + (i : Int) - s.low).toNat = i := by
      rw [Int.add_comm, Int.add_sub_cancel, Int.toNat_natCast]
    rw [if_neg (Int.not_lt.2 (Int.le_add_of_nonneg_right (Int.natCast_nonneg i))), hplace]
    exact (hentry i).2 hget

/-- What a decision depends on besides its automaton. It is data and no program, so that what is
found by it is the same each time. -/
structure Outlook where
  /-- The type of the unit that is so many units ahead. -/
  unit : Nat → TokenType
  /-- What each semantic predicate comes to. -/
  predicate : Nat → Except Fault Bool
  /-- What the speculative parse of each alternative comes to. -/
  parse : Nat → Except Fault Unit
  /-- May alternatives be parsed at this depth of speculation? -/
  speculates : Bool
  /-- Are all alternatives parsed, even behind one that does? -/
  tryAll : Bool
  /-- How many units may be consumed? -/
  maxLookahead : Nat

/-- What is found at the end of a walk. -/
inductive Verdict where
  /-- An alternative. -/
  | alternative (n : Nat)
  /-- No way on from a state. -/
  | noViable (s : Nat)
  /-- A fault of a hook, or the misuse of an automaton that is not closed. -/
  | raised (e : Fault)

/-- What happens at a state with a number of units consumed. -/
inductive Move where
  /-- Something is found. -/
  | stop (v : Verdict)
  /-- Go on at another state, with the same unit ahead. -/
  | hop (s : Nat)
  /-- Consume the unit ahead and go on at another state. -/
  | consume (s : Nat)

namespace Automaton

/-! ## Candidates in order -/

/-- Erasing repetitions makes a sorted list strictly sorted.  What is already erased is on a list in
front, the last one first. -/
lemma eraseReps_loop (rest acc : List Nat) (n : Nat) (hrest : (n :: rest).Pairwise (· ≤ ·))
    (hacc : (n :: acc).Pairwise (· > ·)) :
    (List.eraseRepsBy.loop (· == ·) n rest acc).Pairwise (· < ·) ∧
      ∀ m, m ∈ List.eraseRepsBy.loop (· == ·) n rest acc ↔ m = n ∨ m ∈ rest ∨ m ∈ acc := by
  induction rest generalizing n acc with
  | nil =>
    rw [List.eraseRepsBy.loop]
    refine ⟨List.pairwise_reverse.2 hacc, fun m => ?_⟩
    simp only [List.mem_reverse, List.mem_cons, List.not_mem_nil]
    tauto
  | cons n' rest ih =>
    rw [List.eraseRepsBy.loop]
    obtain ⟨hle, hrest'⟩ := List.pairwise_cons.1 hrest
    split
    · rename_i heq
      obtain rfl := beq_iff_eq.1 heq
      obtain ⟨hsorted, hmem⟩ := ih acc n hrest' hacc
      refine ⟨hsorted, fun m => ?_⟩
      rw [hmem, List.mem_cons]
      tauto
    · rename_i hne
      have hlt : n < n' := Nat.lt_of_le_of_ne (hle n' (by simp)) (by simpa using hne)
      have hacc' : (n' :: n :: acc).Pairwise (· > ·) := by
        refine List.pairwise_cons.2 ⟨fun m hm => ?_, hacc⟩
        rcases List.mem_cons.1 hm with rfl | hm
        · exact hlt
        · exact Nat.lt_trans ((List.pairwise_cons.1 hacc).1 m hm) hlt
      obtain ⟨hsorted, hmem⟩ := ih (n :: acc) n' hrest' hacc'
      refine ⟨hsorted, fun m => ?_⟩
      rw [hmem, List.mem_cons, List.mem_cons]
      tauto

/-- The same numbers, each of them once and in order. -/
lemma ascending_spec (ns : List Nat) :
    (ascending ns).Pairwise (· < ·) ∧ ∀ n, n ∈ ascending ns ↔ n ∈ ns := by
  have hsorted : (ns.mergeSort (· ≤ ·)).Pairwise (· ≤ ·) := by
    have h : (ns.mergeSort (· ≤ ·)).Pairwise fun a b => decide (a ≤ b) = true :=
      List.pairwise_mergeSort (fun a b c hab hbc => by simp at *; omega)
        (fun a b => by simp; omega) ns
    simpa using h
  have hmem (n : Nat) : n ∈ ns.mergeSort (· ≤ ·) ↔ n ∈ ns := List.mem_mergeSort
  unfold ascending List.eraseReps List.eraseRepsBy
  split
  · rename_i hnil
    refine ⟨List.Pairwise.nil, fun n => ?_⟩
    rw [← hmem n, hnil]
  · rename_i n rest hcons
    rw [hcons] at hsorted
    obtain ⟨hpairwise, hloop⟩ := eraseReps_loop rest [] n hsorted (by simp)
    refine ⟨hpairwise, fun m => ?_⟩
    rw [hloop, ← hmem m, hcons]
    simp

end Automaton

namespace Outlook

open Recognizer (Resolution answer)

/-- Where an edge of a special state leads on a token type, if it applies. -/
def edge (w : Outlook) (t : TokenType) (e : PredicatedEdge) : Option (Except Fault Nat) :=
  if (e.type.map (· == t)).getD true then
    match e.predicate with
    | none => some (.ok e.target)
    | some id =>
      match w.predicate id with
      | .ok true => some (.ok e.target)
      | .ok false => none
      | .error cause => some (.error cause)
  else none

/-- What the parsing of alternatives comes to: the lowest that parses.  Those in front of it have
failed, and if all are to be tried, then those behind it have failed or parsed. -/
inductive Simulates (w : Outlook) (alternatives : List Nat) : Except Fault (Option Nat) → Prop
  | found {n : Nat} (hn : n ∈ alternatives) (hparses : answer (w.parse n) = .ok true)
      (below : ∀ m ∈ alternatives, m < n → answer (w.parse m) = .ok false)
      (above : w.tryAll = true → ∀ m ∈ alternatives, n < m → ∃ b, answer (w.parse m) = .ok b) :
      Simulates w alternatives (.ok (some n))
  | raised {n : Nat} {cause : Fault} (hn : n ∈ alternatives)
      (hraises : answer (w.parse n) = .error cause)
      (below : ∀ m ∈ alternatives, m < n → answer (w.parse m) = .ok false ∨
        w.tryAll = true ∧ answer (w.parse m) = .ok true) :
      Simulates w alternatives (.error cause)
  | none (hall : ∀ m ∈ alternatives, answer (w.parse m) = .ok false) :
      Simulates w alternatives (.ok none)

/-- Where a special state leads: the first of its edges that applies, or else the lowest
alternative that parses, or else the last resort. -/
inductive Resolves (w : Outlook) (t : TokenType) (special : SpecialState) :
    Except Fault Resolution → Prop
  | edge {target : Except Fault Nat} (h : special.edges.findSome? (w.edge t) = some target) :
      Resolves w t special (target.map .state)
  | parsed {n : Nat} (h : special.edges.findSome? (w.edge t) = none) (hw : w.speculates = true)
      (hn : w.Simulates special.simulate (.ok (some n))) :
      Resolves w t special (.ok (.alternative n))
  | raised {cause : Fault} (h : special.edges.findSome? (w.edge t) = none)
      (hw : w.speculates = true) (hn : w.Simulates special.simulate (.error cause)) :
      Resolves w t special (.error cause)
  | lastResort (h : special.edges.findSome? (w.edge t) = none)
      (hw : w.speculates = true → w.Simulates special.simulate (.ok none)) :
      Resolves w t special (.ok ((special.fallback.map .state).getD .stuck))

/-- What happens at state `s` if its special state comes to `outcome`, a fault included. -/
def moveOf (s : Nat) : Except Fault Resolution → Move
  | .ok (.state t) => .hop t
  | .ok (.alternative n) => .stop (.alternative n)
  | .ok .stuck => .stop (.noViable s)
  | .error cause => .stop (.raised cause)

/-- What happens at state `s` with `k` units consumed.  A special state comes before an
alternative, and an alternative before the bound on lookahead. -/
inductive Moves (w : Outlook) (a : Automaton) (k s : Nat) : Move → Prop
  | missing (h : a.states[s]? = none) :
      Moves w a k s (.stop (.raised (.misuse (.noState a.decision s))))
  | unknown {state : AutomatonState} {i : Nat} (h : a.states[s]? = some state)
      (hi : state.special = some i) (hnone : a.special i = none) :
      Moves w a k s (.stop (.noViable s))
  | special {state : AutomatonState} {i : Nat} {special : SpecialState}
      {o : Except Fault Resolution} (h : a.states[s]? = some state) (hi : state.special = some i)
      (hspecial : a.special i = some special) (ho : w.Resolves (w.unit k) special o) :
      Moves w a k s (moveOf s o)
  | accept {state : AutomatonState} {n : Nat} (h : a.states[s]? = some state)
      (hi : state.special = none) (hn : state.accept = some n) :
      Moves w a k s (.stop (.alternative n))
  | cut {state : AutomatonState} (h : a.states[s]? = some state) (hi : state.special = none)
      (hn : state.accept = none) (hk : w.maxLookahead ≤ k) : Moves w a k s (.stop (.noViable s))
  | step {state : AutomatonState} {t : Nat} (h : a.states[s]? = some state)
      (hi : state.special = none) (hn : state.accept = none) (hk : k < w.maxLookahead)
      (ht : state.Leads (w.unit k) t) (hsize : t < a.stateCount) : Moves w a k s (.consume t)
  | dead {state : AutomatonState} (h : a.states[s]? = some state) (hi : state.special = none)
      (hn : state.accept = none) (hk : k < w.maxLookahead)
      (ht : ∀ t, state.Leads (w.unit k) t → a.stateCount ≤ t) : Moves w a k s (.stop (.noViable s))

/-- What is found from state `s` on with `k` units consumed, however many hops it takes. -/
inductive Finds (w : Outlook) (a : Automaton) : (k s : Nat) → Verdict → Prop
  | stop {k s : Nat} {v : Verdict} (h : w.Moves a k s (.stop v)) : Finds w a k s v
  | hop {k s t : Nat} {v : Verdict} (h : w.Moves a k s (.hop t)) (hv : Finds w a k t v) :
      Finds w a k s v
  | consume {k s t : Nat} {v : Verdict} (h : w.Moves a k s (.consume t))
      (hv : Finds w a (k + 1) t v) : Finds w a k s v

variable {w : Outlook} {a : Automaton} {k s : Nat}

/-! ## Alternatives one by one -/

variable {alternatives rest : List Nat} {n : Nat} {o : Except Fault (Option Nat)}

namespace Simulates

lemma congr (hmem : ∀ n, n ∈ rest ↔ n ∈ alternatives) (h : w.Simulates rest o) :
    w.Simulates alternatives o := by
  cases h with
  | found hn hparses below above =>
    exact .found ((hmem _).1 hn) hparses (fun m hm => below m ((hmem m).2 hm))
      fun hall m hm => above hall m ((hmem m).2 hm)
  | raised hn hraises below =>
    exact .raised ((hmem _).1 hn) hraises fun m hm => below m ((hmem m).2 hm)
  | none hall => exact .none fun m hm => hall m ((hmem m).2 hm)

/-- If all are tried and something is found or nothing parses, then none has raised. -/
lemma answers_ok {found : Option Nat} (hall : w.tryAll = true)
    (h : w.Simulates alternatives (.ok found)) {m : Nat} (hm : m ∈ alternatives) :
    ∃ b, answer (w.parse m) = .ok b := by
  cases h with
  | @found n hn hparses below above =>
    rcases Nat.lt_trichotomy m n with hlt | rfl | hlt
    · exact ⟨false, below m hm hlt⟩
    · exact ⟨true, hparses⟩
    · exact above hall m hm hlt
  | none hnone => exact ⟨false, hnone m hm⟩

variable (hfirst : ∀ m ∈ rest, n < m)

include hfirst

lemma cons_raises {cause : Fault} (hn : answer (w.parse n) = .error cause) :
    w.Simulates (n :: rest) (.error cause) := by
  refine .raised (by simp) hn fun m hm hlt => ?_
  rcases List.mem_cons.1 hm with rfl | hm
  · exact absurd hlt (Nat.lt_irrefl _)
  · exact absurd (hfirst m hm) (Nat.lt_asymm hlt)

lemma cons_parses (hn : answer (w.parse n) = .ok true)
    (hrest : w.tryAll = true → ∃ found, w.Simulates rest (.ok found)) :
    w.Simulates (n :: rest) (.ok (some n)) := by
  refine .found (by simp) hn (fun m hm hlt => ?_) fun hall m hm hlt => ?_
  · rcases List.mem_cons.1 hm with rfl | hm
    · exact absurd hlt (Nat.lt_irrefl _)
    · exact absurd (hfirst m hm) (Nat.lt_asymm hlt)
  · obtain ⟨found, hfound⟩ := hrest hall
    rcases List.mem_cons.1 hm with rfl | hm
    · exact ⟨true, hn⟩
    · exact hfound.answers_ok hall hm

lemma cons_parses_raises {cause : Fault} (hn : answer (w.parse n) = .ok true)
    (hall : w.tryAll = true) (hrest : w.Simulates rest (.error cause)) :
    w.Simulates (n :: rest) (.error cause) := by
  cases hrest with
  | raised hm hraises below =>
    refine .raised (List.mem_cons_of_mem n hm) hraises fun l hl hlt => ?_
    rcases List.mem_cons.1 hl with rfl | hl
    · exact .inr ⟨hall, hn⟩
    · exact below l hl hlt

lemma cons_fails (hn : answer (w.parse n) = .ok false) (hrest : w.Simulates rest o) :
    w.Simulates (n :: rest) o := by
  cases hrest with
  | found hm hparses below above =>
    refine .found (List.mem_cons_of_mem n hm) hparses (fun l hl hlt => ?_) fun hall l hl hlt => ?_
    · rcases List.mem_cons.1 hl with rfl | hl
      · exact hn
      · exact below l hl hlt
    · rcases List.mem_cons.1 hl with rfl | hl
      · exact ⟨false, hn⟩
      · exact above hall l hl hlt
  | raised hm hraises below =>
    refine .raised (List.mem_cons_of_mem n hm) hraises fun l hl hlt => ?_
    rcases List.mem_cons.1 hl with rfl | hl
    · exact .inl hn
    · exact below l hl hlt
  | none hnone =>
    refine .none fun l hl => ?_
    rcases List.mem_cons.1 hl with rfl | hl
    · exact hn
    · exact hnone l hl

end Simulates

/-! ## There is always a move -/

lemma exists_simulates (w : Outlook) (alternatives : List Nat) :
    ∃ o, w.Simulates alternatives o := by
  obtain ⟨hsorted, hmem⟩ := Automaton.ascending_spec alternatives
  suffices h : ∀ ns : List Nat, ns.Pairwise (· < ·) → ∃ o, w.Simulates ns o by
    obtain ⟨o, ho⟩ := h _ hsorted
    exact ⟨o, ho.congr hmem⟩
  intro ns hns
  induction ns with
  | nil => exact ⟨_, .none (by simp)⟩
  | cons n rest ih =>
    obtain ⟨hfirst, hrest⟩ := List.pairwise_cons.1 hns
    obtain ⟨o, ho⟩ := ih hrest
    rcases hn : answer (w.parse n) with cause | (_ | _)
    · exact ⟨_, .cons_raises hfirst hn⟩
    · exact ⟨o, .cons_fails hfirst hn ho⟩
    · by_cases hall : w.tryAll = true
      · rcases o with cause | found
        · exact ⟨_, .cons_parses_raises hfirst hn hall ho⟩
        · exact ⟨_, .cons_parses hfirst hn fun _ => ⟨found, ho⟩⟩
      · exact ⟨_, .cons_parses hfirst hn fun h => absurd h hall⟩

lemma exists_resolves (w : Outlook) (t : TokenType) (special : SpecialState) :
    ∃ o, w.Resolves t special o := by
  cases hfind : special.edges.findSome? (w.edge t) with
  | some target => exact ⟨_, .edge hfind⟩
  | none =>
    by_cases hw : w.speculates = true
    · obtain ⟨o, ho⟩ := w.exists_simulates special.simulate
      rcases o with cause | (_ | n)
      · exact ⟨_, .raised hfind hw ho⟩
      · exact ⟨_, .lastResort hfind fun _ => ho⟩
      · exact ⟨_, .parsed hfind hw ho⟩
    · exact ⟨_, .lastResort hfind fun h => absurd h hw⟩

lemma exists_moves (w : Outlook) (a : Automaton) (k s : Nat) : ∃ m, w.Moves a k s m := by
  cases hstate : a.states[s]? with
  | none => exact ⟨_, .missing hstate⟩
  | some state =>
    cases hi : state.special with
    | some i =>
      cases hspecial : a.special i with
      | none => exact ⟨_, .unknown hstate hi hspecial⟩
      | some special =>
        obtain ⟨o, ho⟩ := w.exists_resolves (w.unit k) special
        exact ⟨_, .special hstate hi hspecial ho⟩
    | none =>
      cases hn : state.accept with
      | some n => exact ⟨_, .accept hstate hi hn⟩
      | none =>
        by_cases hk : k < w.maxLookahead
        · by_cases ht : ∃ t, state.Leads (w.unit k) t ∧ t < a.stateCount
          · obtain ⟨t, ht, hsize⟩ := ht
            exact ⟨_, .step hstate hi hn hk ht hsize⟩
          · exact ⟨_, .dead hstate hi hn hk fun t hleads =>
              Nat.not_lt.1 fun hsize => ht ⟨t, hleads, hsize⟩⟩
        · exact ⟨_, .cut hstate hi hn (Nat.not_lt.1 hk)⟩

/-! ## There is no other -/

/-- An alternative that is found leaves no room for one that raises. -/
lemma not_found_raised {m : Nat} {cause : Fault}
    (hn : n ∈ alternatives) (hparses : answer (w.parse n) = .ok true)
    (below : ∀ m ∈ alternatives, m < n → answer (w.parse m) = .ok false)
    (above : w.tryAll = true → ∀ m ∈ alternatives, n < m → ∃ b, answer (w.parse m) = .ok b)
    (hm : m ∈ alternatives) (hraises : answer (w.parse m) = .error cause)
    (below' : ∀ l ∈ alternatives, l < m → answer (w.parse l) = .ok false ∨
      w.tryAll = true ∧ answer (w.parse l) = .ok true) : False := by
  rcases Nat.lt_trichotomy n m with hlt | rfl | hlt
  · rcases below' n hn hlt with hfalse | ⟨hall, -⟩
    · simp [hfalse] at hparses
    · obtain ⟨b, hb⟩ := above hall m hm hlt
      simp [hb] at hraises
  · simp [hparses] at hraises
  · simp [below m hm hlt] at hraises

lemma Simulates.unique {o' : Except Fault (Option Nat)}
    (h : w.Simulates alternatives o) (h' : w.Simulates alternatives o') : o = o' := by
  cases h with
  | @found n hn hparses below above =>
    cases h' with
    | @found n' hn' hparses' below' above' =>
      rcases Nat.lt_trichotomy n n' with hlt | rfl | hlt
      · simp [below' n hn hlt] at hparses
      · rfl
      · simp [below n' hn' hlt] at hparses'
    | raised hn' hraises' below' =>
      exact (not_found_raised hn hparses below above hn' hraises' below').elim
    | none hall => simp [hall n hn] at hparses
  | @raised n cause hn hraises below =>
    cases h' with
    | found hn' hparses' below' above' =>
      exact (not_found_raised hn' hparses' below' above' hn hraises below).elim
    | @raised n' cause' hn' hraises' below' =>
      rcases Nat.lt_trichotomy n n' with hlt | rfl | hlt
      · rcases below' n hn hlt with hfalse | ⟨-, htrue⟩
        · simp [hfalse] at hraises
        · simp [htrue] at hraises
      · rw [Except.error.inj (hraises.symm.trans hraises')]
      · rcases below n' hn' hlt with hfalse | ⟨-, htrue⟩
        · simp [hfalse] at hraises'
        · simp [htrue] at hraises'
    | none hall => simp [hall n hn] at hraises
  | none hall =>
    cases h' with
    | found hn' hparses' => simp [hall _ hn'] at hparses'
    | raised hn' hraises' => simp [hall _ hn'] at hraises'
    | none => rfl

lemma Resolves.unique {t : TokenType} {special : SpecialState} {o o' : Except Fault Resolution}
    (h : w.Resolves t special o) (h' : w.Resolves t special o') : o = o' := by
  cases h with
  | edge h =>
    cases h' with
    | edge h' => rw [Option.some.inj (h.symm.trans h')]
    | parsed h' | raised h' | lastResort h' => simp [h] at h'
  | parsed h hw hn =>
    cases h' with
    | edge h' => simp [h] at h'
    | parsed _ _ hn' => simpa using hn.unique hn'
    | raised _ _ hn' => simpa using hn.unique hn'
    | lastResort _ hn' => simpa using hn.unique (hn' hw)
  | raised h hw hn =>
    cases h' with
    | edge h' => simp [h] at h'
    | parsed _ _ hn' => simpa using hn.unique hn'
    | raised _ _ hn' => simpa using hn.unique hn'
    | lastResort _ hn' => simpa using hn.unique (hn' hw)
  | lastResort h hn =>
    cases h' with
    | edge h' => simp [h] at h'
    | parsed _ hw hn' => simpa using hn'.unique (hn hw)
    | raised _ hw hn' => simpa using hn'.unique (hn hw)
    | lastResort => rfl

lemma Moves.unique {m m' : Move} (h : w.Moves a k s m) (h' : w.Moves a k s m') : m = m' := by
  -- two rules for one state mostly contradict each other in what they read of it
  cases h <;> cases h' <;> simp_all only [Option.some.injEq, reduceCtorEq]
  case special.special ho _ _ _ ho' => exact congrArg _ (ho.unique ho')
  case cut.step => omega
  case step.cut => omega
  case step.step ht _ _ _ ht' _ =>
    rw [AutomatonState.leads_iff] at ht ht'
    rw [Option.some.inj (ht.symm.trans ht')]
  case step.dead ht hsize _ _ hdead => exact absurd (hdead _ ht) (Nat.not_le.2 hsize)
  case dead.step hdead _ _ ht hsize => exact absurd (hdead _ ht) (Nat.not_le.2 hsize)

/-- At most one thing is found. -/
lemma Finds.unique {v v' : Verdict} (h : w.Finds a k s v) (h' : w.Finds a k s v') : v = v' := by
  induction h with
  | stop h =>
    cases h' with
    | stop h' => exact Move.stop.inj (h.unique h')
    | hop h' => cases h.unique h'
    | consume h' => cases h.unique h'
  | hop h _ ih =>
    cases h' with
    | stop h' => cases h.unique h'
    | hop h' hv' =>
      obtain rfl := Move.hop.inj (h.unique h')
      exact ih hv'
    | consume h' => cases h.unique h'
  | consume h _ ih =>
    cases h' with
    | stop h' => cases h.unique h'
    | hop h' => cases h.unique h'
    | consume h' hv' =>
      obtain rfl := Move.consume.inj (h.unique h')
      exact ih hv'

end Outlook

end Lookahead
