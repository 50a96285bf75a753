import Lookahead.Edit.Queue
import Lookahead.Proofs.Edit.Inserts
import Mathlib.Data.List.Sort

/-!
# The text of edited tokens

Once no two edits of a program touch the same token, the text is put together token by token: what
shows at the token, and the token itself unless a replacement covers it (`pieceAt`).  Rendering goes
through the tokens once and counts how many of them are still covered (`Skips`).  Inserts behind the
last token come in the order of their places, since only one is left at each of them.
-/

namespace Lookahead.Edit

variable {edits : List Edit} {e e' : Edit} {a i k skip last : Nat} {text : String}

instance : Std.Symm Clear := ⟨fun _ _ => Or.symm⟩

lemma mem_places {p : Nat × Nat} :
    p ∈ edits.filterMap place? ↔ ∃ text, Edit.replace p.1 p.2 text ∈ edits := by
  rw [List.mem_filterMap]
  constructor
  · rintro ⟨_ | ⟨first, last, text⟩, he, hp⟩
    · cases hp
    · obtain rfl := Option.some.inj hp
      exact ⟨text, he⟩
  · exact fun ⟨text, he⟩ => ⟨_, he, rfl⟩

/-! ## One token -/

/-- What an edit puts at the token that it starts at. -/
def shows : Edit → String
  | insert _ text => text
  | replace _ _ text => text.getD ""

lemma shownAt_eq_empty (h : ∀ e ∈ edits, e.start ≠ k) : shownAt k edits = "" := by
  induction edits with
  | nil => rfl
  | cons e rest ih =>
    obtain ⟨hhead, hrest⟩ := List.forall_mem_cons.1 h
    rw [shownAt_cons_of_start_ne hhead, ih hrest]

lemma filterMap_insertedAt_of_start_ne (h : ∀ e ∈ edits, e.start ≠ k) :
    edits.filterMap (insertedAt k) = [] := by
  rw [List.filterMap_eq_nil_iff]
  intro e he
  have hne := h e he
  cases e with
  | insert index text => exact if_neg hne
  | replace => rfl

/-- Of edits that are clear of each other, only one shows at a token. -/
lemma shownAt_start (hclear : edits.Pairwise Clear) (hproper : ∀ e ∈ edits, e.Proper)
    (he : e ∈ edits) : shownAt e.start edits = e.shows := by
  induction edits with
  | nil => cases he
  | cons x rest ih =>
    obtain ⟨hhead, hrest⟩ := List.pairwise_cons.1 hclear
    obtain ⟨hproperHead, hproperRest⟩ := List.forall_mem_cons.1 hproper
    have hne : ∀ y ∈ rest, y.start ≠ x.start := fun y hy => by
      have hxy := hhead y hy
      have hx := start_le_stop hproperHead
      have hy := start_le_stop (hproperRest y hy)
      simp only [Clear] at hxy
      omega
    rcases List.mem_cons.1 he with rfl | he
    · have hempty := shownAt_eq_empty hne
      have hnil := filterMap_insertedAt_of_start_ne hne
      cases e with
      | insert index text =>
        rw [start] at *
        rw [shownAt_cons_insert hnil, hempty, shows, String.append_empty]
      | replace first last text =>
        rw [start] at *
        rw [shownAt_cons_replace hnil, hempty, shows, String.append_empty]
    · rw [shownAt_cons_of_start_ne (hne e he).symm, ih hrest hproperRest he]

/-- A replacement of the edits starts at token `a` or later and covers token `k`. -/
def CoversFrom (edits : List Edit) (a k : Nat) : Prop :=
  ∃ p ∈ edits.filterMap place?, a ≤ p.1 ∧ p.1 ≤ k ∧ k ≤ p.2

instance (edits : List Edit) (a k : Nat) : Decidable (CoversFrom edits a k) :=
  inferInstanceAs (Decidable (∃ _ ∈ _, _))

/-- What the text from token `a` on has for token `k`. -/
def pieceAt (edits : List Edit) (a k : Nat) (t : Token) : String :=
  shownAt k edits ++ if CoversFrom edits a k then "" else tokenText t

/-! ## Going through the tokens -/

/-- At token `i`, `skip` tokens are still covered by replacements from token `a` on. -/
def Skips (edits : List Edit) (a i skip : Nat) : Prop :=
  ∀ k, i ≤ k → ((∃ p ∈ edits.filterMap place?, a ≤ p.1 ∧ p.1 < i ∧ k ≤ p.2) ↔ k < i + skip)

lemma skips_start (edits : List Edit) (a : Nat) : Skips edits a a 0 := fun k hk => by
  constructor
  · rintro ⟨p, -, hle, hlt, -⟩
    omega
  · omega

section

variable (hclear : edits.Pairwise Clear) (hproper : ∀ e ∈ edits, e.Proper)

include hclear hproper

/-- No edit starts inside the rest of a range. -/
lemma lt_start_of_place {p : Nat × Nat} (hp : p ∈ edits.filterMap place?) (he : e ∈ edits)
    (hlt : p.1 < e.start) : p.2 < e.start := by
  obtain ⟨text, hx⟩ := mem_places.1 hp
  have hne : Edit.replace p.1 p.2 text ≠ e := by
    rintro rfl
    exact Nat.lt_irrefl _ hlt
  have hxe := hclear.forall hx he hne
  have hle := start_le_stop (hproper e he)
  simp only [Clear, start, stop] at *
  omega

/-- Only one edit starts at a token. -/
lemma eq_of_start_eq (he : e ∈ edits) (he' : e' ∈ edits) (h : e.start = e'.start) : e = e' := by
  by_contra hne
  have hxe := hclear.forall he he' hne
  have hle := start_le_stop (hproper e he)
  have hle' := start_le_stop (hproper e' he')
  simp only [Clear] at hxe
  omega

/-- A covered token is passed over. -/
lemma skips_succ (h : Skips edits a i (skip + 1)) : Skips edits a (i + 1) skip := by
  intro k hk
  rw [Nat.add_assoc, Nat.add_comm 1, ← h k (by omega)]
  constructor
  · rintro ⟨p, hp, hle, hlt, hin⟩
    refine ⟨p, hp, hle, Nat.lt_of_le_of_ne (Nat.le_of_lt_succ hlt) fun heq => ?_, hin⟩
    -- a range that starts at the token would start inside the one that covers it
    obtain ⟨p', hp', -, hlt', hin'⟩ := (h i (Nat.le_refl i)).2 (by omega)
    obtain ⟨text, hx⟩ := mem_places.1 hp
    have hafter := lt_start_of_place hclear hproper hp' hx (heq ▸ hlt')
    simp only [start] at hafter
    omega
  · rintro ⟨p, hp, hle, hlt, hin⟩
    exact ⟨p, hp, hle, Nat.lt_succ_of_lt hlt, hin⟩

/-- A replacement starts at the token. -/
lemma skips_replace {text : Option String} (h : Skips edits a i 0) (hai : a ≤ i)
    (he : Edit.replace i last text ∈ edits) : Skips edits a (i + 1) (last - i) := by
  intro k hk
  constructor
  · rintro ⟨p, hp, hle, hlt, hin⟩
    rcases Nat.lt_succ_iff_lt_or_eq.1 hlt with hlt | heq
    · have hbefore := (h k (by omega)).1 ⟨p, hp, hle, hlt, hin⟩
      omega
    · obtain ⟨text', hx⟩ := mem_places.1 hp
      have hsame := eq_of_start_eq hclear hproper hx he heq
      simp only [Edit.replace.injEq] at hsame
      omega
  · intro hlt
    refine ⟨(i, last), mem_places.2 ⟨_, he⟩, hai, Nat.lt_succ_self i, ?_⟩
    change k ≤ last
    omega

end

/-- No replacement starts at the token. -/
lemma skips_free (h : Skips edits a i 0) (hfree : ∀ p ∈ edits.filterMap place?, p.1 ≠ i) :
    Skips edits a (i + 1) 0 := by
  intro k hk
  constructor
  · rintro ⟨p, hp, hle, hlt, hin⟩
    have hbefore := (h k (by omega)).1
      ⟨p, hp, hle, Nat.lt_of_le_of_ne (Nat.le_of_lt_succ hlt) (hfree p hp), hin⟩
    omega
  · omega

lemma not_coversFrom (h : Skips edits a i 0) (hfree : ∀ p ∈ edits.filterMap place?, p.1 ≠ i) :
    ¬ CoversFrom edits a i := by
  rintro ⟨p, hp, hle, hlt, hin⟩
  have hbefore := (h i (Nat.le_refl i)).1 ⟨p, hp, hle, Nat.lt_of_le_of_ne hlt (hfree p hp), hin⟩
  omega

/-- **The text of a list of tokens**, the first of which has place `i`, is that of its pieces in
order. The edits are clear of each other, and `skip` tokens are still covered by a replacement that
starts at `a` or behind. -/
theorem renderFrom_eq (hclear : edits.Pairwise Clear) (hproper : ∀ e ∈ edits, e.Proper)
    (h : Skips edits a i skip) (hai : a ≤ i) (rest : List Token) :
    renderFrom edits i skip rest =
      String.join ((rest.zipIdx i).map fun p => pieceAt edits a p.2 p.1) := by
  induction rest generalizing i skip with
  | nil => cases skip <;> rfl
  | cons t rest ih =>
    rw [List.zipIdx_cons, List.map_cons, String.join_cons]
    cases skip with
    | succ skip =>
      rw [renderFrom, ih (skips_succ hclear hproper h) (Nat.le_succ_of_le hai)]
      obtain ⟨p, hp, hle, hlt, hin⟩ := (h i (Nat.le_refl i)).2 (by omega)
      have hcovers : CoversFrom edits a i := ⟨p, hp, hle, Nat.le_of_lt hlt, hin⟩
      have hempty : shownAt i edits = "" := shownAt_eq_empty fun e he heq => by
        have hafter := lt_start_of_place hclear hproper hp he (heq ▸ hlt)
        omega
      simp [pieceAt, hempty, hcovers]
    | zero =>
      rw [renderFrom]
      split
      · rename_i index text hfind
        obtain rfl : index = i := by simpa [start] using List.find?_some hfind
        have he := List.mem_of_find?_eq_some hfind
        have hfree : ∀ p ∈ edits.filterMap place?, p.1 ≠ index := fun p hp heq => by
          obtain ⟨text, hx⟩ := mem_places.1 hp
          cases eq_of_start_eq hclear hproper hx he heq
        have hshown := shownAt_start hclear hproper he
        rw [start, shows] at hshown
        rw [ih (skips_free h hfree) (Nat.le_succ_of_le hai), pieceAt,
          if_neg (not_coversFrom h hfree), hshown]
      · rename_i first last text hfind
        obtain rfl : first = i := by simpa [start] using List.find?_some hfind
        have he := List.mem_of_find?_eq_some hfind
        have hle : first ≤ last := hproper _ he
        have hcovers : CoversFrom edits a first :=
          ⟨(first, last), mem_places.2 ⟨_, he⟩, hai, Nat.le_refl first, hle⟩
        have hshown := shownAt_start hclear hproper he
        rw [start, shows] at hshown
        rw [ih (skips_replace hclear hproper h hai he) (Nat.le_succ_of_le hai), pieceAt,
          if_pos hcovers, hshown, String.append_empty]
      · rename_i hfind
        have hnone : ∀ e ∈ edits, e.start ≠ i := by simpa using List.find?_eq_none.1 hfind
        have hfree : ∀ p ∈ edits.filterMap place?, p.1 ≠ i := fun p hp heq => by
          obtain ⟨text, hx⟩ := mem_places.1 hp
          exact hnone _ hx heq
        rw [ih (skips_free h hfree) (Nat.le_succ_of_le hai), pieceAt,
          if_neg (not_coversFrom h hfree), shownAt_eq_empty hnone, String.empty_append]

/-! ## Behind the last token -/

/-- The text of an insert. -/
def inserted? : Edit → Option String
  | insert _ text => some text
  | replace .. => none

/-- Inserts in the order of their places show one place after the other. -/
lemma join_inserted (n : Nat) (hsorted : edits.Pairwise (·.start < ·.start))
    (hbounds : ∀ e ∈ edits, a ≤ e.start ∧ e.start < a + n) :
    String.join (edits.filterMap inserted?) =
      String.join
        ((List.range' a n).map fun k => String.join (edits.filterMap (insertedAt k))) := by
  induction n generalizing a edits with
  | zero =>
    obtain rfl : edits = [] := List.eq_nil_iff_forall_not_mem.2 fun e he => by
      have := hbounds e he
      omega
    rfl
  | succ n ih =>
    rw [List.range'_succ, List.map_cons, String.join_cons]
    have hskip (h : ∀ e ∈ edits, e.start ≠ a) : String.join (edits.filterMap inserted?) =
        String.join (edits.filterMap (insertedAt a)) ++ String.join
          ((List.range' (a + 1) n).map fun k => String.join (edits.filterMap (insertedAt k))) := by
      rw [filterMap_insertedAt_of_start_ne h, String.join_nil, String.empty_append]
      refine ih hsorted fun e he => ?_
      have hne := h e he
      have hbound := hbounds e he
      omega
    cases edits with
    | nil => exact hskip (by simp)
    | cons e rest =>
      obtain ⟨hhead, hrest⟩ := List.pairwise_cons.1 hsorted
      obtain ⟨hboundHead, hboundRest⟩ := List.forall_mem_cons.1 hbounds
      by_cases hstart : e.start = a
      · have hlater : ∀ x ∈ rest, a + 1 ≤ x.start ∧ x.start < a + 1 + n := fun x hx => by
          have hlt := hhead x hx
          have hbound := hboundRest x hx
          omega
        have hfirst : (e :: rest).filterMap (insertedAt a) = [e].filterMap inserted? := by
          have hne : ∀ x ∈ rest, x.start ≠ a := fun x hx => by
            have hlt := (hlater x hx).1
            omega
          rw [← List.singleton_append, List.filterMap_append, filterMap_insertedAt_of_start_ne hne]
          subst hstart
          cases e with
          | insert => simp [start, inserted?]
          | replace => rfl
        have hothers : ∀ k ∈ List.range' (a + 1) n,
            (e :: rest).filterMap (insertedAt k) = rest.filterMap (insertedAt k) := fun k hk => by
          have hne : ∀ x ∈ [e], x.start ≠ k := fun x hx => by
            obtain rfl := List.mem_singleton.1 hx
            have hlt := (List.mem_range'_1.1 hk).1
            omega
          rw [← List.singleton_append, List.filterMap_append, filterMap_insertedAt_of_start_ne hne,
            List.nil_append]
        rw [hfirst, List.map_congr_left fun k hk => congrArg String.join (hothers k hk),
          ← ih hrest hlater, ← String.join_append, ← List.filterMap_append, List.singleton_append]
      · refine hskip (List.forall_mem_cons.2 ⟨hstart, fun x hx => ?_⟩)
        have hlt := hhead x hx
        omega

/-- Edits that are clear of each other are sorted strictly: no two of them start at one token. -/
lemma pairwise_mergeSort_start (hclear : edits.Pairwise Clear) (hproper : ∀ e ∈ edits, e.Proper) :
    (edits.mergeSort fun a b => a.start ≤ b.start).Pairwise (·.start < ·.start) := by
  have hperm := List.mergeSort_perm edits fun a b => a.start ≤ b.start
  have hclear' : (edits.mergeSort fun a b => a.start ≤ b.start).Pairwise Clear :=
    (hperm.pairwise_iff fun h => Or.symm h).2 hclear
  have hle : (edits.mergeSort fun a b => a.start ≤ b.start).Pairwise
      fun a b => decide (a.start ≤ b.start) = true := by
    refine List.pairwise_mergeSort ?_ ?_ edits
    · simp only [decide_eq_true_eq]
      exact fun _ _ _ => Nat.le_trans
    · simp only [Bool.or_eq_true, decide_eq_true_eq]
      exact fun _ _ => Nat.le_total _ _
  refine (hle.and hclear').imp_of_mem fun {a b} ha hb ⟨hle, hab⟩ => ?_
  have hle' := of_decide_eq_true hle
  have ha' := start_le_stop (hproper a (hperm.mem_iff.1 ha))
  have hb' := start_le_stop (hproper b (hperm.mem_iff.1 hb))
  simp only [Clear] at hab
  omega

/-- What is inserted behind a place is in the edits that start behind it. -/
lemma filterMap_insertedAt_filter (edits : List Edit) (hlast : last < k) :
    (edits.filter fun e => last < e.start).filterMap (insertedAt k) =
      edits.filterMap (insertedAt k) := by
  rw [List.filterMap_filter]
  refine List.filterMap_congr fun e _ => ?_
  split
  · rfl
  · rename_i hnot
    cases e with
    | replace => rfl
    | insert index text =>
      have hne : index ≠ k := by
        rintro rfl
        exact hnot (decide_eq_true hlast)
      rw [insertedAt, if_neg hne]

lemma filterMap_replacementAt_eq_nil (hinside : ∀ p ∈ edits.filterMap place?, p.1 ≤ last)
    (hlast : last < k) : edits.filterMap (replacementAt k) = [] := by
  rw [List.filterMap_eq_nil_iff]
  intro e he
  cases e with
  | insert => rfl
  | replace first last' text =>
    have hle : first ≤ last := hinside (first, last') (mem_places.2 ⟨text, he⟩)
    exact if_neg (by omega)

/-- **The text behind the last token** is what is shown at each of the `n` places behind it, up to
the one that no edit starts behind. The edits are clear of each other, and no replacement starts
there. -/
theorem tail_eq (hclear : edits.Pairwise Clear) (hproper : ∀ e ∈ edits, e.Proper) {n : Nat}
    (hinside : ∀ p ∈ edits.filterMap place?, p.1 ≤ last)
    (hreach : ∀ e ∈ edits, e.start < last + 1 + n) :
    tail edits last = String.join ((List.range' (last + 1) n).map (shownAt · edits)) := by
  obtain ⟨behind, hbehind⟩ : ∃ behind, behind = edits.filter fun e => last < e.start := ⟨_, rfl⟩
  have hmem : ∀ e ∈ behind, e ∈ edits ∧ last < e.start := fun e he => by
    simpa [hbehind] using he
  have hclear' : behind.Pairwise Clear := hbehind ▸ hclear.sublist List.filter_sublist
  have hsorted := pairwise_mergeSort_start hclear' fun e he => hproper e (hmem e he).1
  have hperm := List.mergeSort_perm behind fun a b => a.start ≤ b.start
  have htail : tail edits last = String.join
      ((behind.mergeSort fun a b => a.start ≤ b.start).filterMap inserted?) := by
    rw [tail, hbehind]
    rfl
  rw [htail, join_inserted n hsorted fun e he => ?_]
  · congr 1
    refine List.map_congr_left fun k hk => ?_
    have hlast := (List.mem_range'_1.1 hk).1
    have hpermAt := hperm.filterMap (insertedAt k)
    rw [hbehind, filterMap_insertedAt_filter edits hlast, ← hbehind] at hpermAt
    rw [shownAt, filterMap_replacementAt_eq_nil hinside hlast, String.join_nil,
      String.append_empty]
    -- at one place there is at most one insert, so that the order does not matter
    rcases filterMap_insertedAt_of_clear hclear k with hnil | ⟨text, hone⟩
    · rw [hnil] at hpermAt ⊢
      rw [hpermAt.eq_nil, List.reverse_nil]
    · rw [hone] at hpermAt ⊢
      rw [hpermAt.eq_singleton, List.reverse_singleton]
  · have hbehind' := hmem e (hperm.mem_iff.1 he)
    exact ⟨hbehind'.2, hreach e hbehind'.1⟩

/-! ## A range of tokens -/

lemma renderFrom_nil (i : Nat) (rest : List Token) :
    renderFrom [] i 0 rest = String.join (rest.map tokenText) := by
  induction rest generalizing i with
  | nil => rfl
  | cons t rest ih =>
    rw [renderFrom, List.find?_nil, ih, List.map_cons, String.join_cons]

/-- Without edits the text is what it would be with edits that are folded to none. -/
lemma render_eq (edits : List Edit) (tokens : List Token) (first last : Nat) :
    render edits tokens first last = (reduce edits).map fun reduced =>
      renderFrom reduced first 0 ((tokens.take (last + 1)).drop first) ++
        if tokens.length - 1 ≤ last then tail reduced (tokens.length - 1) else "" := by
  have htake : tokens.take (min last (tokens.length - 1) + 1) = tokens.take (last + 1) := by
    rcases Nat.le_total last (tokens.length - 1) with hle | hle
    · rw [Nat.min_eq_left hle]
    · rw [Nat.min_eq_right hle, List.take_of_length_le (by omega),
        List.take_of_length_le (by omega)]
  cases edits with
  | nil =>
    have hreduce : reduce [] = .ok [] := rfl
    have htail : tail [] (tokens.length - 1) = "" := by simp [tail]
    rw [hreduce, Except.map, htail, ite_self, String.append_empty, renderFrom_nil]
    rfl
  | cons e rest =>
    rw [render, List.isEmpty_cons, if_neg Bool.false_ne_true]
    cases reduce (e :: rest) with
    | error => rfl
    | ok reduced =>
      change Except.ok _ = Except.ok _
      rw [htake]
      beta_reduce
      by_cases hlast : tokens.length - 1 ≤ last
      · rw [if_pos (Nat.min_eq_right hlast), if_pos hlast]
      · rw [if_neg (by omega), if_neg hlast, String.append_empty]

end Lookahead.Edit
