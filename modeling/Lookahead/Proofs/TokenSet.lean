import Lookahead.TokenSet
import Mathlib.Data.List.Basic

/-!
# The types of a token set

`TokenSet.test` is about positions.  Grammars speak of token types, and of those that have a
position each has its own (`slot_typeAt`, `typeAt_of_slot`).  So what the operations do to `test`
they do to `has`, and `types` lists the types that the set has.
-/

namespace Lookahead.TokenSet

variable {s t : TokenSet} {n : Nat} {x y : TokenType}

/-! ## Positions and types -/

lemma slot_typeAt (n : Nat) : slot (typeAt n) = some n := by
  unfold typeAt
  split
  · rename_i h
    rw [h]
    rfl
  · rename_i h
    have hne : (n : Int) ≠ -1 := by omega
    have hpos : ¬ (n : Int) ≤ 0 := by omega
    exact (if_neg hne).trans (if_neg hpos)

lemma typeAt_of_slot (h : slot x = some n) : typeAt n = x := by
  unfold slot at h
  split at h
  · rename_i heof
    obtain rfl := Option.some.inj h
    exact heof.symm
  · obtain ⟨hpos, h⟩ := Option.ite_none_left_eq_some.1 h
    obtain rfl := Option.some.inj h
    have hlt : 0 < x := Int.not_le.1 hpos
    have hne : x.toNat ≠ 0 := fun h => absurd (Int.toNat_eq_zero.1 h) hpos
    rw [typeAt, if_neg hne]
    exact Int.toNat_of_nonneg (Int.le_of_lt hlt)

lemma has_eq_true_iff : s.has x = true ↔ ∃ n, slot x = some n ∧ s.test n = true := by
  unfold has
  cases slot x <;> simp

lemma has_typeAt (s : TokenSet) (n : Nat) : s.has (typeAt n) = s.test n := by
  rw [has, slot_typeAt]

@[simp] lemma has_ofWidth (bits : Nat) (x : TokenType) : (ofWidth bits).has x = false := by
  unfold has
  cases slot x <;> simp

lemma has_union (s t : TokenSet) (x : TokenType) : (s.union t).has x = (s.has x || t.has x) := by
  unfold has
  cases slot x with
  | none => rfl
  | some n => exact test_union s t n

lemma has_eraseType (s : TokenSet) (x y : TokenType) :
    (s.eraseType y).has x = (s.has x && decide (x ≠ y)) := by
  unfold has eraseType
  cases hx : slot x with
  | none => rfl
  | some n =>
    have hne : slot y = some n ↔ x = y := by
      constructor
      · intro hy
        rw [← typeAt_of_slot hx, typeAt_of_slot hy]
      · rintro rfl
        exact hx
    cases hy : slot y with
    | none =>
      have hxy : x ≠ y := fun h => by simp [hne.2 h] at hy
      simp [hxy]
    | some m =>
      have hmn : n = m ↔ x = y := by
        rw [← hne, hy, Option.some.injEq]
        exact eq_comm
      simp [test_erase, hmn]

/-- The types that have a position. -/
lemma isSome_slot : (slot x).isSome = true ↔ x = .eof ∨ 1 ≤ x := by
  unfold slot
  split
  · rename_i heof
    simp [heof]
  · rename_i heof
    split
    · rename_i hle
      have hlow : ¬ 1 ≤ x := fun h => absurd (Int.le_trans h hle) (by decide)
      simp [heof, hlow]
    · rename_i hlt
      have hlow : 1 ≤ x := Int.not_le.1 hlt
      simp [hlow]

lemma has_insertType (s : TokenSet) (x y : TokenType) :
    (s.insertType y).has x = true ↔ s.has x = true ∨ x = y ∧ (slot x).isSome = true := by
  cases hy : slot y with
  | none =>
    have hne : ¬ (x = y ∧ (slot x).isSome = true) := by
      rintro ⟨rfl, hx⟩
      simp [hy] at hx
    rw [insertType, hy]
    simp [hne]
  | some m =>
    rw [insertType, hy]
    cases hx : slot x with
    | none => simp [has, hx]
    | some n =>
      have hmn : n = m ↔ x = y := by
        constructor
        · rintro rfl
          rw [← typeAt_of_slot hx, typeAt_of_slot hy]
        · rintro rfl
          exact Option.some.inj (hx.symm.trans hy)
      simp [has, hx, test_insert, hmn]

/-- The set of some types has those of them that have a position. -/
lemma has_ofTypes {ts : List TokenType} :
    (ofTypes ts).has x = true ↔ x ∈ ts ∧ (slot x).isSome = true := by
  have hfold (s : TokenSet) : (ts.foldl insertType s).has x = true ↔
      s.has x = true ∨ x ∈ ts ∧ (slot x).isSome = true := by
    induction ts generalizing s with
    | nil => simp
    | cons t rest ih =>
      rw [List.foldl_cons, ih, has_insertType, List.mem_cons, or_assoc, ← or_and_right]
  rw [ofTypes, hfold, has_ofWidth]
  simp

/-! ## Members -/

lemma mem_wordMembers {w : BitVec 64} : n ∈ wordMembers w ↔ w.getLsbD n = true := by
  unfold wordMembers
  split
  · rename_i hzero
    simp [eq_of_beq hzero]
  · rw [List.mem_filter, List.mem_range, and_iff_right_iff_imp]
    exact BitVec.lt_of_getLsbD

/-- The members of the set are the members of its words, each moved to where the word begins. -/
lemma mem_toList : n ∈ s.toList ↔ s.test n = true := by
  rw [toList, List.mem_flatMap]
  constructor
  · rintro ⟨⟨w, i⟩, hw, hn⟩
    obtain ⟨m, hm, rfl⟩ := List.mem_map.1 hn
    have hbit := mem_wordMembers.1 hm
    have hlt : m < 64 := BitVec.lt_of_getLsbD hbit
    have hword : s.words[i]? = some w := by
      simpa using List.mk_mem_zipIdx_iff_getElem?.1 hw
    have hdiv : (64 * i + m) / 64 = i := by omega
    have hmod : (64 * i + m) % 64 = m := by omega
    rw [test, word, Array.getD_eq_getD_getElem?, hdiv, hmod, hword]
    exact hbit
  · intro h
    have hdiv := Nat.div_add_mod n 64
    rw [test, word, Array.getD_eq_getD_getElem?] at h
    cases hword : s.words[n / 64]? with
    | none => simp [hword] at h
    | some w =>
      rw [hword] at h
      refine ⟨(w, n / 64), List.mk_mem_zipIdx_iff_getElem?.2 (by simpa using hword), ?_⟩
      exact List.mem_map.2 ⟨n % 64, mem_wordMembers.2 h, hdiv⟩

lemma mem_types : x ∈ s.types ↔ s.has x = true := by
  rw [types, List.mem_map]
  constructor
  · rintro ⟨n, hn, rfl⟩
    rw [has_typeAt]
    exact mem_toList.1 hn
  · intro h
    obtain ⟨n, hslot, htest⟩ := has_eq_true_iff.1 h
    exact ⟨n, mem_toList.2 htest, typeAt_of_slot hslot⟩

/-- A set without words that are not zero has no types. -/
lemma isNil_iff : s.isNil = true ↔ ∀ x, s.has x = false := by
  have hzero : s.isNil = true ↔ ∀ n, s.test n = false := by
    rw [isNil, Array.all_eq_true']
    constructor
    · intro h n
      rw [test, word, Array.getD_eq_getD_getElem?]
      cases hword : s.words[n / 64]? with
      | none => simp
      | some w =>
        have hw : w = 0 := eq_of_beq (h w (Array.mem_of_getElem? hword))
        simp [hw]
    · intro h w hw
      obtain ⟨i, hi, rfl⟩ := Array.mem_iff_getElem.1 hw
      refine beq_iff_eq.2 (BitVec.eq_of_getLsbD_eq fun j hj => ?_)
      have hbit := h (64 * i + j)
      have hdiv : (64 * i + j) / 64 = i := by omega
      have hmod : (64 * i + j) % 64 = j := by omega
      rw [test, word, Array.getD_eq_getD_getElem?, hdiv, hmod, Array.getElem?_eq_getElem hi] at hbit
      simpa using hbit
  rw [hzero]
  constructor
  · intro h x
    unfold has
    cases slot x with
    | none => rfl
    | some n => exact h n
  · intro h n
    rw [← has_typeAt]
    exact h _

/-! ## Sets with the same types -/

/-- Sets that are the same have the same types: past their words there are none. -/
lemma sameAs_iff : s.sameAs t = true ↔ ∀ x, s.has x = t.has x := by
  have hwords : s.sameAs t = true ↔ ∀ i, s.word i = t.word i := by
    simp only [sameAs, List.all_eq_true, List.mem_range, beq_iff_eq, size]
    constructor
    · intro h i
      by_cases hi : i < max s.words.size t.words.size
      · exact h i hi
      · have hs : s.words.size ≤ i := by omega
        have ht : t.words.size ≤ i := by omega
        simp [word, Array.getD_eq_getD_getElem?, Array.getElem?_eq_none hs,
          Array.getElem?_eq_none ht]
    · exact fun h i _ => h i
  rw [hwords]
  constructor
  · intro h x
    unfold has
    cases slot x with
    | none => rfl
    | some n => simp only [test, h]
  · intro h i
    refine BitVec.eq_of_getLsbD_eq fun j hj => ?_
    have htest := h (typeAt (64 * i + j))
    have hdiv : (64 * i + j) / 64 = i := by omega
    have hmod : (64 * i + j) % 64 = j := by omega
    rw [has_typeAt, has_typeAt, test, test, hdiv, hmod] at htest
    exact htest

lemma sameAs_refl (s : TokenSet) : s.sameAs s = true := sameAs_iff.2 fun _ => rfl

lemma sameAs_trans {u : TokenSet} (h : s.sameAs t = true) (h' : t.sameAs u = true) :
    s.sameAs u = true :=
  sameAs_iff.2 fun x => (sameAs_iff.1 h x).trans (sameAs_iff.1 h' x)

lemma sameAs_union {s' t' : TokenSet} (hs : s.sameAs s' = true) (ht : t.sameAs t' = true) :
    (s.union t).sameAs (s'.union t') = true :=
  sameAs_iff.2 fun x => by rw [has_union, has_union, sameAs_iff.1 hs, sameAs_iff.1 ht]

lemma sameAs_eraseType (h : s.sameAs t = true) (y : TokenType) :
    (s.eraseType y).sameAs (t.eraseType y) = true :=
  sameAs_iff.2 fun x => by rw [has_eraseType, has_eraseType, sameAs_iff.1 h]

end Lookahead.TokenSet
