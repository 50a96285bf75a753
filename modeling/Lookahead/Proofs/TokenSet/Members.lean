import Mathlib.Data.Finset.Card
import Mathlib.Data.Finset.Union
import Mathlib.Data.List.Sort
import Lookahead.Proofs.TokenSet
import Lookahead.TokenSet.Pass

/-!
# Token sets are sets of numbers

A set is known by its members (`members`), and each operation does to them what it says.  So a set
that has come about in whatever way, which is a `History`, is read as what the same history comes to
for sets of numbers (`set_refines`).  Neither its width nor the words that are zero are seen.

A pass goes through a word by taking off its lowest bit, which leaves the other bits alone
(`getLsbD_and_sub_one`).  What is left of the pass (`Pass.left`) loses its first position in each
step, and so the pass delivers the positions in ascending order and comes to an end.
-/

namespace Lookahead.TokenSet

variable {s t : TokenSet} {n : Nat}

/-! ## Members -/

/-- The positions of the set, as a finite set of numbers. -/
def members (s : TokenSet) : Finset Nat := s.toList.toFinset

@[simp] lemma mem_members : n ∈ s.members ↔ s.test n = true := by
  rw [members, List.mem_toFinset, mem_toList]

lemma pairwise_wordMembers (w : BitVec 64) : (wordMembers w).Pairwise (· < ·) := by
  unfold wordMembers
  split
  · exact .nil
  · exact List.pairwise_lt_range.filter _

/-- The positions of some words, the first of which has the number `i`. -/
def membersFrom (i : Nat) (words : List (BitVec 64)) : List Nat :=
  (words.zipIdx i).flatMap fun (w, i) => (wordMembers w).map (64 * i + ·)

lemma membersFrom_cons (i : Nat) (w : BitVec 64) (words : List (BitVec 64)) :
    membersFrom i (w :: words) = (wordMembers w).map (64 * i + ·) ++ membersFrom (i + 1) words := by
  rw [membersFrom, List.zipIdx_cons, List.flatMap_cons, membersFrom]

/-- The positions of words come in ascending order, and not in front of the first word. -/
lemma ascending_membersFrom (i : Nat) (words : List (BitVec 64)) :
    (membersFrom i words).Pairwise (· < ·) ∧ ∀ n ∈ membersFrom i words, 64 * i ≤ n := by
  induction words generalizing i with
  | nil => simp [membersFrom]
  | cons w rest ih =>
    obtain ⟨hrest, hbehind⟩ := ih (i + 1)
    have hword : ∀ n ∈ (wordMembers w).map (64 * i + ·), 64 * i ≤ n ∧ n < 64 * (i + 1) := by
      intro n hn
      obtain ⟨m, hm, rfl⟩ := List.mem_map.1 hn
      have hlt : m < 64 := BitVec.lt_of_getLsbD (mem_wordMembers.1 hm)
      omega
    rw [membersFrom_cons, List.pairwise_append, List.forall_mem_append]
    refine ⟨⟨?_, hrest, fun n hn m hm => ?_⟩, fun n hn => (hword n hn).1, fun n hn => ?_⟩
    · exact (pairwise_wordMembers w).map _ fun _ _ h => Nat.add_lt_add_left h _
    · exact Nat.lt_of_lt_of_le (hword n hn).2 (hbehind m hm)
    · have := hbehind n hn
      omega

lemma pairwise_toList (s : TokenSet) : s.toList.Pairwise (· < ·) :=
  (ascending_membersFrom 0 s.words.toList).1

lemma length_toList (s : TokenSet) : s.toList.length = s.count := by
  have hlength (i : Nat) (words : List (BitVec 64)) : (membersFrom i words).length =
      words.foldr (fun w n => (wordMembers w).length + n) 0 := by
    induction words generalizing i with
    | nil => rfl
    | cons w rest ih =>
      rw [membersFrom_cons, List.length_append, List.length_map, ih, List.foldr_cons]
  exact hlength 0 s.words.toList

lemma count_eq_card (s : TokenSet) : s.count = s.members.card := by
  have hnodup : s.toList.Nodup := (pairwise_toList s).imp Nat.ne_of_lt
  rw [members, List.toFinset_card_of_nodup hnodup, length_toList]

/-! ## Passes -/

/-- A number is `2 ^ (k + 1) * m + 2 ^ k`, where `k` is its lowest bit. -/
lemma eq_of_lowest_bit {x k : Nat} (hk : x.testBit k = true) (hlow : ∀ j < k, x.testBit j = false) :
    ∃ m, x = 2 ^ (k + 1) * m + 2 ^ k := by
  have hmod : x % 2 ^ k = 0 := by
    refine Nat.eq_of_testBit_eq fun j => ?_
    rw [Nat.testBit_mod_two_pow, Nat.zero_testBit]
    by_cases hj : j < k
    · rw [hlow j hj, Bool.and_false]
    · rw [decide_eq_false hj, Bool.false_and]
  have hodd : x / 2 ^ k % 2 = 1 := by
    rw [← Nat.zero_add k, ← Nat.testBit_div_two_pow, Nat.testBit_zero] at hk
    exact of_decide_eq_true hk
  refine ⟨x / 2 ^ k / 2, ?_⟩
  have hx : x = 2 ^ k * (x / 2 ^ k) := (Nat.mul_div_cancel' (Nat.dvd_of_mod_eq_zero hmod)).symm
  have hq : x / 2 ^ k = 2 * (x / 2 ^ k / 2) + 1 := by omega
  calc x = 2 ^ k * (2 * (x / 2 ^ k / 2) + 1) := by rw [← hq]; exact hx
    _ = 2 ^ (k + 1) * (x / 2 ^ k / 2) + 2 ^ k := by rw [Nat.mul_succ, ← Nat.mul_assoc, Nat.pow_succ]

/-- A number without its lowest bit has its other bits. -/
lemma testBit_and_pred {x k : Nat} (hk : x.testBit k = true) (hlow : ∀ j < k, x.testBit j = false)
    (j : Nat) : (x &&& (x - 1)).testBit j = (x.testBit j && decide (j ≠ k)) := by
  obtain ⟨m, rfl⟩ := eq_of_lowest_bit hk hlow
  have hlt : 2 ^ k < 2 ^ (k + 1) := Nat.pow_lt_pow_right (by decide) (Nat.lt_succ_self k)
  have hpos : 0 < 2 ^ k := Nat.two_pow_pos k
  rw [Nat.add_sub_assoc hpos, Nat.testBit_and, Nat.testBit_two_pow_mul_add m hlt,
    Nat.testBit_two_pow_mul_add m (by omega)]
  by_cases hj : j < k + 1
  · rw [if_pos hj, if_pos hj, Nat.testBit_two_pow, Nat.testBit_two_pow_sub_one]
    by_cases hjk : k = j
    · simp [hjk]
    · simp [hjk]
  · have hne : j ≠ k := by omega
    rw [if_neg hj, if_neg hj, Bool.and_self, decide_eq_true hne, Bool.and_true]

/-- Taking the lowest bit off a word leaves the other ones. -/
lemma getLsbD_and_sub_one {w : BitVec 64} (h : w ≠ 0) (j : Nat) :
    (w &&& (w - 1)).getLsbD j = (w.getLsbD j && decide (j ≠ w.ctz.toNat)) := by
  have hpred : (w - 1).toNat = w.toNat - 1 := by
    have hpos := BitVec.toNat_ne.1 h
    simp only [BitVec.ofNat_eq_ofNat, BitVec.toNat_ofNat, Nat.zero_mod] at hpos
    bv_omega
  have hbits := testBit_and_pred (x := w.toNat) (BitVec.getLsbD_true_ctz_of_ne_zero h)
    (fun j hj => BitVec.getLsbD_false_of_lt_ctz hj) j
  rwa [← hpred, ← BitVec.toNat_and] at hbits

/-- The lowest position of a word comes first, and the others are those of the word without it. -/
lemma wordMembers_eq_cons {w : BitVec 64} (h : w ≠ 0) :
    wordMembers w = w.ctz.toNat :: wordMembers (w &&& (w - 1)) := by
  refine List.Pairwise.eq_of_mem_iff (pairwise_wordMembers w) ?_ fun n => ?_
  · refine .cons (fun n hn => ?_) (pairwise_wordMembers _)
    rw [mem_wordMembers, getLsbD_and_sub_one h, Bool.and_eq_true, decide_eq_true_iff] at hn
    refine Nat.lt_of_le_of_ne (Nat.le_of_not_lt fun hlt => ?_) hn.2.symm
    rw [BitVec.getLsbD_false_of_lt_ctz hlt] at hn
    cases hn.1
  · rw [List.mem_cons, mem_wordMembers, mem_wordMembers, getLsbD_and_sub_one h, Bool.and_eq_true,
      decide_eq_true_iff]
    constructor
    · intro hn
      exact (em (n = w.ctz.toNat)).imp id fun hne => ⟨hn, hne⟩
    · rintro (rfl | ⟨hn, -⟩)
      · exact BitVec.getLsbD_true_ctz_of_ne_zero h
      · exact hn

namespace Pass

/-- The positions that the pass has not delivered. -/
def left (p : Pass) : List Nat :=
  (wordMembers p.pending).map (64 * p.place + ·) ++
    membersFrom (p.place + 1) (p.words.toList.drop (p.place + 1))

/-- A step delivers the first position that is left. -/
lemma next_spec (p : Pass) : p.next.1 = p.left.head? ∧ p.next.2.left = p.left.tail := by
  fun_induction next p with
  | case1 p hpending hlt ih =>
    have hleft : p.left = membersFrom (p.place + 1) (p.words.toList.drop (p.place + 1)) := by
      rw [left, hpending]
      rfl
    have hdrop : p.words.toList.drop (p.place + 1) =
        p.words[p.place + 1] :: p.words.toList.drop (p.place + 1 + 1) :=
      List.drop_eq_getElem_cons _
    rw [hleft, hdrop, membersFrom_cons]
    exact ih
  | case2 p hpending hle =>
    have hdrop (i : Nat) (hi : p.place + 1 ≤ i) : p.words.toList.drop i = [] :=
      List.drop_eq_nil_of_le (by rw [Array.length_toList]; omega)
    simp [left, hpending, wordMembers, hdrop, membersFrom]
  | case3 p hpending =>
    rw [left, wordMembers_eq_cons hpending]
    exact ⟨rfl, rfl⟩

/-- The pass delivers some positions one by one, and then ends. -/
inductive Delivers : Pass → List Nat → Prop
  | done {p : Pass} (h : p.next.1 = none) : Delivers p []
  | more {p : Pass} {n : Nat} {ns : List Nat} (h : p.next.1 = some n)
      (rest : Delivers p.next.2 ns) : Delivers p (n :: ns)

/-- A pass delivers what is left of it. -/
lemma delivers_left (p : Pass) : p.Delivers p.left := by
  obtain ⟨ns, hleft⟩ : ∃ ns, p.left = ns := ⟨_, rfl⟩
  rw [hleft]
  induction ns generalizing p with
  | nil => exact .done ((next_spec p).1.trans (congrArg List.head? hleft))
  | cons n rest ih =>
    refine .more ((next_spec p).1.trans (congrArg List.head? hleft)) (ih _ ?_)
    rw [(next_spec p).2, hleft, List.tail_cons]

end Pass

lemma delivers_toList (s : TokenSet) : s.pass.Delivers s.toList := by
  have hleft : s.pass.left = s.toList := by
    show (wordMembers (s.word 0)).map (64 * 0 + ·) ++ membersFrom 1 (s.words.toList.drop 1) =
      membersFrom 0 s.words.toList
    rw [word, Array.getD_eq_getD_getElem?, ← Array.getElem?_toList]
    cases s.words.toList with
    | nil => rfl
    | cons w rest => rw [membersFrom_cons]; rfl
  rw [← hleft]
  exact Pass.delivers_left _

/-! ## Sets with the same members -/

lemma sameAs_iff_members : s.sameAs t = true ↔ s.members = t.members := by
  rw [sameAs_iff, Finset.ext_iff]
  simp only [mem_members, ← Bool.eq_iff_iff]
  constructor
  · intro h n
    rw [← has_typeAt, h, has_typeAt]
  · intro h x
    unfold has
    cases slot x with
    | none => rfl
    | some n => exact h n

/-- The last word of the key is not zero. -/
lemma getLast?_key_ne (s : TokenSet) : s.key.getLast? ≠ some 0 := by
  rw [key, List.getLast?_reverse]
  intro h
  have hnot := List.head?_dropWhile_not (· == (0 : BitVec 64)) s.words.toList.reverse
  rw [h] at hnot
  cases hnot

lemma getElem?_key {i : Nat} (h : i < s.key.length) : s.key[i]? = some (s.word i) := by
  obtain ⟨k, hk⟩ := s.words_eq_key_append
  rw [word, Array.getD_eq_getD_getElem?, ← Array.getElem?_toList, hk, List.getElem?_append_left h,
    List.getElem?_eq_getElem h, Option.getD_some]

/-- A key is no longer than that of a set with the same words. -/
lemma key_length_le (h : ∀ i, s.word i = t.word i) : s.key.length ≤ t.key.length := by
  by_contra hlt
  have hlast : s.key.length - 1 < s.key.length := by omega
  have hzero := t.word_eq_zero_of_key_length_le (show t.key.length ≤ s.key.length - 1 by omega)
  apply s.getLast?_key_ne
  rw [List.getLast?_eq_getElem?, getElem?_key hlast, h, hzero]

lemma members_eq_iff : s.members = t.members ↔ ∀ i, s.word i = t.word i := by
  simp only [Finset.ext_iff, mem_members, ← Bool.eq_iff_iff]
  constructor
  · intro h i
    refine BitVec.eq_of_getLsbD_eq fun j hj => ?_
    have htest := h (64 * i + j)
    have hdiv : (64 * i + j) / 64 = i := by omega
    have hmod : (64 * i + j) % 64 = j := by omega
    rwa [test, test, hdiv, hmod] at htest
  · exact fun h n => by rw [test, test, h]

/-- The key is the same for sets with the same members. -/
lemma key_eq_iff : s.key = t.key ↔ s.members = t.members := by
  rw [members_eq_iff]
  constructor
  · intro h i
    by_cases hi : i < s.key.length
    · exact Option.some.inj ((getElem?_key hi).symm.trans (h ▸ getElem?_key (h ▸ hi)))
    · have hle := Nat.not_lt.1 hi
      rw [s.word_eq_zero_of_key_length_le hle, t.word_eq_zero_of_key_length_le (h ▸ hle)]
  · intro h
    have hlength := Nat.le_antisymm (key_length_le h) (key_length_le fun i => (h i).symm)
    refine List.ext_getElem? fun i => ?_
    by_cases hi : i < s.key.length
    · rw [getElem?_key hi, getElem?_key (hlength ▸ hi), h]
    · have hle := Nat.not_lt.1 hi
      rw [List.getElem?_eq_none hle, List.getElem?_eq_none (hlength ▸ hle)]

/-! ## Readings -/

lemma position_of_neg {bit : Int} (h : bit < 0) : position bit = .error (.negativeBit bit) :=
  if_pos h

lemma position_of_nonneg {bit : Int} (h : ¬ bit < 0) : position bit = .ok bit.toNat := if_neg h

/-- The position of a token type, if it has one. -/
def positionsOf (x : TokenType) : Finset Nat :=
  if x = .eof then {0} else if 0 < x then {x.toNat} else ∅

lemma mem_positionsOf {x : TokenType} : n ∈ positionsOf x ↔ slot x = some n := by
  unfold positionsOf slot
  split
  · simp [eq_comm]
  · by_cases hx : 0 < x
    · rw [if_pos hx, if_neg (Int.not_le.2 hx), Finset.mem_singleton, Option.some.injEq, eq_comm]
    · rw [if_neg hx, if_pos (Int.not_lt.1 hx)]
      simp

/-- What can be read of the set is what holds of the numbers. -/
structure Shows (s : TokenSet) (m : Finset Nat) : Prop where
  testBit : ∀ bit, s.testBit bit =
    if bit < 0 then .error (.negativeBit bit) else .ok (decide (bit.toNat ∈ m))
  has : ∀ x, s.has x = true ↔ ∃ n ∈ positionsOf x, n ∈ m
  count : s.count = m.card
  isNil : s.isNil = true ↔ m = ∅
  /-- A pass delivers the numbers in ascending order, each of them once, and ends. -/
  pass : ∃ ns, s.pass.Delivers ns ∧ ns.Pairwise (· < ·) ∧ ∀ n, n ∈ ns ↔ n ∈ m

lemma shows_members (s : TokenSet) : s.Shows s.members where
  testBit bit := by
    by_cases hbit : bit < 0
    · rw [testBit, position_of_neg hbit, if_pos hbit]
      rfl
    · rw [testBit, position_of_nonneg hbit, if_neg hbit]
      simp [Except.map]
  has x := by simp only [has_eq_true_iff, mem_positionsOf, mem_members]
  count := s.count_eq_card
  isNil := by
    rw [isNil_iff, Finset.eq_empty_iff_forall_notMem]
    simp only [mem_members, Bool.not_eq_true]
    constructor
    · intro h n
      rw [← has_typeAt]
      exact h _
    · intro h x
      unfold has
      cases slot x with
      | none => rfl
      | some n => exact h n
  pass := ⟨s.toList, s.delivers_toList, s.pairwise_toList, fun _ => List.mem_toFinset.symm⟩

/-- Types listed and put back make the same set. -/
lemma sameAs_ofTypes_types (s : TokenSet) : (ofTypes s.types).sameAs s = true := by
  refine sameAs_iff.2 fun x => Bool.eq_iff_iff.2 ?_
  rw [has_ofTypes, mem_types, and_iff_left_iff_imp]
  intro h
  obtain ⟨n, hn, -⟩ := has_eq_true_iff.1 h
  rw [hn, Option.isSome_some]

/-! ## Widths -/

lemma size_insert (s : TokenSet) (n : Nat) : (s.insert n).size = max s.size (wordsFor (n + 1)) := by
  rw [← size_growTo, size, size, insert, Array.size_modify]

@[simp] lemma size_erase (s : TokenSet) (n : Nat) : (s.erase n).size = s.size := by
  rw [size, erase, Array.size_modify, size]

lemma size_le_union (s t : TokenSet) : s.size ≤ (s.union t).size := by
  have hunion : (s.union t).size = (s.growTo (64 * t.key.length)).size := Array.size_mapIdx
  rw [hunion, size_growTo]
  exact Nat.le_max_left _ _

@[simp] lemma size_eraseType (s : TokenSet) (x : TokenType) : (s.eraseType x).size = s.size := by
  unfold eraseType
  split
  · exact size_erase s _
  · rfl

lemma size_le_insertType (s : TokenSet) (x : TokenType) : s.size ≤ (s.insertType x).size := by
  unfold insertType
  split
  · rw [size_insert]
    exact Nat.le_max_left _ _
  · exact Nat.le_refl _

/-! ## Histories of sets -/

/-- How a set came about: which constructor made it, and what was done to it since. -/
inductive History where
  | ofWidth (bits : Nat)
  | bare
  /-- From words, however many of the last ones are zero. -/
  | ofWords (words : Array (BitVec 64))
  | ofTypes (ts : List TokenType)
  | insertBit (h : History) (bit : Int)
  | eraseBit (h : History) (bit : Int)
  | insertType (h : History) (t : TokenType)
  | eraseType (h : History) (t : TokenType)
  /-- With the positions of a second set. -/
  | union (h h' : History)
  | growTo (h : History) (bits : Nat)
  | copy (h : History)

namespace History

/-- The set that the history makes. It is left as it is by what is refused. -/
def set : History → TokenSet
  | ofWidth bits => .ofWidth bits
  | bare => .bare
  | ofWords words => ⟨words⟩
  | ofTypes ts => .ofTypes ts
  | insertBit h bit => (h.set.insertBit bit).toOption.getD h.set
  | eraseBit h bit => (h.set.eraseBit bit).toOption.getD h.set
  | insertType h t => h.set.insertType t
  | eraseType h t => h.set.eraseType t
  | union h h' => h.set.union h'.set
  | growTo h bits => h.set.growTo bits
  | copy h => h.set

/-- What the history comes to for finite sets of numbers, by the operations that these have. -/
def meaning : History → Finset Nat
  | ofWidth _ | bare => ∅
  | ofWords words => (Finset.range (64 * words.size)).filter fun n =>
      (words.getD (n / 64) 0).getLsbD (n % 64) = true
  | ofTypes ts => ts.toFinset.biUnion positionsOf
  | insertBit h bit => if bit < 0 then h.meaning else h.meaning ∪ {bit.toNat}
  | eraseBit h bit => if bit < 0 then h.meaning else h.meaning \ {bit.toNat}
  | insertType h t => h.meaning ∪ positionsOf t
  | eraseType h t => h.meaning \ positionsOf t
  | union h h' => h.meaning ∪ h'.meaning
  | growTo h _ | copy h => h.meaning

end History

/-! ### One step -/

lemma positionsOf_of_slot {x : TokenType} (h : slot x = some n) : positionsOf x = {n} := by
  ext m
  rw [mem_positionsOf, h, Option.some.injEq, Finset.mem_singleton, eq_comm]

lemma positionsOf_of_slot_none {x : TokenType} (h : slot x = none) : positionsOf x = ∅ := by
  ext m
  simp [mem_positionsOf, h]

lemma members_insert (s : TokenSet) (n : Nat) : (s.insert n).members = s.members ∪ {n} := by
  ext m
  simp only [mem_members, test_insert, Finset.mem_union, Finset.mem_singleton, Bool.or_eq_true,
    decide_eq_true_iff]

lemma members_erase (s : TokenSet) (n : Nat) : (s.erase n).members = s.members \ {n} := by
  ext m
  simp [test_erase]

lemma members_union (s t : TokenSet) : (s.union t).members = s.members ∪ t.members := by
  ext m
  simp [test_union]

lemma members_insertType (s : TokenSet) (x : TokenType) :
    (s.insertType x).members = s.members ∪ positionsOf x := by
  unfold insertType
  cases hx : slot x with
  | none => rw [positionsOf_of_slot_none hx, Finset.union_empty]
  | some n => rw [positionsOf_of_slot hx, members_insert]

lemma members_eraseType (s : TokenSet) (x : TokenType) :
    (s.eraseType x).members = s.members \ positionsOf x := by
  unfold eraseType
  cases hx : slot x with
  | none => rw [positionsOf_of_slot_none hx, Finset.sdiff_empty]
  | some n => rw [positionsOf_of_slot hx, members_erase]

lemma members_ofTypes (ts : List TokenType) :
    (ofTypes ts).members = ts.toFinset.biUnion positionsOf := by
  have hfold (s : TokenSet) : (ts.foldl insertType s).members =
      s.members ∪ ts.toFinset.biUnion positionsOf := by
    induction ts generalizing s with
    | nil => simp
    | cons x rest ih =>
      rw [List.foldl_cons, ih, members_insertType, List.toFinset_cons, Finset.biUnion_insert,
        Finset.union_assoc]
  rw [ofTypes, hfold]
  ext m
  simp

lemma members_ofWords (words : Array (BitVec 64)) : (⟨words⟩ : TokenSet).members =
    (Finset.range (64 * words.size)).filter fun n =>
      (words.getD (n / 64) 0).getLsbD (n % 64) = true := by
  ext n
  rw [mem_members, Finset.mem_filter, Finset.mem_range, test, word, iff_and_self]
  intro h
  by_contra hle
  have hout : words.size ≤ n / 64 := by omega
  rw [Array.getD_eq_getD_getElem?, Array.getElem?_eq_none hout] at h
  simp at h

/-! ### Any number of steps -/

namespace History

/-- After any history the members of the set are what the history comes to. -/
lemma members_set (h : History) : h.set.members = h.meaning := by
  induction h with
  | ofWidth bits =>
    ext n
    simp [set, meaning]
  | bare =>
    ext n
    simp [set, meaning]
  | ofWords words => exact members_ofWords words
  | ofTypes ts => exact members_ofTypes ts
  | insertBit h bit ih =>
    by_cases hbit : bit < 0
    · rw [set, meaning, if_pos hbit, TokenSet.insertBit, position_of_neg hbit, ← ih]
      rfl
    · rw [set, meaning, if_neg hbit, TokenSet.insertBit, position_of_nonneg hbit, ← ih]
      exact members_insert _ _
  | eraseBit h bit ih =>
    by_cases hbit : bit < 0
    · rw [set, meaning, if_pos hbit, TokenSet.eraseBit, position_of_neg hbit, ← ih]
      rfl
    · rw [set, meaning, if_neg hbit, TokenSet.eraseBit, position_of_nonneg hbit, ← ih]
      exact members_erase _ _
  | insertType h t ih => rw [set, members_insertType, ih, meaning]
  | eraseType h t ih => rw [set, members_eraseType, ih, meaning]
  | union h h' ih ih' => rw [set, members_union, ih, ih', meaning]
  | growTo h bits ih =>
    rw [meaning, ← ih]
    ext n
    simp [set]
  | copy h ih => exact ih

/-- The set to which the last step was done, if that was not the making of one. -/
def before : History → Option History
  | insertBit h _ | eraseBit h _ | insertType h _ | eraseType h _ | union h _ | growTo h _
  | copy h => some h
  | ofWidth _ | bare | ofWords _ | ofTypes _ => none

lemma size_eraseBit (h : History) (bit : Int) : (h.eraseBit bit).set.size = h.set.size := by
  by_cases hbit : bit < 0
  · rw [set, TokenSet.eraseBit, position_of_neg hbit]
    rfl
  · rw [set, TokenSet.eraseBit, position_of_nonneg hbit]
    exact size_erase _ _

/-- No step makes a set narrower. -/
lemma size_le_of_before {h h' : History} (hbefore : h'.before = some h) :
    h.set.size ≤ h'.set.size := by
  cases h' with
  | ofWidth | bare | ofWords | ofTypes => cases hbefore
  | insertBit g bit =>
    obtain rfl := Option.some.inj hbefore
    by_cases hbit : bit < 0
    · rw [set, TokenSet.insertBit, position_of_neg hbit]
      exact Nat.le_refl _
    · rw [set, TokenSet.insertBit, position_of_nonneg hbit]
      exact (Nat.le_max_left _ _).trans_eq (size_insert _ _).symm
  | eraseBit g bit =>
    obtain rfl := Option.some.inj hbefore
    exact (size_eraseBit _ bit).ge
  | insertType g x =>
    obtain rfl := Option.some.inj hbefore
    exact size_le_insertType _ x
  | eraseType g x =>
    obtain rfl := Option.some.inj hbefore
    exact (size_eraseType _ x).ge
  | union g g' =>
    obtain rfl := Option.some.inj hbefore
    exact size_le_union _ _
  | growTo g bits =>
    obtain rfl := Option.some.inj hbefore
    exact (Nat.le_max_left _ _).trans_eq (size_growTo _ bits).symm
  | copy g =>
    obtain rfl := Option.some.inj hbefore
    exact Nat.le_refl _

/-- **Token sets are finite sets of numbers.**  A history is what was done to make a set: any of
the constructors, and any operations on sets that have a history, refused ones included.

Whatever was done to a set, its members are what the same steps make of a set of numbers, and
nothing else can be read of it: its tests, its count, the comparison with another set and its
key do not depend on the width.  A step refuses nothing but a negative position.  The width
never shrinks, and stays as it is where positions are taken away.  Listing the types of a set
and putting them back gives the same set, as long as its members fit a token type of 32 bits. -/
theorem set_refines :
    (∀ h : History, h.set.members = h.meaning ∧ h.set.Shows h.meaning) ∧
    (∀ h h' : History, (h.set.sameAs h'.set = true ↔ h.meaning = h'.meaning) ∧
      (h.set.key = h'.set.key ↔ h.meaning = h'.meaning)) ∧
    (∀ (h : History) (bit : Int),
      h.set.insertBit bit =
        (if bit < 0 then .error (.negativeBit bit) else .ok (h.insertBit bit).set) ∧
      h.set.eraseBit bit =
        if bit < 0 then .error (.negativeBit bit) else .ok (h.eraseBit bit).set) ∧
    (∀ h h' : History, h'.before = some h → h.set.size ≤ h'.set.size) ∧
    (∀ h : History, (∀ bit, (h.eraseBit bit).set.size = h.set.size) ∧
      ∀ x, (h.eraseType x).set.size = h.set.size) ∧
    ∀ h : History, (∀ n ∈ h.meaning, n < 2 ^ 31) →
      (∀ x ∈ h.set.types, -2 ^ 31 ≤ x ∧ x < 2 ^ 31) ∧
        (TokenSet.ofTypes h.set.types).sameAs h.set = true := by
  refine ⟨fun h => ⟨h.members_set, h.members_set ▸ h.set.shows_members⟩, fun h h' => ?_,
    fun h bit => ?_, fun h h' => size_le_of_before,
    fun h => ⟨h.size_eraseBit, fun x => size_eraseType _ x⟩, fun h hfit => ?_⟩
  · rw [← h.members_set, ← h'.members_set]
    exact ⟨sameAs_iff_members, key_eq_iff⟩
  · by_cases hbit : bit < 0
    · simp only [TokenSet.insertBit, TokenSet.eraseBit, position_of_neg hbit, if_pos hbit]
      exact ⟨rfl, rfl⟩
    · simp only [TokenSet.insertBit, TokenSet.eraseBit, position_of_nonneg hbit, if_neg hbit, set]
      exact ⟨rfl, rfl⟩
  · refine ⟨fun x hx => ?_, sameAs_ofTypes_types _⟩
    obtain ⟨n, hn, rfl⟩ := List.mem_map.1 hx
    have hlt := hfit n (by rw [← h.members_set]; exact List.mem_toFinset.2 hn)
    unfold typeAt
    split
    · decide
    · show (-2 ^ 31 : Int) ≤ (n : Int) ∧ (n : Int) < 2 ^ 31
      omega

/-- The end of input and type 70, behind words that are zero; position 130 came and went. -/
def wide : History :=
  ((((ofWords #[0, 0]).insertType .eof).insertType 70).insertBit 130).eraseBit 130

/-- Its width shows what was there, and its types give it back. -/
theorem set_refines_wide : wide.set.size ≤ wide.copy.set.size ∧
    (TokenSet.ofTypes wide.set.types).sameAs wide.set = true := by
  obtain ⟨-, -, -, hwidth, -, htypes⟩ := set_refines
  have hmeaning : wide.meaning = {0, 70} := by decide
  refine ⟨hwidth wide wide.copy rfl, (htypes wide ?_).2⟩
  rw [hmeaning]
  decide

/-- The set still has three words, which the set of its types does not. -/
example : wide.set.size = 3 ∧ (TokenSet.ofTypes wide.set.types).size = 2 := by decide

end History

end Lookahead.TokenSet
