import Lookahead.Text.Source
import Mathlib.Data.List.Induction
import Mathlib.Data.List.TakeWhile

/-!
# Offsets and positions

Where the characters of a text stand, said by the characters in front of them: the byte offset is
the number of their bytes (`byteOffset_eq`), and the position is what they lead to from the start of
the text (`positionAt_eq`).  Byte offsets tell characters apart (`byteOffset_inj`), and a text is
cut at an offset between two of its characters (`cutAt_append`).

The table of lines has one entry for each line that has begun, and the last one is where the current
line starts.  That is the invariant which a text keeps as it grows by one character
(`past_start`).
-/

namespace Lookahead.Text

/-! ## Byte offsets -/

lemma length_le_byteLength (chars : List Char) : chars.length ≤ byteLength chars := by
  induction chars with
  | nil => exact Nat.le_refl 0
  | cons c rest ih =>
    have hc := c.utf8Size_pos
    simp only [List.length_cons, byteLength]
    omega

lemma utf8ByteSize_ofList (chars : List Char) :
    (String.ofList chars).utf8ByteSize = byteLength chars := by
  induction chars with
  | nil => rfl
  | cons c rest ih =>
    rw [String.ofList_cons, String.utf8ByteSize_append, String.utf8ByteSize_singleton, ih,
      byteLength]

lemma cutAt_append (front back : List Char) :
    cutAt (byteLength front) (front ++ back) = some (front, back) := by
  induction front with
  | nil => simp [byteLength, cutAt]
  | cons c rest ih =>
    obtain ⟨n, hn⟩ : ∃ n, byteLength (c :: rest) = n + 1 :=
      Nat.exists_eq_add_one.2 (Nat.lt_of_lt_of_le c.utf8Size_pos (Nat.le_add_right _ _))
    have hle : c.utf8Size ≤ n + 1 := hn ▸ Nat.le_add_right _ _
    have hsub : n + 1 - c.utf8Size = byteLength rest := by
      rw [← hn, byteLength, Nat.add_sub_cancel_left]
    rw [hn, List.cons_append, cutAt, if_pos hle, hsub, ih]
    rfl

lemma between_append (front middle back : List Char) :
    between (front ++ middle ++ back) (byteLength front)
      (byteLength front + byteLength middle) = some middle := by
  have hmiddle := cutAt_append middle back
  rw [List.append_assoc, between, if_neg (Nat.not_lt.2 (Nat.le_add_right _ _)),
    Nat.add_sub_cancel_left, cutAt_append]
  simp [hmiddle]

lemma getElem?_offsetsFrom (offset : Nat) {chars : List Char} {i : Nat} (h : i ≤ chars.length) :
    (offsetsFrom offset chars)[i]? = some (offset + byteLength (chars.take i)) := by
  induction chars generalizing offset i with
  | nil => simp_all [offsetsFrom, byteLength]
  | cons c rest ih =>
    cases i with
    | zero => simp [offsetsFrom, byteLength]
    | succ i =>
      rw [offsetsFrom, List.getElem?_cons_succ, ih _ (Nat.le_of_succ_le_succ h),
        List.take_succ_cons, byteLength, Nat.add_assoc]

/-! ## Lines -/

/-- The place behind each line break of some characters, the first of which is at place `i`. -/
def breaksFrom (i : Nat) (chars : List Char) : List Nat :=
  (chars.zipIdx i).filterMap fun (c, i) => if c = '\n' then some (i + 1) else none

lemma breaksFrom_bounds {i start : Nat} {chars : List Char} (h : start ∈ breaksFrom i chars) :
    i < start ∧ start ≤ i + chars.length := by
  simp only [breaksFrom, List.mem_filterMap, Prod.exists,
    List.mem_zipIdx_iff_le_and_getElem?_sub] at h
  obtain ⟨c, j, ⟨hle, hget⟩, hc⟩ := h
  obtain ⟨hlt, -⟩ := List.getElem?_eq_some_iff.1 hget
  split at hc
  · obtain rfl := Option.some.inj hc
    omega
  · cases hc

lemma lineStartsOf_append (a b : List Char) :
    lineStartsOf (a ++ b) = lineStartsOf a ++ breaksFrom a.length b := by
  simp [lineStartsOf, breaksFrom, List.zipIdx_append]

/-- The lines of a text: the last one that has begun is the line of the end, and the end's column is
counted from where that line starts. -/
lemma past_start (chars : List Char) :
    Position.start.past chars =
        ⟨(lineStartsOf chars).length, chars.length - (lineStartsOf chars).getLastD 0⟩ ∧
      (lineStartsOf chars).getLastD 0 ≤ chars.length := by
  induction chars using List.reverseRecOn with
  | nil => exact ⟨rfl, Nat.le_refl 0⟩
  | append_singleton front c ih =>
    obtain ⟨hpast, hle⟩ := ih
    rw [Position.past_append, hpast, lineStartsOf_append]
    by_cases hc : c = '\n'
    · simp [Position.next, breaksFrom, hc]
    · rw [List.getLastD_eq_getLast?] at hle
      simp [Position.next, breaksFrom, hc]
      omega

lemma takeWhile_lineStartsOf (front back : List Char) :
    (lineStartsOf (front ++ back)).takeWhile (· ≤ front.length) = lineStartsOf front := by
  have hfront : ∀ start ∈ lineStartsOf front, decide (start ≤ front.length) = true := by
    intro start hstart
    rcases List.mem_cons.1 hstart with rfl | hstart
    · simp
    · simpa using (breaksFrom_bounds hstart).2
  have hback : (breaksFrom front.length back).takeWhile (· ≤ front.length) = [] :=
    List.takeWhile_eq_nil_iff.2 fun h => by
      simpa using (breaksFrom_bounds (List.get_mem _ ⟨0, h⟩)).1
  rw [lineStartsOf_append, List.takeWhile_append_of_pos hfront, hback, List.append_nil]

namespace Source

variable {s : Source} {i j : Nat}

lemma positionAt_eq (h : i ≤ s.length) :
    s.positionAt i = Position.start.past (s.chars.toList.take i) := by
  have hlength : (s.chars.toList.take i).length = i := List.length_take_of_le h
  have hstarts : s.lineStarts.takeWhile (· ≤ i) = lineStartsOf (s.chars.toList.take i) := by
    have hcut := takeWhile_lineStartsOf (s.chars.toList.take i) (s.chars.toList.drop i)
    rwa [List.take_append_drop, hlength, ← s.lineStarts_eq] at hcut
  rw [positionAt, hstarts, (past_start _).1, hlength]

lemma byteOffset_eq (h : i ≤ s.length) : s.byteOffset i = byteLength (s.chars.toList.take i) := by
  have hoffset : s.offsets[i]? = some (0 + byteLength (s.chars.toList.take i)) := by
    rw [← Array.getElem?_toList, s.offsets_eq]
    exact getElem?_offsetsFrom 0 h
  rw [byteOffset, hoffset, Nat.zero_add]

/-- Past the last character an offset is that of the end. -/
lemma byteOffset_eq_take (s : Source) (i : Nat) :
    s.byteOffset i = byteLength (s.chars.toList.take i) := by
  by_cases h : i ≤ s.length
  · exact byteOffset_eq h
  · have hsize : s.offsets.size = s.length + 1 := by
      rw [← Array.length_toList, s.offsets_eq, length_offsetsFrom, Array.length_toList]
      rfl
    have hnone : s.offsets[i]? = none := Array.getElem?_eq_none (by omega)
    have htake : s.chars.toList.take i = s.chars.toList :=
      List.take_of_length_le (Nat.le_of_lt (Nat.lt_of_not_le h))
    rw [byteOffset, hnone, htake]
    rfl

lemma byteOffset_le (h : i ≤ j) : s.byteOffset i ≤ s.byteOffset j := by
  have htake : s.chars.toList.take j =
      s.chars.toList.take i ++ (s.chars.toList.drop i).take (j - i) := by
    rw [← List.take_add, Nat.add_sub_cancel' h]
  rw [byteOffset_eq_take, byteOffset_eq_take, htake, byteLength_append]
  exact Nat.le_add_right _ _

lemma byteOffset_lt (h : i < j) (hj : j ≤ s.length) : s.byteOffset i < s.byteOffset j := by
  obtain ⟨c, hc⟩ : ∃ c, s.chars.toList[i]? = some c :=
    ⟨_, List.getElem?_eq_getElem (Nat.lt_of_lt_of_le h hj)⟩
  have htake : s.chars.toList.take j =
      s.chars.toList.take i ++ (s.chars.toList.drop i).take (j - i) := by
    rw [← List.take_add, Nat.add_sub_cancel' (Nat.le_of_lt h)]
  have hpos : 0 < byteLength ((s.chars.toList.drop i).take (j - i)) := by
    refine Nat.lt_of_lt_of_le ?_ (length_le_byteLength _)
    simp only [List.length_take, List.length_drop]
    exact Nat.lt_min.2 ⟨Nat.sub_pos_of_lt h, Nat.sub_pos_of_lt (Nat.lt_of_lt_of_le h hj)⟩
  rw [byteOffset_eq (Nat.le_trans (Nat.le_of_lt h) hj), byteOffset_eq hj, htake,
    byteLength_append]
  exact Nat.lt_add_of_pos_right hpos

lemma byteOffset_inj (hi : i ≤ s.length) (hj : j ≤ s.length)
    (h : s.byteOffset i = s.byteOffset j) : i = j := by
  rcases Nat.lt_trichotomy i j with hlt | heq | hgt
  · exact absurd h (Nat.ne_of_lt (byteOffset_lt hlt hj))
  · exact heq
  · exact absurd h (Nat.ne_of_gt (byteOffset_lt hgt hi))

lemma byteOffset_length (s : Source) : s.byteOffset s.length = s.byteSize := by
  rw [byteOffset_eq (Nat.le_refl _), byteSize]
  exact congrArg byteLength (List.take_length)

/-! ## Slices -/

/-- No cut at an offset goes across a character, so that between two of them there are the
characters which they are the offsets of. -/
lemma between_byteOffset (s : Source) (i j : Nat) :
    between s.chars.toList (s.byteOffset i) (max (s.byteOffset j) (s.byteOffset i)) =
      some ((s.chars.toList.drop i).take (j - i)) := by
  have htake : s.chars.toList.take (max j i) =
      s.chars.toList.take i ++ (s.chars.toList.drop i).take (j - i) := by
    rw [← List.take_add]
    congr 1
    omega
  have hstop : max (s.byteOffset j) (s.byteOffset i) =
      byteLength (s.chars.toList.take i) + byteLength ((s.chars.toList.drop i).take (j - i)) := by
    rw [← byteLength_append, ← htake, ← byteOffset_eq_take]
    rcases Nat.le_total i j with h | h
    · rw [Nat.max_eq_left h, Nat.max_eq_left (byteOffset_le h)]
    · rw [Nat.max_eq_right h, Nat.max_eq_right (byteOffset_le h)]
  have hsplit : s.chars.toList.take i ++ (s.chars.toList.drop i).take (j - i) ++
      s.chars.toList.drop (max j i) = s.chars.toList := by
    rw [← htake, List.take_append_drop]
  have hbetween := between_append (s.chars.toList.take i)
    ((s.chars.toList.drop i).take (j - i)) (s.chars.toList.drop (max j i))
  rwa [hsplit, ← hstop, ← byteOffset_eq_take] at hbetween

lemma slice_eq (s : Source) (first last : Nat) :
    s.slice first last =
      String.ofList ((s.chars.toList.drop first).take (last + 1 - first)) := by
  rw [slice, between_byteOffset, Option.getD_some]

end Source

end Lookahead.Text
