import Lookahead.Proofs.Text.Source

/-!
# Slices of a text

What the offsets and the slices of a source text say about the text itself: the offsets of its
characters ascend from one boundary between characters to the next, and stay at the end from there
on; a slice is the characters that it names, as far as there are any (`slices_ofString`).

A cut of a text is partial, since an offset may lie within a character, and a slice hides that: it
takes the empty text for a cut that fails.  So a cut is described first, with the boundaries of the
text for the offsets at which there is one (`isSome_cutAt_iff`, `between_eq_some_iff`), and that
every slice is a cut which was made is a part of the result.
-/

namespace Lookahead.Text

/-! ## Cuts -/

lemma eq_of_cutAt {n : ℕ} {chars front back : List Char} (h : cutAt n chars = some (front, back)) :
    chars = front ++ back ∧ n = byteLength front := by
  induction chars generalizing n front with
  | nil =>
    cases n with
    | zero =>
      obtain ⟨rfl, rfl⟩ := Prod.mk.inj (Option.some.inj h)
      exact ⟨rfl, rfl⟩
    | succ n => cases h
  | cons c rest ih =>
    cases n with
    | zero =>
      obtain ⟨rfl, rfl⟩ := Prod.mk.inj (Option.some.inj h)
      exact ⟨rfl, rfl⟩
    | succ n =>
      rw [cutAt] at h
      split at h
      next hle =>
        obtain ⟨⟨front', back'⟩, hcut, heq⟩ := Option.map_eq_some_iff.1 h
        obtain ⟨rfl, rfl⟩ := Prod.mk.inj heq
        obtain ⟨rfl, hn⟩ := ih hcut
        exact ⟨rfl, by rw [byteLength, ← hn, Nat.add_sub_cancel' hle]⟩
      next => cases h

lemma cutAt_eq_some_iff {n : ℕ} {chars front back : List Char} :
    cutAt n chars = some (front, back) ↔ chars = front ++ back ∧ n = byteLength front := by
  refine ⟨eq_of_cutAt, ?_⟩
  rintro ⟨rfl, rfl⟩
  exact cutAt_append front back

/-- A text is cut at the offsets that are boundaries of its encoding. -/
lemma isSome_cutAt_iff {n : ℕ} {chars : List Char} :
    (cutAt n chars).isSome ↔ (String.Pos.Raw.mk n).IsValid (String.ofList chars) := by
  rw [Option.isSome_iff_exists, String.Pos.Raw.isValid_iff_exists_append]
  constructor
  · rintro ⟨⟨front, back⟩, h⟩
    obtain ⟨rfl, rfl⟩ := eq_of_cutAt h
    exact ⟨String.ofList front, String.ofList back, String.ofList_append,
      congrArg String.Pos.Raw.mk (utf8ByteSize_ofList front).symm⟩
  · rintro ⟨front, back, htext, hn⟩
    refine ⟨(front.toList, back.toList), cutAt_eq_some_iff.2 ⟨?_, ?_⟩⟩
    · rw [← String.toList_append, ← htext, String.toList_ofList]
    · rw [← utf8ByteSize_ofList, String.ofList_toList]
      exact congrArg String.Pos.Raw.byteIdx hn

lemma between_eq_some_iff {chars middle : List Char} {start stop : ℕ} :
    between chars start stop = some middle ↔ ∃ front back, chars = front ++ middle ++ back ∧
      start = byteLength front ∧ stop = byteLength front + byteLength middle := by
  constructor
  · intro h
    rw [between] at h
    split at h
    next => cases h
    next hle =>
      obtain ⟨⟨front, rest⟩, hfront, h⟩ := Option.bind_eq_some_iff.1 h
      obtain ⟨⟨middle', back⟩, hmiddle, h⟩ := Option.bind_eq_some_iff.1 h
      obtain rfl := Option.some.inj h
      obtain ⟨rfl, rfl⟩ := eq_of_cutAt hfront
      obtain ⟨rfl, hstop⟩ := eq_of_cutAt hmiddle
      exact ⟨front, back, (List.append_assoc ..).symm, rfl,
        by rw [← hstop, Nat.add_sub_cancel' (Nat.le_of_not_lt hle)]⟩
  · rintro ⟨front, back, rfl, rfl, rfl⟩
    exact between_append front middle back

/-! ## Slices of a source -/

namespace Source

lemma slice_append (s : Source) {i j k : ℕ} (hij : i ≤ j + 1) (hjk : j + 1 ≤ k + 1) :
    s.slice i j ++ s.slice (j + 1) k = s.slice i k := by
  have hlengths : j + 1 - i + (k + 1 - (j + 1)) = k + 1 - i := by
    rw [Nat.add_comm, Nat.sub_add_sub_cancel hjk hij]
  have hdrop : (s.chars.toList.drop i).drop (j + 1 - i) = s.chars.toList.drop (j + 1) := by
    rw [List.drop_drop, Nat.add_sub_cancel' hij]
  rw [slice_eq, slice_eq, slice_eq, ← String.ofList_append, ← hdrop, ← List.take_add, hlengths]

/-- The offsets and the slices of `s` are those of the text.  A slice is cut off behind its last
character, so that place must be a machine word as well. -/
structure Slices (s : Source) (text : String) : Prop where
  ascends : ∀ i j, i < j → j ≤ text.length → s.byteOffset i < s.byteOffset j
  ends : ∀ i, text.length ≤ i → s.byteOffset i = text.utf8ByteSize
  boundary : ∀ i, (String.Pos.Raw.mk (s.byteOffset i)).IsValid text
  /-- A slice is never the empty text that stands for a cut across a character. -/
  isCut : ∀ i, ∀ j < largestWord, between text.toList (s.byteOffset i)
    (max (s.byteOffset (j + 1)) (s.byteOffset i)) = some (s.slice i j).toList
  exact : ∀ i, ∀ j < largestWord,
    s.slice i j = String.ofList ((text.toList.drop i).take (j + 1 - i))
  empty : ∀ i, ∀ j < largestWord, j + 1 ≤ i → s.slice i j = ""
  joins : ∀ i, ∀ j < largestWord, ∀ k < largestWord, i ≤ j + 1 → j + 1 ≤ k + 1 →
    s.slice i j ++ s.slice (j + 1) k = s.slice i k

/-- **Slices are the characters that they name**, for every text, for every first place, and for
every last place behind which there is another one among the machine words.

The offsets ascend over the characters, stay at the end from there on, and are boundaries
between characters, so that no slice is empty because of a cut across one.  A slice consists of
the characters from the first place to the last, as far as the text has them; it is empty if
there are none; and two slices that meet make one. -/
theorem slices_ofString (text : String) : (ofString text).Slices text := by
  have hchars : (ofString text).chars.toList = text.toList := rfl
  have hlength : (ofString text).length = text.length := String.length_toList
  refine
    { ascends := fun i j hij hj => byteOffset_lt hij (hlength ▸ hj)
      ends := fun i hi => ?_
      boundary := fun i => ?_
      isCut := fun i j _ => ?_
      exact := fun i j _ => slice_eq (ofString text) i j
      empty := fun i j _ hji => ?_
      joins := fun i j _ k _ => slice_append (ofString text) }
  · have htake : text.toList.take i = text.toList :=
      List.take_of_length_le (String.length_toList ▸ hi)
    rw [byteOffset_eq_take, hchars, htake, ← utf8ByteSize_ofList, String.ofList_toList]
  · have hcut := cutAt_append (text.toList.take i) (text.toList.drop i)
    rw [List.take_append_drop, ← hchars, ← byteOffset_eq_take, hchars] at hcut
    have hvalid := isSome_cutAt_iff.1 (Option.isSome_of_eq_some hcut)
    rwa [String.ofList_toList] at hvalid
  · rw [slice_eq, String.toList_ofList]
    exact between_byteOffset (ofString text) i (j + 1)
  · rw [slice_eq, Nat.sub_eq_zero_of_le hji, List.take_zero, String.ofList_nil]

example : (ofString "é=1").slice 0 1 = "é=" := by decide

end Source

end Lookahead.Text
