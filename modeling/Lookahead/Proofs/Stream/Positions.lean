import Lookahead.Proofs.Stream.Savepoints
import Mathlib.Data.List.DropRight

/-!
# Places in a text

The cursor of a character stream knows its line and column in three ways: a step forward counts
them on, a jump looks them up in the table of lines, and a mark keeps them.  All three say the same,
which is a matter of the text alone (`placeIn`): so whatever was done with a stream, and whatever is
done next, its place is told by its index (`places_of_calls`).
-/

namespace Lookahead

/-- The position behind some characters: a line more than there are breaks among them, and as many
columns as there are characters behind the last break, or characters at all if there is none. -/
def Position.behind (front : List Char) : Position :=
  ⟨1 + front.count '\n', (front.rtakeWhile (· ≠ '\n')).length⟩

lemma Position.past_eq_behind (front : List Char) : Position.start.past front = behind front := by
  induction front using List.reverseRecOn with
  | nil => rfl
  | append_singleton front c ih =>
    rw [past_append, ih, past_cons, past_nil, behind, behind, next, List.count_append,
      List.count_singleton]
    by_cases hc : c = '\n'
    · rw [if_pos hc, List.rtakeWhile_concat_neg _ _ _ (by simpa using hc), if_pos (beq_iff_eq.2 hc)]
      rfl
    · rw [if_neg hc, List.rtakeWhile_concat_pos _ _ _ (by simpa using hc),
        if_neg (mt beq_iff_eq.1 hc), List.length_append]
      rfl

namespace CharacterStream

open Cursor

/-- The place in front of character `i` of a text, or the end of a shorter text. -/
def placeIn (text : String) (i : ℕ) : Place :=
  ⟨min i text.length, .behind (text.toList.take i)⟩

variable {text name : String} {s s' : CharacterStream} {i j n : ℕ}

lemma placeIn_congr (h : min i text.length = min j text.length) :
    placeIn text i = placeIn text j := by
  have htake : text.toList.take i = text.toList.take j := by
    rw [List.take_eq_take_min, String.length_toList, h, ← String.length_toList,
      ← List.take_eq_take_min]
  rw [placeIn, placeIn, h, htake]

lemma Exact.place_eq {p : Place} (h : Exact (.ofString text) p) : p = placeIn text p.index := by
  have hle : p.index ≤ text.length := String.length_toList ▸ h.index_le
  have hposition : p.position = .behind (text.toList.take p.index) := by
    rw [h.position_eq, Text.Source.positionAt_eq h.index_le, Position.past_eq_behind]
    rfl
  rw [placeIn, Nat.min_eq_left hle, ← hposition]

/-! ## Charted streams -/

/-- The stream reads the text, and its places are exact. -/
structure Charted (text : String) (s : CharacterStream) : Prop where
  accurate : s.Accurate
  source_eq : s.source = .ofString text

lemma Charted.reaches (hs : Charted text s) (h : Reaches s s') : Charted text s' := by
  obtain ⟨haccurate, hsource⟩ := hs.accurate.reaches h
  exact ⟨haccurate, hsource.trans hs.source_eq⟩

lemma charted_operated (text name : String) (calls : List Call) :
    Charted text (operated (ofString text name) calls).2 :=
  Charted.reaches ⟨accurate_ofString text name, rfl⟩ (reaches_operated _ calls)

lemma Charted.length_eq (hs : Charted text s) : s.source.length = text.length := by
  rw [hs.source_eq]
  exact String.length_toList

lemma Charted.index_le (hs : Charted text s) : s.place.index ≤ text.length :=
  hs.length_eq ▸ hs.accurate.place.index_le

lemma Charted.place_eq (hs : Charted text s) : s.place = placeIn text s.place.index :=
  Exact.place_eq (hs.source_eq ▸ hs.accurate.place)

lemma Charted.eq_placeIn (hs : Charted text s) (h : s.place.index = min i text.length) :
    s.place = placeIn text i := by
  rw [hs.place_eq]
  refine placeIn_congr ?_
  rw [h, Nat.min_assoc, Nat.min_self]

lemma Charted.seek (hs : Charted text s) (i : ℕ) : (Cursor.seek s i).place = placeIn text i := by
  refine (hs.reaches (Step.seek s i).reaches).eq_placeIn ?_
  rw [← hs.length_eq]
  exact placeAt_index s.source i

/-- Counting on by some characters is looking up where that leads. -/
lemma Charted.steps (hs : Charted text s) (n : ℕ) : Charted text (Cursor.consume^[n] s) ∧
    (Cursor.consume^[n] s).place = placeIn text (s.place.index + n) := by
  induction n with
  | zero => exact ⟨hs, hs.place_eq⟩
  | succ n ih =>
    obtain ⟨hcharted, hplace⟩ := ih
    have hnext := hcharted.reaches (Step.consume _).reaches
    rw [Function.iterate_succ_apply']
    refine ⟨hnext, hnext.eq_placeIn ?_⟩
    calc (Cursor.consume (Cursor.consume^[n] s)).place.index
      _ = min ((Cursor.consume^[n] s).place.index + 1) text.length :=
        hcharted.length_eq ▸ step_index hcharted.accurate.place.index_le
      _ = min (min (s.place.index + n) text.length + 1) text.length := by rw [hplace]; rfl
      _ = min (s.place.index + (n + 1)) text.length := by omega

/-! ## Main result -/

/-- Where the cursor of `s` stands after the calls of the log, and where it gets from there. -/
structure Places (text : String) (log : List (Entry CharacterStream)) (s : CharacterStream) :
    Prop where
  index_le : s.place.index ≤ text.length
  stands : s.place = placeIn text s.place.index
  steps : ∀ n, (consume^[n] s).place = placeIn text (s.place.index + n)
  jumps : ∀ i, (seek s i).place = placeIn text i
  /-- A mark leads back to where it was taken, which is the place that its index tells. -/
  returns : ∀ m s', rewind s m = .ok s' → ∃ older u, OpenedAt log older m u ∧ s'.place = u.place ∧
    s'.place = placeIn text u.place.index
  /-- Two histories that come to the same index come to the same place. -/
  agrees : ∀ name calls, (operated (ofString text name) calls).2.place.index = s.place.index →
    (operated (ofString text name) calls).2.place = s.place

/-- **The place of a character stream is a function of its index.**  The text is any, and the
calls are any that can be made of a stream since it was fresh, refused ones included.

The cursor is never behind the end of the text, and its offset, line and column are what the
text has at its index, however it came there: by consuming, by seeking, or by going back to a
mark.  Two histories that come to the same index come to the same place. -/
theorem places_of_calls (text name : String) (calls : List Call) :
    Places text (operated (ofString text name) calls).1
      (operated (ofString text name) calls).2 := by
  have hfresh : View.Fresh (ofString text name) := ⟨rfl, rfl⟩
  have hs := charted_operated text name calls
  have hrecorded := recorded_operated (recorded_fresh hfresh) calls
  rw [List.nil_append] at hrecorded
  refine
    { index_le := hs.index_le
      stands := hs.place_eq
      steps := fun n => (hs.steps n).2
      jumps := hs.seek
      returns := fun m s' h => ?_
      agrees := fun name' calls' h => ?_ }
  · obtain ⟨older, u, hopened, halike, -⟩ := hrecorded.restored h
    have hplace : s'.place = u.place := halike.spot_eq
    refine ⟨older, u, hopened, hplace, ?_⟩
    rw [← hplace]
    exact (hs.reaches (Step.rewind h).reaches).place_eq
  · rw [(charted_operated text name' calls').place_eq, h, ← hs.place_eq]

example : (operated (ofString "x\ny\nz" defaultName)
    [.consume, .mark, .seek 9, .rewind ⟨0, 0⟩, .consume]).2.place = ⟨2, ⟨2, 0⟩⟩ := by
  decide +kernel

end CharacterStream

end Lookahead
