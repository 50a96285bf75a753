import Lookahead.Proofs.Stream.Lawful
import Lookahead.Proofs.Text.Source
import Lookahead.Stream.Characters

/-!
# Character streams are lawful

The text is all there from the start, so a character stream is its own view.  A mark saves the line
and column of the cursor with its index, and it is the index alone that places the cursor.

The line and column are right wherever the cursor comes from (`Accurate`): a step forward counts
what the table of lines says, and what a mark saves was right when it was taken.
-/

namespace Lookahead.CharacterStream

open Cursor

instance : View CharacterStream where
  Input := Text.Source
  Spot := Place
  input s := s.source
  spot s := s.place
  marks s := s.marks
  place := Place.index
  Fresh s := s.place = .start ∧ s.marks = .empty
  Started _ := True
  Ready s := s.place.index ≤ s.source.length ∧ s.marks.Saves (·.index ≤ s.source.length)
  Stands source i := i ≤ source.length
  typeAt source i :=
    match source.chars[i]? with
    | some c => c.toNat
    | none => .eof
  after source i := min (i + 1) source.length

lemma step_index {source : Text.Source} {p : Place} (h : p.index ≤ source.length) :
    (step source p).index = min (p.index + 1) source.length := by
  unfold step
  split
  · rename_i c hc
    have hlt : p.index < source.length := (Array.getElem?_eq_some_iff.1 hc).1
    exact (Nat.min_eq_left hlt).symm
  · rename_i hc
    have hle : source.length ≤ p.index := Array.getElem?_eq_none_iff.1 hc
    have heq : p.index = source.length := Nat.le_antisymm h hle
    omega

lemma placeAt_index (source : Text.Source) (i : Nat) :
    (placeAt source i).index = min i source.length := rfl

/-- One operation on a stream whose cursor and saved places are within the text. -/
lemma ready_step {s s' : CharacterStream} (h : Step s s') (hs : View.Ready s) : View.Ready s' := by
  obtain ⟨hplace, hsaves⟩ := hs
  cases h with
  | lookahead | symbol => exact ⟨hplace, hsaves⟩
  | consume =>
    refine ⟨?_, hsaves⟩
    show (step s.source s.place).index ≤ s.source.length
    rw [step_index hplace]
    exact Nat.min_le_right _ _
  | seek i => exact ⟨Nat.min_le_right _ _, hsaves⟩
  | mark => exact ⟨hplace, hsaves.push hplace⟩
  | rewind h =>
    obtain ⟨⟨p, ms⟩, hm, rfl⟩ := map_eq_ok.1 h
    exact hsaves.rewind hm
  | release h =>
    obtain ⟨ms, hm, rfl⟩ := map_eq_ok.1 h
    exact ⟨hplace, hsaves.release hm⟩

instance : Lawful CharacterStream where
  ready_of_reaches := by
    rintro s₀ s ⟨hplace, hmarks⟩ hreach -
    induction hreach with
    | refl =>
      refine ⟨by simp [hplace, Place.start], ?_⟩
      rw [hmarks]
      exact MarkStack.saves_empty
    | tail _ hstep ih => exact ready_step hstep ih
  index_eq _ := rfl
  markDepth_eq _ := rfl
  stands hs := hs.1
  lookahead _ hs := ⟨hs, rfl, rfl, rfl⟩
  lookahead_one _ := rfl
  symbol hs := ⟨hs, rfl, rfl, rfl⟩
  consume {s} hs :=
    ⟨step s.source s.place, ⟨ready_step (.consume s) hs, rfl, rfl, rfl⟩, step_index hs.1⟩
  seek {s} i hs := by
    refine ⟨placeAt s.source i, ⟨ready_step (.seek s i) hs, rfl, rfl, rfl⟩, fun h => ?_⟩
    show (placeAt s.source i).index = i
    rw [placeAt_index]
    exact Nat.min_eq_left h
  mark {s} hs := ⟨ready_step (.mark s) hs, rfl, rfl, rfl⟩
  mark_fst _ := rfl
  rewind {s} m hs := by
    refine ⟨fun (place, marks) => { s with place, marks }, rfl, fun p ms hm => ?_⟩
    exact ⟨hs.2.rewind hm, rfl, rfl, rfl⟩
  release {s} m hs := by
    refine ⟨fun marks => { s with marks }, rfl, fun ms hm => ?_⟩
    exact ⟨⟨hs.1, hs.2.release hm⟩, rfl, rfl, rfl⟩

/-! ## Positions -/

/-- A place in a text, with the line and column of that place. -/
structure Exact (source : Text.Source) (p : Place) : Prop where
  index_le : p.index ≤ source.length
  position_eq : p.position = source.positionAt p.index

/-- The cursor and the saved places are exact. -/
structure Accurate (s : CharacterStream) : Prop where
  place : Exact s.source s.place
  saved : s.marks.Saves (Exact s.source)

lemma exact_placeAt (source : Text.Source) (i : Nat) : Exact source (placeAt source i) :=
  ⟨Nat.min_le_right _ _, rfl⟩

lemma exact_start (source : Text.Source) : Exact source .start :=
  ⟨Nat.zero_le _, (Text.Source.positionAt_eq (Nat.zero_le _)).symm⟩

/-- Counting a character on is looking up the place behind it. -/
lemma Exact.step {source : Text.Source} {p : Place} (h : Exact source p) :
    Exact source (step source p) := by
  unfold CharacterStream.step
  split
  · rename_i c hc
    have hlt : p.index < source.length := (Array.getElem?_eq_some_iff.1 hc).1
    have htake : source.chars.toList.take (p.index + 1) =
        source.chars.toList.take p.index ++ [c] := by
      rw [List.take_add_one, Array.getElem?_toList, hc]
      rfl
    refine ⟨hlt, ?_⟩
    show p.position.next c = source.positionAt (p.index + 1)
    rw [h.position_eq, Text.Source.positionAt_eq h.index_le, Text.Source.positionAt_eq hlt, htake,
      Position.past_append]
    rfl
  · exact h

lemma accurate_ofString (text name : String) : (ofString text name).Accurate :=
  ⟨exact_start _, MarkStack.saves_empty⟩

lemma Accurate.step {s s' : CharacterStream} (h : Step s s') (hs : s.Accurate) :
    s'.Accurate ∧ s'.source = s.source := by
  obtain ⟨hplace, hsaves⟩ := hs
  cases h with
  | lookahead | symbol => exact ⟨⟨hplace, hsaves⟩, rfl⟩
  | consume => exact ⟨⟨hplace.step, hsaves⟩, rfl⟩
  | seek i => exact ⟨⟨exact_placeAt _ i, hsaves⟩, rfl⟩
  | mark => exact ⟨⟨hplace, hsaves.push hplace⟩, rfl⟩
  | rewind h =>
    obtain ⟨⟨p, ms⟩, hm, rfl⟩ := map_eq_ok.1 h
    obtain ⟨hp, hms⟩ := hsaves.rewind hm
    exact ⟨⟨hp, hms⟩, rfl⟩
  | release h =>
    obtain ⟨ms, hm, rfl⟩ := map_eq_ok.1 h
    exact ⟨⟨hplace, hsaves.release hm⟩, rfl⟩

lemma Accurate.reaches {s s' : CharacterStream} (h : Reaches s s') (hs : s.Accurate) :
    s'.Accurate ∧ s'.source = s.source := by
  induction h with
  | refl => exact ⟨hs, rfl⟩
  | tail _ hstep ih =>
    obtain ⟨haccurate, hsource⟩ := ih.1.step hstep
    exact ⟨haccurate, hsource.trans ih.2⟩

end Lookahead.CharacterStream
