import Lookahead.Proofs.Stream.Lawful
import Lookahead.Stream.Nodes

/-!
# Node streams are lawful

The units of a tree are all there from the start, so a node stream is its own view.  Its cursor
stands on a unit or behind the last one.
-/

namespace Lookahead.NodeStream

open Cursor

instance : View NodeStream where
  Input := Array NodeUnit
  Spot := Nat
  input s := s.units
  spot s := s.place
  marks s := s.marks
  place i := i
  Fresh s := s.place = 0 ∧ s.marks = .empty
  Started _ := True
  Ready s := s.place ≤ s.units.size ∧ s.marks.Saves (· ≤ s.units.size)
  Stands units i := i ≤ units.size
  typeAt units i := (units[i]?.map NodeUnit.type).getD .eof
  after units i := min (i + 1) units.size

/-- One operation on a stream whose cursor and saved places are within the units. -/
lemma ready_step {s s' : NodeStream} (h : Step s s') (hs : View.Ready s) : View.Ready s' := by
  obtain ⟨hplace, hsaves⟩ := hs
  cases h with
  | lookahead | symbol => exact ⟨hplace, hsaves⟩
  | consume =>
    simp only [Cursor.consume]
    split
    · exact ⟨by assumption, hsaves⟩
    · exact ⟨hplace, hsaves⟩
  | seek i => exact ⟨Nat.min_le_right _ _, hsaves⟩
  | mark => exact ⟨hplace, hsaves.push hplace⟩
  | rewind h =>
    obtain ⟨⟨p, ms⟩, hm, rfl⟩ := map_eq_ok.1 h
    exact hsaves.rewind hm
  | release h =>
    obtain ⟨ms, hm, rfl⟩ := map_eq_ok.1 h
    exact ⟨hplace, hsaves.release hm⟩

instance : Lawful NodeStream where
  ready_of_reaches := by
    rintro s₀ s ⟨hplace, hmarks⟩ hreach -
    induction hreach with
    | refl => exact ⟨by simp [hplace], by simp only [hmarks]; exact MarkStack.saves_empty⟩
    | tail _ hstep ih => exact ready_step hstep ih
  index_eq _ := rfl
  markDepth_eq _ := rfl
  stands hs := hs.1
  lookahead _ hs := ⟨hs, rfl, rfl, rfl⟩
  lookahead_one {s} _ := by
    show s.lookahead 1 = (s.units[s.place]?.map NodeUnit.type).getD .eof
    cases h : s.units[s.place]? <;> simp [lookahead, unitAt, h]
  symbol hs := ⟨hs, rfl, rfl, rfl⟩
  consume {s} hs := by
    have hready := ready_step (.consume s) hs
    by_cases h : s.place < s.units.size
    · refine ⟨s.place + 1, ⟨hready, ?_, ?_, ?_⟩, ?_⟩
      · simp [View.input, Cursor.consume, h]
      · simp [View.spot, Cursor.consume, h]
      · simp [View.marks, Cursor.consume, h]
      · exact (Nat.min_eq_left h).symm
    · have hplace : s.place = s.units.size := Nat.le_antisymm hs.1 (Nat.le_of_not_lt h)
      refine ⟨s.place, ⟨hready, ?_, ?_, ?_⟩, ?_⟩
      · simp [View.input, Cursor.consume, h]
      · simp [View.spot, Cursor.consume, h]
      · simp [View.marks, Cursor.consume, h]
      · show s.place = min (s.place + 1) s.units.size
        omega
  seek {s} i hs :=
    ⟨(min i s.units.size : Nat), ⟨ready_step (.seek s i) hs, rfl, rfl, rfl⟩,
      fun h => Nat.min_eq_left h⟩
  mark {s} hs := ⟨ready_step (.mark s) hs, rfl, rfl, rfl⟩
  mark_fst _ := rfl
  rewind {s} m hs := by
    refine ⟨fun (place, marks) => { s with place, marks }, rfl, fun p ms hm => ?_⟩
    exact ⟨hs.2.rewind hm, rfl, rfl, rfl⟩
  release {s} m hs := by
    refine ⟨fun marks => { s with marks }, rfl, fun ms hm => ?_⟩
    exact ⟨⟨hs.1, hs.2.release hm⟩, rfl, rfl, rfl⟩

end Lookahead.NodeStream
