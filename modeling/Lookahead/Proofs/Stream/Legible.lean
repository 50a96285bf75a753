import Lookahead.Proofs.Stream.Abreast
import Lookahead.Proofs.Stream.Savepoints

/-!
# Streams over one input

Where a stream stands is told by the place of its cursor, and where it goes from there by its input.
`Legible` adds to the laws what that takes, so that two streams can be compared that were reached in
different ways: over one input, streams at one place look alike, and move alike (`spot_consume`,
`spot_seek`).

A stream in use is `Placed`: it is ready, its input is known, and so are its open marks.  Reading
and moving it leaves it so, and a guard that finds its own mark on top leads back to that
(`Placed.endGuard`).
-/

namespace Lookahead

namespace Cursor

open View (Ready spot marks)

/-- Places tell spots apart, and what a stream does is told by its input and its spot. -/
class Legible (S : Type) [Cursor S] [View S] : Prop extends Savable S where
  place_injective : Function.Injective (View.place : View.Spot S → Nat)
  seek_congr {s s' : S} (i : Nat) : Ready s → Ready s' → View.input s' = View.input s →
    spot (Cursor.seek s' i) = spot (Cursor.seek s i)
  input_of_step {s s' : S} : Step s s' → View.input s' = View.input s

variable {S : Type} [Cursor S] [View S] [Legible S] {s s' t : S}

lemma spot_of_index (h : index s' = index s) : spot s' = spot s := by
  rw [Lawful.index_eq, Lawful.index_eq] at h
  exact Legible.place_injective h

/-- The input never changes, not even while the stream is fresh. -/
lemma Reaches.input_eq (h : Reaches s s') : View.input s' = View.input s := by
  induction h with
  | refl => rfl
  | tail _ hstep ih => exact (Legible.input_of_step hstep).trans ih

lemma spot_consume (hs : Ready s) (hs' : Ready s') (hinput : View.input s' = View.input s)
    (hspot : spot s' = spot s) : spot (Cursor.consume s') = spot (Cursor.consume s) := by
  obtain ⟨p, hp, hplace⟩ := Lawful.consume hs
  obtain ⟨p', hp', hplace'⟩ := Lawful.consume hs'
  rw [hp.spot_eq, hp'.spot_eq]
  apply Legible.place_injective
  rw [hplace, hplace', hinput, Lawful.index_eq, Lawful.index_eq, hspot]

/-- A move to a place where a stream over the same input stands arrives there. -/
lemma spot_seek (hs : Ready s) (ht : Ready t) (hinput : View.input t = View.input s) :
    spot (Cursor.seek s (index t)) = spot t := by
  obtain ⟨p, hp, hplace⟩ := Lawful.seek (index t) hs
  rw [hp.spot_eq]
  apply Legible.place_injective
  rw [hplace (hinput ▸ Lawful.stands ht), Lawful.index_eq]

/-! ## Streams in use -/

/-- The stream is ready, over this input, and with these marks open. -/
structure Placed (input : View.Input S) (ms : List (Nat × View.Spot S)) (s : S) : Prop where
  ready : Ready s
  input_eq : View.input s = input
  marks_eq : (marks s).entries = ms

namespace Placed

variable {input : View.Input S} {ms : List (Nat × View.Spot S)}

omit [Cursor S] [Legible S] in
lemma lands {p : View.Spot S} (h : Placed input ms s) (hland : Lands s s' p (marks s)) :
    Placed input ms s' :=
  ⟨hland.ready, hland.input_eq.trans h.input_eq,
    (congrArg MarkStack.entries hland.marks_eq).trans h.marks_eq⟩

lemma lookahead (h : Placed input ms s) (k : Int) : Placed input ms (Cursor.lookahead s k).2 :=
  h.lands (Lawful.lookahead k h.ready)

lemma symbol (h : Placed input ms s) : Placed input ms (Cursor.symbol s).2 :=
  h.lands (Lawful.symbol h.ready)

lemma consume (h : Placed input ms s) : Placed input ms (Cursor.consume s) := by
  obtain ⟨p, hp, -⟩ := Lawful.consume h.ready
  exact h.lands hp

lemma seek (h : Placed input ms s) (i : Nat) : Placed input ms (Cursor.seek s i) := by
  obtain ⟨p, hp, -⟩ := Lawful.seek i h.ready
  exact h.lands hp

lemma mark (h : Placed input ms s) :
    Placed input (marks (Cursor.mark s).2).entries (Cursor.mark s).2 :=
  ⟨(Lawful.mark h.ready).ready, (Lawful.mark h.ready).input_eq.trans h.input_eq, rfl⟩

/-- A guard ends at the place where it was begun, or, if it keeps what was done, where that has
led. -/
lemma endGuard (h : Placed input ms s)
    (ht : Placed input (marks (Cursor.mark s).2).entries t) (ending : GuardEnd) :
    ∃ u, Cursor.endGuard t (Cursor.mark s).1 ending = (.ok (), u) ∧ Placed input ms u ∧
      spot u = if ending = .keep then spot t else spot s := by
  have hinput : View.input t = View.input s := ht.input_eq.trans h.input_eq.symm
  by_cases hkeep : ending = .keep
  · obtain ⟨u, hu, hland⟩ := release_mark h.ready ht.ready ht.marks_eq
    refine ⟨u, ?_, ⟨hland.ready, hland.input_eq.trans ht.input_eq, ?_⟩, ?_⟩
    · rw [hkeep, endGuard_keep hu]
    · rw [hland.marks_eq, ← h.marks_eq]
    · rw [if_pos hkeep, hland.spot_eq]
  · obtain ⟨u, hu, hland⟩ :=
      rewind_mark h.ready ht.ready hinput (ht.marks_eq ▸ List.prefix_refl _)
    refine ⟨u, endGuard_back hkeep hu, ⟨hland.ready, hland.input_eq.trans h.input_eq, ?_⟩, ?_⟩
    · rw [hland.marks_eq, ← h.marks_eq]
    · rw [if_neg hkeep, hland.spot_eq]

end Placed

end Cursor

/-! ## The streams of parsers and walkers -/

open Cursor

instance : Legible NodeStream where
  place_injective := Function.injective_id
  seek_congr {s s'} i _ _ hunits := by
    have hunits : s'.units = s.units := hunits
    show min i s'.units.size = min i s.units.size
    rw [hunits]
  input_of_step h := by
    cases h with
    | lookahead | symbol | seek | mark => rfl
    | consume =>
      simp only [View.input, Cursor.consume]
      split <;> rfl
    | rewind h =>
      obtain ⟨⟨p, ms⟩, -, rfl⟩ := map_eq_ok.1 h
      rfl
    | release h =>
      obtain ⟨ms, -, rfl⟩ := map_eq_ok.1 h
      rfl

instance {σ : Type} [TokenSource σ] : Legible (TokenStream σ) where
  place_injective := Function.injective_id
  seek_congr {s s'} i _ _ hinput := by
    obtain ⟨hbuffer, hchannel⟩ := Prod.mk.inj hinput
    have hplace : (s'.seek i).place = (s.seek i).place := by
      rw [(TokenStream.movesTo_seek s' i).place_eq, (TokenStream.movesTo_seek s i).place_eq,
        hbuffer, hchannel]
    exact hplace
  input_of_step {s s'} h := by
    cases h with
    | lookahead k => exact (TokenStream.wanders_lookahead s k).input_eq
    | symbol => exact (TokenStream.wanders_symbol s).input_eq
    | consume => exact (TokenStream.wanders_consume s).input_eq
    | seek i => exact (TokenStream.wanders_seek s i).input_eq
    | mark =>
      exact (TokenStream.input_marked _ _).trans (TokenStream.wanders_start s).input_eq
    | @rewind _ m h =>
      have heq : Cursor.rewind s m = _ := s.rewind_eq m
      rw [heq] at h
      obtain ⟨⟨p, ms⟩, -, rfl⟩ := map_eq_ok.1 h
      exact (TokenStream.wanders_seek _ p).input_eq.trans (TokenStream.input_marked s ms)
    | @release _ m h =>
      have heq : Cursor.release s m = _ := s.release_eq m
      rw [heq] at h
      obtain ⟨ms, -, rfl⟩ := map_eq_ok.1 h
      exact TokenStream.input_marked s ms

end Lookahead
