import Lookahead.Proofs.Recognizer.Guards
import Lookahead.Proofs.Stream.Legible

/-!
# Streams that their input and spot determine

What a stream shows was compared by its input and the spot of its cursor; the same two settle where
the cursor goes, and the symbol that is shown is the unit that a lookahead sees.  `Determined` says
so for all three streams.  Places alone would not do: a cursor in a text has a line and a column,
which a mark saves with the place.
-/

namespace Lookahead

namespace Cursor

open View (Ready spot)

/-- The input and the spot determine where the cursor goes, and lookahead sees the symbol. -/
class Determined (S : Type) [Cursor S] [View S] : Prop extends Savable S where
  symbol_type {s : S} : Ready s → (Cursor.symbol s).1.type = (Cursor.lookahead s 1).1
  consume_congr {s s' : S} : Ready s → Ready s' → View.input s' = View.input s →
    spot s' = spot s → spot (Cursor.consume s') = spot (Cursor.consume s)
  seek_congr {s s' : S} (i : Nat) : Ready s → Ready s' → View.input s' = View.input s →
    spot (Cursor.seek s' i) = spot (Cursor.seek s i)

variable {S : Type} [Cursor S] [View S] [Savable S] {s t : S}

/-- A mark puts the cursor of a stream on its first unit, if nothing else has. -/
lemma Reached.ready_mark (h : Reached s) : Ready (Cursor.mark s).2 := by
  obtain ⟨s₀, hfresh, hreach⟩ := h
  exact Lawful.ready_of_reaches hfresh (hreach.trans (Step.mark s).reaches) (Savable.started_mark s)

/-- Work under a mark that leaves it open can be taken back. -/
lemma endGuard_of_isPrefix
    (h : (View.marks (Cursor.mark s).2).entries <+: (View.marks t).entries) :
    ∃ i, Cursor.endGuard t (Cursor.mark s).1 .restore = (.ok (), i) ∧
      Cursor.rewind t (Cursor.mark s).1 = .ok i := by
  rw [Savable.marks_mark] at h
  obtain ⟨back, heq, -⟩ := Savable.marks_rewind t (Cursor.mark s).1
  have hback := MarkStack.rewind_of_isPrefix h
  rw [← Savable.mark_eq] at hback
  rw [hback] at heq
  exact ⟨_, endGuard_back (by decide) heq, heq⟩

end Cursor

open Cursor

instance : Determined CharacterStream where
  symbol_type {s} _ := by
    show s.symbol.type = s.codeAt (s.place.index + 0)
    unfold CharacterStream.symbol CharacterStream.codeAt
    rw [Nat.add_zero]
    cases s.source.chars[s.place.index]? <;> rfl
  consume_congr {s s'} _ _ hsource hplace := by
    have hsource : s'.source = s.source := hsource
    have hplace : s'.place = s.place := hplace
    show CharacterStream.step s'.source s'.place = CharacterStream.step s.source s.place
    rw [hsource, hplace]
  seek_congr {s s'} i _ _ hsource := by
    have hsource : s'.source = s.source := hsource
    show CharacterStream.placeAt s'.source i = CharacterStream.placeAt s.source i
    rw [hsource]

/-- The token of a unit has the type of the unit. -/
lemma NodeUnit.type_of_token? {unit : NodeUnit} {t : Token} (h : unit.token? = some t) :
    t.type = unit.type := by
  cases unit with
  | node id label =>
    cases label with
    | token t' =>
      obtain rfl := Option.some.inj h
      rfl
    | list | error text => cases h
  | down | up => cases h

instance : Determined NodeStream where
  symbol_type {s} _ := by
    have hunit : s.lookahead 1 = (s.units[s.place]?.map NodeUnit.type).getD .eof := by
      cases h : s.units[s.place]? <;> simp [NodeStream.lookahead, NodeStream.unitAt, h]
    show s.symbol.type = s.lookahead 1
    rw [hunit, NodeStream.symbol]
    cases s.units[s.place]? with
    | none => cases s.anchor <;> rfl
    | some unit =>
      simp only [Option.map_some, Option.getD_some]
      cases htoken : unit.token? with
      | none => cases s.anchor <;> rfl
      | some token => exact NodeUnit.type_of_token? htoken
  consume_congr hs hs' hinput hspot := spot_consume hs hs' hinput hspot
  seek_congr i hs hs' hinput := Legible.seek_congr i hs hs' hinput

instance {σ : Type} [TokenSource σ] : Determined (TokenStream σ) where
  symbol_type {s} hs := by
    obtain ⟨t, ht, -⟩ := TokenStream.tokenAt_one hs
    show s.symbol.1.type = ((s.tokenAt 1).1.map Token.type).getD .invalid
    simp [TokenStream.symbol, ht]
  consume_congr hs hs' hinput hspot := spot_consume hs hs' hinput hspot
  seek_congr i hs hs' hinput := Legible.seek_congr i hs hs' hinput

end Lookahead
