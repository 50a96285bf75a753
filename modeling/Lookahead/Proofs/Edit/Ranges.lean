import Lookahead.Edit.Folding
import Mathlib.Data.List.Basic
import Mathlib.Data.List.Induction
import Mathlib.Data.List.Pairwise

/-!
# Which replacements stay in force

The replacements of a program are settled among themselves before any insert is looked at.
`ranges` says what comes of them in the words of a queue: each replacement takes the place of the
earlier ones that it contains, a deletion grows over the deletions that it overlaps, and any other
overlap is refused.  The edits are folded in place instead, one against one, by a replacement that
may grow while it is held against the edits before it (`Absorbed.take`).

The two agree because what stays in force never overlaps (`Apart`): what a replacement does to an
earlier edit does not depend on how far it has grown when it comes to it (`toOption_absorb`).
`toOption_foldReplaces` says what is left of a whole program.
-/

namespace Lookahead

/-- The outcome of a sequence, its error apart. -/
lemma toOption_bind {ε α β : Type} (x : Except ε α) (f : α → Except ε β) :
    (x >>= f).toOption = x.toOption >>= fun a => (f a).toOption := by
  cases x <;> rfl

lemma toOption_map {ε α β : Type} (f : α → β) (x : Except ε α) :
    (x.map f).toOption = x.toOption.map f := by
  cases x <;> rfl

namespace Edit

/-- A replacement is of at least one token. -/
def Proper : Edit → Prop
  | insert .. => True
  | replace first last _ => first ≤ last

instance : DecidablePred Proper
  | insert .. => inferInstanceAs (Decidable True)
  | replace first last _ => inferInstanceAs (Decidable (first ≤ last))

/-- The tokens that a replacement is of, first and last; an insert is of none. -/
def place? : Edit → Option (Nat × Nat)
  | insert .. => none
  | replace first last _ => some (first, last)

/-- Token `k` is in the place of a replacement. -/
def Covers (k : Nat) (e : Edit) : Prop := ∃ p ∈ e.place?, p.1 ≤ k ∧ k ≤ p.2

/-- The place in front of token `k` is inside a replacement. -/
def Encloses (k : Nat) (e : Edit) : Prop := ∃ p ∈ e.place?, p.1 < k ∧ k ≤ p.2

/-! ## Ranges -/

/-- A replacement in force: the tokens whose place it takes, and when it was queued. -/
structure Range where
  first : Nat
  last : Nat
  /-- What stands in their place, or nothing for a deletion. -/
  text : Option String
  /-- The number of the edit in its queue. -/
  number : Nat
  deriving DecidableEq, Repr

namespace Range

/-- Token `k` is in the range. -/
def Covers (r : Range) (k : Nat) : Prop := r.first ≤ k ∧ k ≤ r.last

/-- The place in front of token `k` is inside the range. -/
def Encloses (r : Range) (k : Nat) : Prop := r.first < k ∧ k ≤ r.last

/-- The ranges have a token in common. -/
def Overlaps (r e : Range) : Prop := r.first ≤ e.last ∧ e.first ≤ r.last

/-- The first range has all tokens of the second. -/
def Contains (r e : Range) : Prop := r.first ≤ e.first ∧ e.last ≤ r.last

/-- Nothing stands in the place of the tokens. -/
def Deletes (r : Range) : Prop := r.text = none

/-- A replacement can take in an earlier one that it contains, and a deletion another deletion. -/
def Absorbs (r e : Range) : Prop := r.Contains e ∨ r.Deletes ∧ e.Deletes

instance (r : Range) (k : Nat) : Decidable (r.Covers k) := inferInstanceAs (Decidable (_ ∧ _))

instance (r : Range) (k : Nat) : Decidable (r.Encloses k) := inferInstanceAs (Decidable (_ ∧ _))

instance (r e : Range) : Decidable (r.Overlaps e) := inferInstanceAs (Decidable (_ ∧ _))

instance (r e : Range) : Decidable (r.Contains e) := inferInstanceAs (Decidable (_ ∧ _))

instance (r : Range) : Decidable r.Deletes := inferInstanceAs (Decidable (_ = _))

instance (r e : Range) : Decidable (r.Absorbs e) := inferInstanceAs (Decidable (_ ∨ _))

/-- The range, grown over another one; it keeps its text and its number. -/
def hull (r e : Range) : Range :=
  { r with first := min r.first e.first, last := max r.last e.last }

/-- The replacement that a numbered edit is. -/
def of? : Edit × Nat → Option Range
  | (.insert .., _) => none
  | (.replace first last text, number) => some ⟨first, last, text, number⟩

/-- The earlier ranges that a replacement comes up against, which are those with a token in
common. -/
def touched (r : Range) (earlier : List Range) : List Range := earlier.filter (r.Overlaps ·)

/-- The range of a replacement that has taken in what it came up against. -/
def grown (r : Range) (earlier : List Range) : Range := (r.touched earlier).foldl hull r

/-- The ranges in force after a replacement, given those in force before it. -/
def succeed (r : Range) (earlier : List Range) : Option (List Range) :=
  if ∀ e ∈ r.touched earlier, r.Absorbs e then
    some (earlier.filter (¬ r.Overlaps ·) ++ [r.grown earlier])
  else none

end Range

/-- The ranges in force after a program, oldest first.  There are none if a replacement is refused.
-/
def ranges (edits : List Edit) : Option (List Range) :=
  (edits.zipIdx.filterMap Range.of?).foldlM (fun earlier r => r.succeed earlier) []

/-! ## Growing -/

namespace Range

variable {r e x : Range} {k : Nat}

/-- Where ranges do not overlap, one of them comes first. -/
def Apart (r e : Range) : Prop := r.last < e.first ∨ e.last < r.first

instance : Std.Symm Apart := ⟨fun _ _ => Or.symm⟩

lemma overlaps_hull (hr : r.Overlaps e) (hx : e.Apart x) (hproper : x.first ≤ x.last) :
    (r.hull e).Overlaps x ↔ r.Overlaps x := by
  simp only [Overlaps, Apart, hull] at *
  omega

lemma contains_hull (hr : r.Overlaps e) (hx : e.Apart x) (hproper : x.first ≤ x.last) :
    (r.hull e).Contains x ↔ r.Contains x := by
  simp only [Overlaps, Apart, Contains, hull] at *
  omega

lemma absorbs_hull (hr : r.Overlaps e) (hx : e.Apart x) (hproper : x.first ≤ x.last) :
    (r.hull e).Absorbs x ↔ r.Absorbs x :=
  or_congr (contains_hull hr hx hproper) Iff.rfl

lemma encloses_hull (hr : r.Overlaps e) : (r.hull e).Encloses k ↔ r.Encloses k ∨ e.Encloses k := by
  simp only [Overlaps, Encloses, hull] at *
  omega

lemma covers_hull (hr : r.Overlaps e) : (r.hull e).Covers k ↔ r.Covers k ∨ e.Covers k := by
  simp only [Overlaps, Covers, hull] at *
  omega

lemma overlaps_hull_of_overlaps (h : r.Overlaps x) : (r.hull e).Overlaps x := by
  simp only [Overlaps, hull] at *
  omega

lemma number_grown (r : Range) (earlier : List Range) : (r.grown earlier).number = r.number := by
  have h (l : List Range) (r : Range) : (l.foldl hull r).number = r.number := by
    induction l generalizing r with
    | nil => rfl
    | cons e rest ih => exact ih _
  exact h _ r

lemma first_le_last_grown (hr : r.first ≤ r.last) (earlier : List Range) :
    (r.grown earlier).first ≤ (r.grown earlier).last := by
  have h (l : List Range) (r : Range) (hr : r.first ≤ r.last) :
      (l.foldl hull r).first ≤ (l.foldl hull r).last := by
    induction l generalizing r with
    | nil => exact hr
    | cons e rest ih =>
      exact ih _ (Nat.le_trans (Nat.min_le_left _ _) (Nat.le_trans hr (Nat.le_max_left _ _)))
  exact h _ r hr

lemma text_grown (r : Range) (earlier : List Range) : (r.grown earlier).text = r.text := by
  have h (l : List Range) (r : Range) : (l.foldl hull r).text = r.text := by
    induction l generalizing r with
    | nil => rfl
    | cons e rest ih => exact ih _
  exact h _ r

lemma hull_of_contains (h : r.Contains e) : r.hull e = r := by
  rw [hull, Nat.min_eq_left h.1, Nat.max_eq_left h.2]

lemma overlaps_of_contains (h : r.Contains e) (hproper : e.first ≤ e.last) : r.Overlaps e :=
  ⟨Nat.le_trans h.1 hproper, Nat.le_trans hproper h.2⟩

lemma not_overlaps_iff : ¬ r.Overlaps e ↔ r.Apart e := by
  simp only [Overlaps, Apart]
  omega

/-- A property of places that a range has over two ranges if one of them has it, it has over many.
-/
lemma grown_iff {P : Range → Prop} (hP : ∀ r e : Range, r.Overlaps e → (P (r.hull e) ↔ P r ∨ P e))
    (r : Range) (earlier : List Range) :
    P (r.grown earlier) ↔ P r ∨ ∃ e ∈ r.touched earlier, P e := by
  have h (l : List Range) (r : Range) (hl : ∀ e ∈ l, r.Overlaps e) :
      P (l.foldl hull r) ↔ P r ∨ ∃ e ∈ l, P e := by
    induction l generalizing r with
    | nil => simp
    | cons e rest ih =>
      have hrest : ∀ x ∈ rest, (r.hull e).Overlaps x := fun x hx =>
        overlaps_hull_of_overlaps (hl x (List.mem_cons_of_mem e hx))
      rw [List.foldl_cons, ih _ hrest, hP r e (hl e List.mem_cons_self), or_assoc,
        List.exists_mem_cons_iff]
  exact h _ r fun e he => by simpa using (List.mem_filter.1 he).2

lemma encloses_grown (r : Range) (earlier : List Range) (k : Nat) :
    (r.grown earlier).Encloses k ↔ r.Encloses k ∨ ∃ e ∈ r.touched earlier, e.Encloses k :=
  grown_iff (P := (Encloses · k)) (fun _ _ => encloses_hull) r earlier

lemma covers_grown (r : Range) (earlier : List Range) (k : Nat) :
    (r.grown earlier).Covers k ↔ r.Covers k ∨ ∃ e ∈ r.touched earlier, e.Covers k :=
  grown_iff (P := (Covers · k)) (fun _ _ => covers_hull) r earlier

lemma touched_cons_of_overlaps (hr : r.Overlaps e) (rest : List Range) :
    r.touched (e :: rest) = e :: r.touched rest := List.filter_cons_of_pos (by simpa using hr)

lemma touched_cons_of_not_overlaps (hr : ¬ r.Overlaps e) (rest : List Range) :
    r.touched (e :: rest) = r.touched rest := List.filter_cons_of_neg (by simpa using hr)

section

variable {rest : List Range} (hapart : ∀ x ∈ rest, e.Apart x)
  (hproper : ∀ x ∈ rest, x.first ≤ x.last)

include hapart hproper

/-- A replacement that has grown comes up against the same ranges as before. -/
lemma touched_hull (hr : r.Overlaps e) : (r.hull e).touched rest = r.touched rest :=
  List.filter_congr fun x hx => by
    rw [decide_eq_decide, overlaps_hull hr (hapart x hx) (hproper x hx)]

lemma grown_cons :
    r.grown (e :: rest) = if r.Overlaps e then (r.hull e).grown rest else r.grown rest := by
  split
  · rename_i hr
    rw [grown, touched_cons_of_overlaps hr, List.foldl_cons, ← touched_hull hapart hproper hr,
      grown]
  · rename_i hr
    rw [grown, touched_cons_of_not_overlaps hr, grown]

lemma absorbs_touched_hull (hr : r.Overlaps e) :
    (∀ x ∈ (r.hull e).touched rest, (r.hull e).Absorbs x) ↔ ∀ x ∈ r.touched rest, r.Absorbs x := by
  rw [touched_hull hapart hproper hr]
  refine forall₂_congr fun x hx => ?_
  have hmem : x ∈ rest := List.mem_of_mem_filter hx
  exact absorbs_hull hr (hapart x hmem) (hproper x hmem)

end

end Range

/-! ## A replacement against what came before -/

/-- Edits of which the first came first.  Two replacements do not overlap, and an insert is not
inside a later replacement. -/
def Apart : Edit → Edit → Prop
  | replace first last _, replace first' last' _ => last < first' ∨ last' < first
  | insert index _, replace first last _ => ¬ (first < index ∧ index ≤ last)
  | _, _ => True

namespace Range

/-- What a replacement leaves of an earlier edit, once it has grown as far as it will. -/
def Spares (r grown : Range) : Edit × Nat → Prop
  | (.insert index _, _) => ¬ grown.Encloses index
  | (.replace first last text, number) => ¬ r.Overlaps ⟨first, last, text, number⟩

/-- A replacement that has grown leaves of an edit what it left before. -/
lemma spares_hull {r x grown : Range} {e : Edit × Nat} (hr : r.Overlaps x)
    (hapart : ∀ y ∈ of? e, x.Apart y) (hproper : e.1.Proper) :
    (r.hull x).Spares grown e ↔ r.Spares grown e := by
  obtain ⟨_ | ⟨first, last, text⟩, number⟩ := e
  · exact Iff.rfl
  · exact not_congr (overlaps_hull hr (hapart _ rfl) hproper)

instance (r grown : Range) : DecidablePred (r.Spares grown)
  | (.insert .., _) => inferInstanceAs (Decidable (¬ _))
  | (.replace .., _) => inferInstanceAs (Decidable (¬ _))

end Range

/-- The ranges among numbered edits. -/
def rangesOf (edits : List (Edit × Nat)) : List Range := edits.filterMap Range.of?

lemma mem_rangesOf {x : Range} {edits : List (Edit × Nat)} :
    x ∈ rangesOf edits ↔ (Edit.replace x.first x.last x.text, x.number) ∈ edits := by
  rw [rangesOf, List.mem_filterMap]
  constructor
  · rintro ⟨⟨_ | ⟨first, last, text⟩, number⟩, he, hx⟩
    · cases hx
    · obtain rfl := Option.some.inj hx
      exact he
  · exact fun h => ⟨_, h, rfl⟩

lemma proper_of_mem_rangesOf {x : Range} {edits : List (Edit × Nat)}
    (hproper : ∀ e ∈ edits, e.1.Proper) (hx : x ∈ rangesOf edits) : x.first ≤ x.last :=
  hproper _ (mem_rangesOf.1 hx)

lemma toOption_take_replace {r : Range} {first last : Nat} {text : Option String}
    (hproper : first ≤ last) (number : Nat) (kept : List Edit) :
    (Absorbed.take r.text ⟨kept, r.first, r.last⟩ (.replace first last text)).toOption =
      if r.Overlaps ⟨first, last, text, number⟩ then
        if r.Absorbs ⟨first, last, text, number⟩ then
          some ⟨kept, (r.hull ⟨first, last, text, number⟩).first,
            (r.hull ⟨first, last, text, number⟩).last⟩
        else none
      else some ⟨kept ++ [.replace first last text], r.first, r.last⟩ := by
  unfold Absorbed.take
  simp only
  split
  · rename_i hin
    have hcontains : r.Contains ⟨first, last, text, number⟩ := hin
    rw [if_pos (Range.overlaps_of_contains hcontains hproper), if_pos (.inl hcontains),
      Range.hull_of_contains hcontains]
    rfl
  · rename_i hin
    have hcontains : ¬ r.Contains ⟨first, last, text, number⟩ := hin
    split
    · rename_i hapart
      have hoverlaps : ¬ r.Overlaps ⟨first, last, text, number⟩ :=
        Range.not_overlaps_iff.2 hapart.symm
      rw [if_neg hoverlaps]
      rfl
    · rename_i hapart
      have hoverlaps : r.Overlaps ⟨first, last, text, number⟩ := by
        by_contra h
        exact hapart (Range.not_overlaps_iff.1 h).symm
      rw [if_pos hoverlaps]
      have habsorbs : r.Absorbs ⟨first, last, text, number⟩ ↔
          text.isNone = true ∧ r.text.isNone = true := by
        simp only [Range.Absorbs, hcontains, Range.Deletes, false_or, Option.isNone_iff_eq_none]
        exact and_comm
      simp only [habsorbs]
      split <;> rfl

/-- What comes of a replacement that is held against edits, behind those that are kept already. -/
def absorbedAll (r : Range) (kept : List Edit) (edits : List (Edit × Nat)) : Option Absorbed :=
  if ∀ e ∈ r.touched (rangesOf edits), r.Absorbs e then
    some ⟨kept ++ (edits.filter (r.Spares (r.grown (rangesOf edits)))).map Prod.fst,
      (r.grown (rangesOf edits)).first, (r.grown (rangesOf edits)).last⟩
  else none

section

variable {r : Range} {rest : List (Edit × Nat)} (kept : List Edit) (number : Nat)

/-- No later range encloses the insert, so it does not matter how far the replacement is going to
grow. -/
lemma absorbedAll_cons_insert {index : Nat} {text : String}
    (hapart : ∀ x ∈ rangesOf rest, ¬ x.Encloses index) :
    absorbedAll r kept ((.insert index text, number) :: rest) =
      if r.Encloses index then absorbedAll r kept rest
      else absorbedAll r (kept ++ [.insert index text]) rest := by
  have hgrown : (r.grown (rangesOf rest)).Encloses index ↔ r.Encloses index := by
    rw [Range.encloses_grown, or_iff_left]
    rintro ⟨x, hx, hencloses⟩
    exact hapart x (List.mem_of_mem_filter hx) hencloses
  have hranges : rangesOf ((.insert index text, number) :: rest) = rangesOf rest := rfl
  unfold absorbedAll
  rw [hranges]
  by_cases h : r.Encloses index
  · have hdropped : ¬ r.Spares (r.grown (rangesOf rest)) (.insert index text, number) :=
      fun hspares => hspares (hgrown.2 h)
    rw [List.filter_cons_of_neg (by simpa using hdropped), if_pos h]
  · have hspared : r.Spares (r.grown (rangesOf rest)) (.insert index text, number) :=
      fun hencloses => h (hgrown.1 hencloses)
    rw [List.filter_cons_of_pos (by simpa using hspared), List.map_cons,
      List.append_cons kept _ (List.map _ _), if_neg h]

/-- The replacement grows over a range that it overlaps, and goes on as the range that it has grown
to. -/
lemma absorbedAll_cons_replace {first last : Nat} {text : Option String}
    (hapart : ∀ y ∈ rangesOf rest, (⟨first, last, text, number⟩ : Range).Apart y)
    (hproper : ∀ e ∈ rest, e.1.Proper) :
    absorbedAll r kept ((.replace first last text, number) :: rest) =
      if r.Overlaps ⟨first, last, text, number⟩ then
        if r.Absorbs ⟨first, last, text, number⟩ then
          absorbedAll (r.hull ⟨first, last, text, number⟩) kept rest
        else none
      else absorbedAll r (kept ++ [.replace first last text]) rest := by
  obtain ⟨x, hx⟩ : ∃ x : Range, x = ⟨first, last, text, number⟩ := ⟨_, rfl⟩
  have hranges : rangesOf ((.replace first last text, number) :: rest) = x :: rangesOf rest := by
    rw [hx]
    rfl
  have hranged : ∀ y ∈ rangesOf rest, y.first ≤ y.last := fun y => proper_of_mem_rangesOf hproper
  rw [← hx] at hapart
  unfold absorbedAll
  rw [← hx, hranges, Range.grown_cons hapart hranged]
  by_cases hoverlaps : r.Overlaps x
  · have hdropped : ¬ r.Spares ((r.hull x).grown (rangesOf rest))
        (.replace first last text, number) := fun hspares => hspares (hx ▸ hoverlaps)
    have hspares : rest.filter (r.Spares ((r.hull x).grown (rangesOf rest))) =
        rest.filter ((r.hull x).Spares ((r.hull x).grown (rangesOf rest))) :=
      List.filter_congr fun y hy => by
        have hy' : ∀ z ∈ Range.of? y, x.Apart z := fun z hz =>
          hapart z (List.mem_filterMap.2 ⟨y, hy, hz⟩)
        rw [decide_eq_decide, Range.spares_hull hoverlaps hy' (hproper y hy)]
    rw [if_pos hoverlaps, if_pos hoverlaps, List.filter_cons_of_neg (by simpa using hdropped)]
    simp only [Range.absorbs_touched_hull hapart hranged hoverlaps, ← hspares,
      Range.touched_cons_of_overlaps hoverlaps, List.forall_mem_cons]
    by_cases habsorbs : r.Absorbs x
    · simp only [habsorbs, if_true, true_and]
    · simp only [habsorbs, if_false, false_and]
  · have hspared : r.Spares (r.grown (rangesOf rest)) (.replace first last text, number) :=
      fun h => hoverlaps (hx ▸ h)
    rw [if_neg hoverlaps, if_neg hoverlaps, Range.touched_cons_of_not_overlaps hoverlaps,
      List.filter_cons_of_pos (by simpa using hspared), List.map_cons,
      List.append_cons kept _ (List.map _ _)]

end

/-- **A replacement is held against what came before.**  Edits that are apart are taken in one by
one, by a replacement that may have grown in between, as if it came up against all of them at once.
-/
theorem toOption_foldlM_take {r : Range} {edits : List (Edit × Nat)} (kept : List Edit)
    (hapart : (edits.map Prod.fst).Pairwise Apart) (hproper : ∀ e ∈ edits, e.1.Proper) :
    ((edits.map Prod.fst).foldlM (Absorbed.take r.text) ⟨kept, r.first, r.last⟩).toOption =
      absorbedAll r kept edits := by
  induction edits generalizing r kept with
  | nil =>
    simp [absorbedAll, rangesOf, Range.touched, Range.grown, pure, Except.pure, Except.toOption]
  | cons e rest ih =>
    obtain ⟨e, number⟩ := e
    rw [List.map_cons, List.pairwise_cons] at hapart
    obtain ⟨hhead, hrest⟩ := hapart
    have hproperRest : ∀ e ∈ rest, e.1.Proper := fun e he => hproper e (List.mem_cons_of_mem _ he)
    have hfirst {x : Range} (hx : x ∈ rangesOf rest) : e.Apart (.replace x.first x.last x.text) :=
      hhead _ (List.mem_map_of_mem (mem_rangesOf.1 hx))
    rw [List.map_cons, List.foldlM_cons, toOption_bind]
    cases e with
    | insert index text =>
      rw [absorbedAll_cons_insert kept number fun x hx => hfirst hx]
      by_cases h : r.Encloses index
      · rw [if_pos h, ← ih kept hrest hproperRest]
        simp only [Absorbed.take, if_pos (show r.first < index ∧ index ≤ r.last from h)]
        rfl
      · rw [if_neg h, ← ih _ hrest hproperRest]
        simp only [Absorbed.take, if_neg (show ¬ (r.first < index ∧ index ≤ r.last) from h)]
        rfl
    | replace first last text =>
      rw [toOption_take_replace (hproper _ List.mem_cons_self) number kept,
        absorbedAll_cons_replace kept number (fun y hy => hfirst hy) hproperRest]
      split
      · split
        · exact ih (r := r.hull _) kept hrest hproperRest
        · rfl
      · exact ih _ hrest hproperRest

/-- **A replacement is taken behind what came before**, if it can absorb all ranges that it comes up
against: it grows over them, and of the edits those stay that it spares. Otherwise it is refused.
The replacements before it lie apart, and none is reversed. -/
theorem toOption_absorb {r : Range} {taken : List (Edit × Nat)}
    (hapart : (taken.map Prod.fst).Pairwise Apart) (hproper : ∀ e ∈ taken, e.1.Proper) :
    (absorb (taken.map Prod.fst) (.replace r.first r.last r.text)).toOption =
      if ∀ e ∈ r.touched (rangesOf taken), r.Absorbs e then
        some ((taken.filter (r.Spares (r.grown (rangesOf taken)))).map Prod.fst ++
          [.replace (r.grown (rangesOf taken)).first (r.grown (rangesOf taken)).last r.text])
      else none := by
  rw [absorb, toOption_map, toOption_foldlM_take [] hapart hproper, absorbedAll]
  split <;> simp

/-! ## Inserts -/

/-- An insert of a program, with its number in the queue. -/
structure Insertion where
  index : Nat
  text : String
  /-- The number of the edit in its queue. -/
  number : Nat
  deriving DecidableEq, Repr

namespace Insertion

/-- The insert that a numbered edit is. -/
def of? : Edit × Nat → Option Insertion
  | (.insert index text, number) => some ⟨index, text, number⟩
  | (.replace .., _) => none

/-- The insert is inside a replacement that was queued later, which drops it. -/
def DroppedBy (i : Insertion) (r : Range) : Prop := i.number < r.number ∧ r.Encloses i.index

/-- The insert is inside a replacement that was queued before it, which makes the program a
misuse. -/
def RefusedBy (i : Insertion) (r : Range) : Prop := r.number < i.number ∧ r.Encloses i.index

instance (i : Insertion) (r : Range) : Decidable (i.DroppedBy r) :=
  inferInstanceAs (Decidable (_ ∧ _))

instance (i : Insertion) (r : Range) : Decidable (i.RefusedBy r) :=
  inferInstanceAs (Decidable (_ ∧ _))

end Insertion

/-- The inserts of a program, oldest first. -/
def insertions (edits : List Edit) : List Insertion := edits.zipIdx.filterMap Insertion.of?

lemma number_lt_of_mem {edits : List Edit} {i : Insertion} (hi : i ∈ insertions edits) :
    i.number < edits.length := by
  obtain ⟨⟨e, number⟩, he, hof⟩ := List.mem_filterMap.1 hi
  have hlt := List.snd_lt_of_mem_zipIdx he
  cases e with
  | insert index text =>
    obtain rfl := Option.some.inj hof
    simpa using hlt
  | replace => cases hof

/-- The inserts that are not dropped by a range in force. -/
def keptInsertions (edits : List Edit) (ranges : List Range) : List Insertion :=
  (insertions edits).filter fun i => ∀ r ∈ ranges, ¬ i.DroppedBy r

/-! ## A program of replacements -/

/-- What is left of a program once its replacements are settled: the ranges in force and the inserts
that they do not drop, in the order of the queue. -/
structure Taken (edits : List Edit) (ranges : List Range) (taken : List (Edit × Nat)) : Prop where
  ranges_eq : rangesOf taken = ranges
  insertions_eq : taken.filterMap Insertion.of? = keptInsertions edits ranges
  sorted : taken.Pairwise fun e e' => e.2 < e'.2
  lt_length : ∀ e ∈ taken, e.2 < edits.length
  apart : (taken.map Prod.fst).Pairwise Apart
  proper : ∀ e ∈ taken, e.1.Proper

namespace Taken

variable {edits : List Edit} {rs : List Range} {taken : List (Edit × Nat)}

lemma empty : Taken [] [] [] := ⟨rfl, rfl, .nil, by simp, .nil, by simp⟩

lemma number_lt (h : Taken edits rs taken) {r : Range} (hr : r ∈ rs) : r.number < edits.length :=
  h.lt_length _ (mem_rangesOf.1 (h.ranges_eq ▸ hr))

lemma range_proper (h : Taken edits rs taken) {r : Range} (hr : r ∈ rs) : r.first ≤ r.last :=
  proper_of_mem_rangesOf h.proper (h.ranges_eq ▸ hr)

/-- Ranges in force do not overlap. -/
lemma ranges_apart (h : Taken edits rs taken) : rs.Pairwise Range.Apart := by
  have hapart := List.pairwise_map.1 h.apart
  rw [← h.ranges_eq, rangesOf, List.pairwise_filterMap]
  refine hapart.imp ?_
  rintro ⟨_ | ⟨first, last, text⟩, number⟩ ⟨_ | ⟨first', last', text'⟩, number'⟩ he r hr r' hr'
  all_goals first | cases hr; done | cases hr'; done | skip
  obtain rfl := Option.some.inj hr
  obtain rfl := Option.some.inj hr'
  exact he

/-- Only one range in force covers a token. -/
lemma eq_of_covers (h : Taken edits rs taken) {r r' : Range} {k : Nat} (hr : r ∈ rs) (hr' : r' ∈ rs)
    (hk : r.Covers k) (hk' : r'.Covers k) : r = r' := by
  by_contra hne
  have hapart := h.ranges_apart.forall hr hr' hne
  simp only [Range.Apart, Range.Covers] at *
  omega

/-- A replacement that has grown is apart from what it did not come up against. -/
lemma apart_grown (h : Taken edits rs taken) {r x : Range} (hr : r.first ≤ r.last) (hx : x ∈ rs)
    (hnot : ¬ r.Overlaps x) : x.Apart (r.grown rs) := by
  rw [← Range.not_overlaps_iff]
  intro hoverlaps
  obtain ⟨k, hk, hgrown⟩ : ∃ k, x.Covers k ∧ (r.grown rs).Covers k := by
    have hproper := h.range_proper hx
    have hbounds : (r.grown rs).Covers r.first :=
      (Range.covers_grown r rs _).2 (.inl ⟨Nat.le_refl _, hr⟩)
    refine ⟨max x.first (r.grown rs).first, ?_⟩
    simp only [Range.Covers, Range.Overlaps] at *
    omega
  rcases (Range.covers_grown r rs k).1 hgrown with hcovers | ⟨y, hy, hcovers⟩
  · apply hnot
    simp only [Range.Covers, Range.Overlaps] at *
    omega
  · obtain ⟨hmem, htouched⟩ := List.mem_filter.1 hy
    obtain rfl := h.eq_of_covers hx hmem hk hcovers
    exact hnot (by simpa using htouched)

lemma insert (h : Taken edits rs taken) (index : Nat) (text : String) :
    Taken (edits ++ [.insert index text]) rs
      (taken ++ [(.insert index text, edits.length)]) where
  ranges_eq := by
    rw [rangesOf, List.filterMap_append, ← rangesOf, h.ranges_eq]
    simp [Range.of?]
  insertions_eq := by
    have hnew : ∀ r ∈ rs, ¬ (⟨index, text, edits.length⟩ : Insertion).DroppedBy r :=
      fun r hr hdropped => Nat.lt_asymm (h.number_lt hr) hdropped.1
    rw [List.filterMap_append, h.insertions_eq, keptInsertions, keptInsertions, insertions,
      insertions, List.zipIdx_append, List.filterMap_append, List.filter_append, Nat.zero_add]
    congr 1
    symm
    exact List.filter_eq_self.2 fun i hi => by
      obtain rfl := List.mem_singleton.1 hi
      simpa using hnew
  sorted := by
    rw [List.pairwise_append]
    refine ⟨h.sorted, List.pairwise_singleton _ _, fun e he e' he' => ?_⟩
    obtain rfl := List.mem_singleton.1 he'
    exact h.lt_length e he
  lt_length e he := by
    rw [List.length_append, List.length_singleton]
    rcases List.mem_append.1 he with he | he
    · exact Nat.lt_succ_of_lt (h.lt_length e he)
    · obtain rfl := List.mem_singleton.1 he
      exact Nat.lt_succ_self _
  apart := by
    rw [List.map_append, List.pairwise_append]
    refine ⟨h.apart, List.pairwise_singleton _ _, fun e _ e' he' => ?_⟩
    obtain rfl := List.mem_singleton.1 he'
    cases e <;> trivial
  proper e he := by
    rcases List.mem_append.1 he with he | he
    · exact h.proper e he
    · obtain rfl := List.mem_singleton.1 he
      trivial

lemma rangesOf_filter_spares (r grown : Range) (edits : List (Edit × Nat)) :
    rangesOf (edits.filter (r.Spares grown)) = (rangesOf edits).filter (¬ r.Overlaps ·) := by
  rw [rangesOf, rangesOf, List.filterMap_filter, List.filter_filterMap]
  refine List.filterMap_congr fun e _ => ?_
  obtain ⟨_ | ⟨first, last, text⟩, number⟩ := e
  · simp [Range.of?]
  · by_cases h : r.Overlaps ⟨first, last, text, number⟩
    · simp [Range.of?, Range.Spares, Option.filter, h]
    · simp [Range.of?, Range.Spares, Option.filter, h]

lemma insertions_filter_spares (r grown : Range) (edits : List (Edit × Nat)) :
    (edits.filter (r.Spares grown)).filterMap Insertion.of? =
      (edits.filterMap Insertion.of?).filter (¬ grown.Encloses ·.index) := by
  rw [List.filterMap_filter, List.filter_filterMap]
  refine List.filterMap_congr fun e _ => ?_
  obtain ⟨⟨index, text⟩ | _, number⟩ := e
  · by_cases h : grown.Encloses index
    · simp [Insertion.of?, Range.Spares, Option.filter, h]
    · simp [Insertion.of?, Range.Spares, Option.filter, h]
  · simp [Insertion.of?]

/-- An insert that the ranges before a replacement keep is dropped behind it if and only if it is
inside what the replacement has grown to. -/
lemma dropped_iff {r : Range} {i : Insertion} (hi : i.number < r.number) :
    (∀ x ∈ rs.filter (¬ r.Overlaps ·) ++ [r.grown rs], ¬ i.DroppedBy x) ↔
      ¬ (r.grown rs).Encloses i.index ∧ ∀ x ∈ rs, ¬ i.DroppedBy x := by
  have hlater : i.DroppedBy (r.grown rs) ↔ (r.grown rs).Encloses i.index := by
    rw [Insertion.DroppedBy, Range.number_grown]
    exact and_iff_right hi
  constructor
  · intro hkept
    have hgrown : ¬ (r.grown rs).Encloses i.index := by
      rw [← hlater]
      exact hkept _ (by simp)
    refine ⟨hgrown, fun x hx hdropped => ?_⟩
    by_cases htouched : r.Overlaps x
    · exact hgrown ((Range.encloses_grown r rs _).2
        (.inr ⟨x, List.mem_filter.2 ⟨hx, by simpa using htouched⟩, hdropped.2⟩))
    · exact hkept x (by simp [hx, htouched]) hdropped
  · rintro ⟨hgrown, hkept⟩ x hx
    rcases List.mem_append.1 hx with hx | hx
    · exact hkept x (List.mem_of_mem_filter hx)
    · obtain rfl := List.mem_singleton.1 hx
      rwa [hlater]

lemma replace (h : Taken edits rs taken) {r : Range} (hproper : r.first ≤ r.last)
    (hnumber : r.number = edits.length) :
    Taken (edits ++ [.replace r.first r.last r.text]) (rs.filter (¬ r.Overlaps ·) ++ [r.grown rs])
      (taken.filter (r.Spares (r.grown rs)) ++
        [(.replace (r.grown rs).first (r.grown rs).last r.text, edits.length)]) where
  ranges_eq := by
    rw [rangesOf, List.filterMap_append, ← rangesOf, rangesOf_filter_spares, h.ranges_eq]
    congr 1
    rw [← hnumber, ← Range.number_grown r rs, ← Range.text_grown r rs]
    rfl
  insertions_eq := by
    rw [List.filterMap_append, insertions_filter_spares, h.insertions_eq, keptInsertions,
      keptInsertions, insertions, insertions, List.zipIdx_append, List.filterMap_append]
    simp only [List.filter_filter, List.zipIdx_singleton, List.filterMap_cons, Insertion.of?,
      List.filterMap_nil, List.append_nil]
    refine List.filter_congr fun i hi => ?_
    rw [← Bool.decide_and, decide_eq_decide, dropped_iff (hnumber ▸ number_lt_of_mem hi)]
  sorted := by
    rw [List.pairwise_append]
    refine ⟨h.sorted.filter _, List.pairwise_singleton _ _, fun e he e' he' => ?_⟩
    obtain rfl := List.mem_singleton.1 he'
    exact h.lt_length e (List.mem_of_mem_filter he)
  lt_length e he := by
    rw [List.length_append, List.length_singleton]
    rcases List.mem_append.1 he with he | he
    · exact Nat.lt_succ_of_lt (h.lt_length e (List.mem_of_mem_filter he))
    · obtain rfl := List.mem_singleton.1 he
      exact Nat.lt_succ_self _
  apart := by
    rw [List.map_append, List.pairwise_append]
    refine ⟨h.apart.sublist (List.filter_sublist.map _), List.pairwise_singleton _ _, ?_⟩
    intro e he e' he'
    obtain rfl := List.mem_singleton.1 he'
    obtain ⟨⟨e, number⟩, hmem, rfl⟩ := List.mem_map.1 he
    obtain ⟨htaken, hfilter⟩ := List.mem_filter.1 hmem
    have hspared : r.Spares (r.grown rs) (e, number) := by simpa using hfilter
    cases e with
    | insert index text => exact hspared
    | replace first last text =>
      have hrange : (⟨first, last, text, number⟩ : Range) ∈ rs := by
        rw [← h.ranges_eq]
        exact mem_rangesOf.2 htaken
      exact h.apart_grown hproper hrange hspared
  proper e he := by
    rcases List.mem_append.1 he with he | he
    · exact h.proper e (List.mem_of_mem_filter he)
    · obtain rfl := List.mem_singleton.1 he
      exact Range.first_le_last_grown hproper rs

end Taken

section

variable (edits : List Edit)

lemma rangesOf_append_insert (index : Nat) (text : String) :
    rangesOf (edits ++ [Edit.insert index text]).zipIdx = rangesOf edits.zipIdx := by
  rw [rangesOf, List.zipIdx_append, List.filterMap_append]
  simp [rangesOf, Range.of?]

lemma rangesOf_append_replace (first last : Nat) (text : Option String) :
    rangesOf (edits ++ [Edit.replace first last text]).zipIdx =
      rangesOf edits.zipIdx ++ [⟨first, last, text, edits.length⟩] := by
  rw [rangesOf, List.zipIdx_append, List.filterMap_append]
  simp [rangesOf, Range.of?]

lemma ranges_append_insert (index : Nat) (text : String) :
    ranges (edits ++ [.insert index text]) = ranges edits := by
  rw [ranges, ← rangesOf, rangesOf_append_insert]
  rfl

lemma ranges_append_replace (first last : Nat) (text : Option String) :
    ranges (edits ++ [.replace first last text]) =
      ranges edits >>= Range.succeed ⟨first, last, text, edits.length⟩ := by
  rw [ranges, ← rangesOf, rangesOf_append_replace, List.foldlM_append]
  simp [ranges, rangesOf]

end

/-- Whatever growing keeps of two ranges, a range in force has it if and only if one of the
replacements had it. -/
lemma exists_range_iff {P : Range → Prop}
    (hP : ∀ r e : Range, r.Overlaps e → (P (r.hull e) ↔ P r ∨ P e)) {edits : List Edit}
    {rs : List Range} (hrs : ranges edits = some rs) :
    (∃ r ∈ rs, P r) ↔ ∃ r ∈ rangesOf edits.zipIdx, P r := by
  induction edits using List.reverseRecOn generalizing rs with
  | nil =>
    obtain rfl := Option.some.inj hrs
    rfl
  | append_singleton edits e ih =>
    cases e with
    | insert index text =>
      rw [ranges_append_insert] at hrs
      rw [rangesOf_append_insert, ih hrs]
    | replace first last text =>
      rw [ranges_append_replace] at hrs
      obtain ⟨earlier, hearlier, hlast⟩ := Option.bind_eq_some_iff.1 hrs
      rw [rangesOf_append_replace]
      obtain ⟨r, hr⟩ : ∃ r : Range, r = ⟨first, last, text, edits.length⟩ := ⟨_, rfl⟩
      rw [← hr] at hlast ⊢
      obtain ⟨-, hsucceed⟩ := Option.ite_none_right_eq_some.1 hlast
      obtain rfl := Option.some.inj hsucceed
      have hsplit : (∃ x ∈ earlier, P x) ↔ (∃ x ∈ earlier.filter (¬ r.Overlaps ·), P x) ∨
          ∃ x ∈ r.touched earlier, P x := by
        constructor
        · rintro ⟨x, hx, hPx⟩
          by_cases htouched : r.Overlaps x
          · exact .inr ⟨x, List.mem_filter.2 ⟨hx, decide_eq_true htouched⟩, hPx⟩
          · exact .inl ⟨x, List.mem_filter.2 ⟨hx, decide_eq_true htouched⟩, hPx⟩
        · rintro (⟨x, hx, hPx⟩ | ⟨x, hx, hPx⟩)
          all_goals exact ⟨x, List.mem_of_mem_filter hx, hPx⟩
      have happend (l : List Range) (y : Range) : (∃ x ∈ l ++ [y], P x) ↔ (∃ x ∈ l, P x) ∨ P y := by
        simp [or_and_right, exists_or]
      rw [happend, happend, ← ih hearlier, hsplit, Range.grown_iff hP, or_assoc,
        or_comm (a := P r)]

lemma exists_rangesOf_zipIdx_iff {Q : Nat → Nat → Prop} (edits : List Edit) :
    (∃ r ∈ rangesOf edits.zipIdx, Q r.first r.last) ↔ ∃ e ∈ edits, ∃ p ∈ e.place?, Q p.1 p.2 := by
  constructor
  · rintro ⟨r, hr, hQ⟩
    exact ⟨_, List.fst_mem_of_mem_zipIdx (mem_rangesOf.1 hr), (r.first, r.last), rfl, hQ⟩
  · rintro ⟨_ | ⟨first, last, text⟩, he, p, hp, hQ⟩
    · cases hp
    · obtain rfl := Option.some.inj hp
      obtain ⟨number, hnumber⟩ := List.mem_iff_getElem?.1 he
      exact ⟨⟨first, last, text, number⟩,
        mem_rangesOf.2 (List.mk_mem_zipIdx_iff_getElem?.2 hnumber), hQ⟩

section

variable {edits : List Edit} {rs : List Range} (hrs : ranges edits = some rs) (k : Nat)

include hrs

/-- The ranges in force cover exactly the tokens that the replacements of the program are of,
whatever has grown or was taken in. -/
theorem exists_covers_iff : (∃ r ∈ rs, r.Covers k) ↔ ∃ e ∈ edits, e.Covers k :=
  (exists_range_iff (P := (Range.Covers · k)) (fun _ _ => Range.covers_hull) hrs).trans
    (exists_rangesOf_zipIdx_iff (Q := fun first last => first ≤ k ∧ k ≤ last) edits)

/-- The ranges in force enclose the places that the replacements do: what grows together has
overlapped. -/
theorem exists_encloses_iff : (∃ r ∈ rs, r.Encloses k) ↔ ∃ e ∈ edits, e.Encloses k :=
  (exists_range_iff (P := (Range.Encloses · k)) (fun _ _ => Range.encloses_hull) hrs).trans
    (exists_rangesOf_zipIdx_iff (Q := fun first last => first < k ∧ k ≤ last) edits)

end

/-- **What is left of a program once its replacements are settled.** Either its ranges are settled
one after another, and the first pass leaves the edits that have survived that; or both refuse the
program. No replacement is reversed. -/
theorem taken_of_foldReplaces {edits : List Edit} (hproper : ∀ e ∈ edits, e.Proper) :
    (∃ rs taken, ranges edits = some rs ∧
      (foldReplaces edits).toOption = some (taken.map Prod.fst) ∧ Taken edits rs taken) ∨
      ranges edits = none ∧ (foldReplaces edits).toOption = none := by
  induction edits using List.reverseRecOn with
  | nil => exact .inl ⟨[], [], rfl, rfl, .empty⟩
  | append_singleton edits e ih =>
    have hfold : (foldReplaces (edits ++ [e])).toOption =
        (foldReplaces edits).toOption >>= fun taken => (absorb taken e).toOption := by
      rw [foldReplaces, List.foldlM_append, toOption_bind, foldReplaces]
      simp
    have hinit := ih fun e he => hproper e (List.mem_append_left _ he)
    rw [hfold]
    cases e with
    | insert index text =>
      rw [ranges_append_insert]
      rcases hinit with ⟨rs, taken, hrs, htaken, h⟩ | ⟨hrs, hnone⟩
      · rw [hrs, htaken]
        exact .inl ⟨rs, _, rfl, by simp [absorb]; rfl, h.insert index text⟩
      · rw [hrs, hnone]
        exact .inr ⟨rfl, rfl⟩
    | replace first last text =>
      rw [ranges_append_replace]
      rcases hinit with ⟨rs, taken, hrs, htaken, h⟩ | ⟨hrs, hnone⟩
      · obtain ⟨r, hr⟩ : ∃ r : Range, r = ⟨first, last, text, edits.length⟩ := ⟨_, rfl⟩
        have hreplace : Edit.replace first last text = .replace r.first r.last r.text := by rw [hr]
        have hranged : r.first ≤ r.last := by
          rw [hr]
          exact hproper (.replace first last text) (by simp)
        have habsorb := toOption_absorb (r := r) h.apart h.proper
        rw [h.ranges_eq] at habsorb
        rw [hrs, htaken, ← hr, hreplace]
        by_cases hall : ∀ e ∈ r.touched rs, r.Absorbs e
        · rw [if_pos hall] at habsorb
          refine .inl ⟨_, _, if_pos hall, ?_, h.replace hranged (by rw [hr])⟩
          rw [List.map_append]
          exact habsorb
        · rw [if_neg hall] at habsorb
          exact .inr ⟨if_neg hall, habsorb⟩
      · rw [hrs, hnone]
        exact .inr ⟨rfl, rfl⟩

end Edit
end Lookahead
