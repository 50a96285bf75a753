import Lookahead.Proofs.Edit.Meaning

/-!
# What deletions leave of a range

A program that only deletes is never refused, and what it leaves is said token by token, for text
that starts and ends anywhere (`render_obey_delete`).  Deletions that overlap have become one, and
one that starts in front of the text does not count, since only the edit that starts at a token is
looked up there.  So a token is gone if it is deleted, unless the deletions that reach it go on
without a break from in front of the text (`Gone`).
-/

namespace Lookahead

namespace Edit

variable {edits : List Edit} {rs : List Range} {taken : List (Edit × Nat)}

/-- The edit deletes: it is a replacement by nothing. -/
def Deletes : Edit → Prop
  | replace _ _ none => True
  | _ => False

/-- A program that only deletes is not refused, and all its ranges in force are deletions. -/
lemma ranges_of_deletes (h : ∀ e ∈ edits, e.Deletes) :
    ∃ rs, ranges edits = some rs ∧ ∀ r ∈ rs, r.Deletes := by
  induction edits using List.reverseRecOn with
  | nil => exact ⟨[], rfl, by simp⟩
  | append_singleton edits e ih =>
    obtain ⟨rs, hrs, hdeletes⟩ := ih fun e he => h e (List.mem_append_left _ he)
    have hlast := h e (by simp)
    obtain _ | ⟨first, last, _ | _⟩ := e
    · exact hlast.elim
    · obtain ⟨r, hr⟩ : ∃ r : Range, r = ⟨first, last, none, edits.length⟩ := ⟨_, rfl⟩
      have hnew : r.Deletes := by rw [hr]; rfl
      have habsorbs : ∀ x ∈ r.touched rs, r.Absorbs x := fun x hx =>
        .inr ⟨hnew, hdeletes x (List.mem_of_mem_filter hx)⟩
      refine ⟨rs.filter (¬ r.Overlaps ·) ++ [r.grown rs], ?_, fun x hx => ?_⟩
      · rw [ranges_append_replace, hrs, ← hr]
        exact if_pos habsorbs
      · rcases List.mem_append.1 hx with hx | hx
        · exact hdeletes x (List.mem_of_mem_filter hx)
        · obtain rfl := List.mem_singleton.1 hx
          exact (Range.text_grown r rs).trans hnew
    · exact hlast.elim

lemma insertions_of_deletes (h : ∀ e ∈ edits, e.Deletes) : insertions edits = [] := by
  rw [List.eq_nil_iff_forall_not_mem]
  exact fun i hi => h _ (mem_of_mem_insertions hi)

/-- What is left of a program that only deletes shows nothing. -/
lemma Taken.shownAt_of_deletes (h : Taken edits rs taken) (hinsertions : insertions edits = [])
    (hdeletes : ∀ r ∈ rs, r.Deletes) (k : Nat) : shownAt k (taken.map Prod.fst) = "" := by
  rw [shownAt, h.join_insertedAt, h.join_replacementAt, lead, keptInsertions, hinsertions]
  cases hfind : rs.find? (·.first = k) with
  | none => rfl
  | some r =>
    have hnone : r.text = none := hdeletes r (List.mem_of_find?_eq_some hfind)
    simp [hnone]

/-- Behind the last token nothing shows. -/
lemma Taken.tail_of_deletes (h : Taken edits rs taken) (hinsertions : insertions edits = [])
    {reduced : List Edit} {R : Edit → Edit → Prop} (hshows : Shows R (taken.map Prod.fst) reduced)
    (last : Nat) : tail reduced last = "" := by
  have hreplaces : ∀ e ∈ reduced, inserted? e = none := by
    refine hshows.forall_mem (fun e => by cases e <;> simp [bare, inserted?]) fun e he => ?_
    obtain ⟨⟨e, number⟩, hmem, rfl⟩ := List.mem_map.1 he
    cases e with
    | replace => rfl
    | insert index text =>
      have hi : (⟨index, text, number⟩ : Insertion) ∈ keptInsertions edits rs :=
        h.mem_keptInsertions_iff.2 hmem
      rw [keptInsertions, hinsertions] at hi
      cases hi
  have hnil : (List.mergeSort (reduced.filter fun e => last < e.start)
      fun a b => a.start ≤ b.start).filterMap inserted? = [] := by
    rw [List.filterMap_eq_nil_iff]
    exact fun e he => hreplaces e (List.mem_of_mem_filter (List.mem_mergeSort.1 he))
  exact congrArg String.join hnil

/-- A range in force starts behind the start of the text and covers a token if the token is deleted
and there is a break in front of it. -/
lemma Taken.exists_covers_from_iff (h : Taken edits rs taken) (hrs : ranges edits = some rs)
    (first k : Nat) : (∃ r ∈ rs, first ≤ r.first ∧ r.Covers k) ↔
      (∃ e ∈ edits, e.Covers k) ∧ ∃ i ≤ k, first ≤ i ∧ ¬ ∃ e ∈ edits, e.Encloses i := by
  simp only [← exists_covers_iff hrs, ← exists_encloses_iff hrs]
  constructor
  · rintro ⟨r, hr, hle, hcovers⟩
    -- the break is where the range starts, which no other range can enclose
    refine ⟨⟨r, hr, hcovers⟩, r.first, hcovers.1, hle, fun ⟨r', hr', hin⟩ => ?_⟩
    obtain rfl := h.eq_of_covers hr hr' ⟨Nat.le_refl _, h.range_proper hr⟩
      ⟨Nat.le_of_lt hin.1, hin.2⟩
    exact Nat.lt_irrefl _ hin.1
  · rintro ⟨⟨r, hr, hcovers⟩, i, hi, hle, hno⟩
    refine ⟨r, hr, Nat.le_trans hle ?_, hcovers⟩
    by_contra hlt
    exact hno ⟨r, hr, Nat.lt_of_not_le hlt, Nat.le_trans hi hcovers.2⟩

/-- **The text that deletions leave**, from token `first` to token `last`. All edits are proper
deletions. They are never refused, and a token is left out if a range that they come to covers it
which starts at `first` or behind. -/
theorem render_of_deletes (hproper : ∀ e ∈ edits, e.Proper) (hdeletes : ∀ e ∈ edits, e.Deletes)
    (tokens : List Token) (first last : Nat) :
    ∃ rs taken, ranges edits = some rs ∧ Taken edits rs taken ∧
      render edits tokens first last = .ok (String.join
        ((((tokens.take (last + 1)).drop first).zipIdx first).map fun p =>
          if ∃ r ∈ rs, first ≤ r.first ∧ r.Covers p.2 then "" else tokenText p.1)) := by
  obtain ⟨rs, hrs, hranges⟩ := ranges_of_deletes hdeletes
  have hinsertions := insertions_of_deletes hdeletes
  rcases reduce_spec hproper with ⟨rs', taken, hrs', h, hreduce⟩ | ⟨hnone, -⟩
  · obtain rfl := Option.some.inj (hrs.symm.trans hrs')
    rcases hreduce with ⟨⟨reduced, hok, hshows⟩, -⟩ | ⟨-, hblocked⟩
    · refine ⟨rs, taken, hrs, h, ?_⟩
      have hshown (k : Nat) : shownAt k reduced = "" :=
        (hshows.shown k).trans (h.shownAt_of_deletes hinsertions hranges k)
      have hcovers (k : Nat) : CoversFrom reduced first k ↔
          ∃ r ∈ rs, first ≤ r.first ∧ r.Covers k := by
        rw [CoversFrom, hshows.places_eq, ← CoversFrom, h.coversFrom_iff]
      rw [render_eq, hok, Except.map, h.tail_of_deletes hinsertions hshows, ite_self,
        String.append_empty, renderFrom_eq hshows.pairwise (hshows.proper (by simpa using h.proper))
          (skips_start reduced first) (Nat.le_refl first)]
      simp [pieceAt, hshown, hcovers]
    · refine absurd (h.pairwise_not_blocks_iff.2 ?_) hblocked
      simp [hinsertions]
  · simp [hrs] at hnone

end Edit

namespace EditQueue

/-- Token `k` is missing from text that starts at token `first`: it is deleted, and somewhere from
there on up to it no deletion goes on from one token to the next. -/
def Gone (deletions : List (Nat × Nat)) (first k : Nat) : Prop :=
  (∃ d ∈ deletions, d.1 ≤ k ∧ k ≤ d.2) ∧
    ∃ i ≤ k, first ≤ i ∧ ¬ ∃ d ∈ deletions, d.1 < i ∧ i ≤ d.2

instance (deletions : List (Nat × Nat)) (first k : Nat) : Decidable (Gone deletions first k) :=
  inferInstanceAs (Decidable (_ ∧ ∃ i ≤ k, first ≤ i ∧ ¬ ∃ d ∈ deletions, d.1 < i ∧ i ≤ d.2))

/-- Where no deletion goes on from in front of the text, what is deleted is gone. -/
theorem gone_iff {deletions : List (Nat × Nat)} {first k : Nat}
    (h : ¬ ∃ d ∈ deletions, d.1 < first ∧ first ≤ d.2) (hk : first ≤ k) :
    Gone deletions first k ↔ ∃ d ∈ deletions, d.1 ≤ k ∧ k ≤ d.2 :=
  and_iff_left ⟨first, hk, Nat.le_refl first, h⟩

lemma exists_place_iff {Q : Nat → Nat → Prop} (hQ : ∀ first last, Q first last → first ≤ last)
    (deletions : List (Nat × Nat)) :
    (∃ e ∈ (deletions.map fun d => Request.delete d.1 d.2).filterMap Request.edit?,
        ∃ p ∈ e.place?, Q p.1 p.2) ↔ ∃ d ∈ deletions, Q d.1 d.2 := by
  constructor
  · rintro ⟨e, he, p, hp, hin⟩
    obtain ⟨r, hr, hedit⟩ := List.mem_filterMap.1 he
    obtain ⟨d, hd, rfl⟩ := List.mem_map.1 hr
    obtain ⟨-, hsome⟩ := Option.ite_none_left_eq_some.1 hedit
    obtain rfl := Option.some.inj hsome
    obtain rfl := Option.some.inj hp
    exact ⟨d, hd, hin⟩
  · rintro ⟨d, hd, hin⟩
    refine ⟨.replace d.1 d.2 none, List.mem_filterMap.2 ⟨_, List.mem_map_of_mem hd, ?_⟩, d, rfl,
      hin⟩
    exact if_neg (Nat.not_lt.2 (hQ _ _ hin))

lemma join_map_ite {α : Type} (p : α → Prop) [DecidablePred p] (f : α → String) (l : List α) :
    String.join (l.map fun x => if p x then "" else f x) =
      String.join ((l.filter fun x => ¬ p x).map f) := by
  induction l with
  | nil => rfl
  | cons x rest ih =>
    by_cases hx : p x
    · simpa [hx] using ih
    · simpa [hx] using ih

/-- **What deletions leave of a range of tokens.**  The deletions can be counted on from
(`Request.Counts`); the tokens, the range and the order are any, and so is the way in which the
deletions overlap or reach past the end.  Then the program is never refused, and what is left is the
text of the tokens that are not gone. -/
theorem render_obey_delete (deletions : List (Nat × Nat))
    (_hcounts : ∀ d ∈ deletions, (Request.delete d.1 d.2).Counts) (program : String)
    (tokens : List Token) (first last : Nat) :
    ((deletions.map fun d => Request.delete d.1 d.2).foldl (obey program) .empty).render tokens
        program first last =
      .ok (String.join (((((tokens.take (last + 1)).drop first).zipIdx first).filter
        fun p => ¬ Gone deletions first p.2).map fun p => Edit.tokenText p.1)) := by
  have hdeletes : ∀ e ∈ (deletions.map fun d => Request.delete d.1 d.2).filterMap Request.edit?,
      e.Deletes := fun e he => by
    obtain ⟨r, hr, hedit⟩ := List.mem_filterMap.1 he
    obtain ⟨d, -, rfl⟩ := List.mem_map.1 hr
    obtain ⟨-, hsome⟩ := Option.ite_none_left_eq_some.1 hedit
    obtain rfl := Option.some.inj hsome
    trivial
  obtain ⟨rs, taken, hrs, h, hrender⟩ := Edit.render_of_deletes (fun e => Request.proper_of_mem)
    hdeletes tokens first last
  have hgone (k : Nat) : (∃ r ∈ rs, first ≤ r.first ∧ r.Covers k) ↔ Gone deletions first k := by
    rw [h.exists_covers_from_iff hrs, Gone]
    refine and_congr ?_ (exists_congr fun i => and_congr_right' (and_congr_right' (not_congr ?_)))
    · exact exists_place_iff (Q := fun first last => first ≤ k ∧ k ≤ last)
        (fun _ _ hin => Nat.le_trans hin.1 hin.2) deletions
    · exact exists_place_iff (Q := fun first last => first < i ∧ i ≤ last)
        (fun _ _ hin => Nat.le_trans (Nat.le_of_lt hin.1) hin.2) deletions
  rw [render, edits_foldl_obey, ← join_map_ite]
  simp only [← hgone]
  exact hrender

/-- The second deletion grows over the first one, and tokens that were gone show again. -/
theorem render_obey_delete_grown :
    (([.delete 1 2, .delete 0 1] : List Request).foldl (obey "") .empty).render
        (["a", "b", "c"].map (.ofText .firstUser)) "" 1 2 = .ok "bc" :=
  (render_obey_delete [(1, 2), (0, 1)] (by decide) "" _ 1 2).trans (by decide +kernel)

end EditQueue
end Lookahead
