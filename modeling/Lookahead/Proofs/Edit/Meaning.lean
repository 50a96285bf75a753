import Lookahead.Proofs.Edit.Rendering

/-!
# What a program of edits means

`meaning` says what comes of a program in the words of its queue.  The replacements settle among
themselves which ranges are in force (`ranges`).  An insert inside a range that was queued later is
dropped, and one inside a range that was queued before it is refused.  The text then has, for each
token in order, the inserts in front of it with the latest first, and what the token is replaced by,
or nothing if it is covered, or the token itself.

Rendering gets there by folding the program three times over, against itself, and then going through
the tokens once.  `toOption_renderAll_obey` says that it gives the same text, and is refused in the
same cases, whatever is queued.
-/

namespace Lookahead

namespace Edit

variable {edits : List Edit} {rs : List Range} {taken : List (Edit × Nat)} {k : Nat}

/-! ## The meaning -/

/-- The inserts in front of token `k` that are kept, the latest first. -/
def lead (edits : List Edit) (ranges : List Range) (k : Nat) : String :=
  String.join (((keptInsertions edits ranges).filter (·.index = k)).map Insertion.text).reverse

/-- What a token is replaced by, if a range in force starts there, or the token itself if no range
covers it. -/
def body (ranges : List Range) (tokens : List Token) (k : Nat) : String :=
  match ranges.find? (·.first = k) with
  | some r => r.text.getD ""
  | none => if ∃ r ∈ ranges, r.Covers k then "" else (tokens[k]?.map tokenText).getD ""

/-- The place that no token is behind, and no edit starts behind. -/
def reach (edits : List Edit) (tokens : List Token) : Nat :=
  edits.foldr (fun e n => max (e.start + 1) n) tokens.length

/-- The text of all tokens with a program applied, unless it is refused. -/
def meaning (edits : List Edit) (tokens : List Token) : Option String := do
  let rs ← ranges edits
  if ∃ i ∈ insertions edits, ∃ r ∈ rs, i.RefusedBy r then none
  else some (String.join
    ((List.range (reach edits tokens)).map fun k => lead edits rs k ++ body rs tokens k))

lemma length_le_reach (edits : List Edit) (tokens : List Token) :
    tokens.length ≤ reach edits tokens := by
  induction edits with
  | nil => exact Nat.le_refl _
  | cons e rest ih => exact Nat.le_trans ih (Nat.le_max_right _ _)

lemma start_lt_reach (tokens : List Token) {e : Edit} (he : e ∈ edits) :
    e.start < reach edits tokens := by
  induction edits with
  | nil => cases he
  | cons x rest ih =>
    rcases List.mem_cons.1 he with rfl | he
    · exact Nat.le_max_left _ _
    · exact Nat.lt_of_lt_of_le (ih he) (Nat.le_max_right _ _)

/-! ## What is left of a program -/

/-- Where at most one element has a property, it is the first one. -/
lemma filter_eq_toList_find? {α : Type} {p : α → Bool} {l : List α}
    (h : l.Pairwise fun a b => ¬ (p a ∧ p b)) : l.filter p = (l.find? p).toList := by
  induction l with
  | nil => rfl
  | cons a rest ih =>
    obtain ⟨hhead, hrest⟩ := List.pairwise_cons.1 h
    by_cases ha : p a
    · have hnone : rest.filter p = [] := List.filter_eq_nil_iff.2 fun b hb hpb =>
        hhead b hb ⟨ha, hpb⟩
      rw [List.filter_cons_of_pos ha, List.find?_cons_of_pos ha, hnone]
      rfl
    · rw [List.filter_cons_of_neg ha, List.find?_cons_of_neg ha, ih hrest]

namespace Taken

/-- A relation between an edit and any later one holds between the edits that are left. -/
lemma of_lt (h : Taken edits rs taken) {R : Edit → Edit → Prop}
    (hR : (taken.map Prod.fst).Pairwise R) {e e' : Edit × Nat} (he : e ∈ taken) (he' : e' ∈ taken)
    (hlt : e.2 < e'.2) : R e.1 e'.1 := by
  have hforward : taken.Pairwise fun x y => x.2 < y.2 → R x.1 y.1 := by
    refine (List.pairwise_map.1 hR).imp ?_
    exact fun hxy _ => hxy
  have hbackward : taken.Pairwise (flip fun x y => x.2 < y.2 → R x.1 y.1) :=
    h.sorted.imp fun hlt hgt => absurd hgt (Nat.lt_asymm hlt)
  exact hforward.forall_of_forall_of_flip (fun x _ hlt => absurd hlt (Nat.lt_irrefl _)) hbackward
    he he' hlt

lemma mem_keptInsertions_iff (h : Taken edits rs taken) {i : Insertion} :
    i ∈ keptInsertions edits rs ↔ (.insert i.index i.text, i.number) ∈ taken := by
  rw [← h.insertions_eq, List.mem_filterMap]
  constructor
  · rintro ⟨⟨_ | _, number⟩, he, hof⟩
    · obtain rfl := Option.some.inj hof
      exact he
    · cases hof
  · exact fun he => ⟨_, he, rfl⟩

lemma mem_ranges_iff (h : Taken edits rs taken) {r : Range} :
    r ∈ rs ↔ (.replace r.first r.last r.text, r.number) ∈ taken := by
  rw [← h.ranges_eq]
  exact mem_rangesOf

/-- An insert is refused if it is inside a range in force that was queued before it. -/
lemma pairwise_not_blocks_iff (h : Taken edits rs taken) :
    (taken.map Prod.fst).Pairwise (¬ Blocks · ·) ↔
      ¬ ∃ i ∈ insertions edits, ∃ r ∈ rs, i.RefusedBy r := by
  constructor
  · rintro hfree ⟨i, hi, r, hr, hlt, hin⟩
    -- ranges in force do not overlap, so that no other one has dropped the insert
    have hkept : i ∈ keptInsertions edits rs := by
      refine List.mem_filter.2 ⟨hi, decide_eq_true fun r' hr' ⟨hlt', hin'⟩ => ?_⟩
      obtain rfl := h.eq_of_covers hr hr' ⟨Nat.le_of_lt hin.1, hin.2⟩ ⟨Nat.le_of_lt hin'.1, hin'.2⟩
      exact Nat.lt_asymm hlt hlt'
    exact h.of_lt hfree (h.mem_ranges_iff.1 hr) (h.mem_keptInsertions_iff.1 hkept) hlt hin
  · intro hfree
    rw [List.pairwise_map]
    refine h.sorted.imp_of_mem fun {e e'} he he' hlt hblocks => hfree ?_
    obtain ⟨_ | ⟨first, last, text⟩, number⟩ := e
    · exact hblocks.elim
    · obtain ⟨⟨index, text'⟩ | _, number'⟩ := e'
      · have hr : (⟨first, last, text, number⟩ : Range) ∈ rs := h.mem_ranges_iff.2 he
        have hi : (⟨index, text', number'⟩ : Insertion) ∈ keptInsertions edits rs :=
          h.mem_keptInsertions_iff.2 he'
        exact ⟨_, List.mem_of_mem_filter hi, _, hr, hlt, hblocks⟩
      · exact hblocks.elim

lemma coversFrom_iff (h : Taken edits rs taken) (a k : Nat) :
    CoversFrom (taken.map Prod.fst) a k ↔ ∃ r ∈ rs, a ≤ r.first ∧ r.Covers k := by
  constructor
  · rintro ⟨⟨first, last⟩, hp, hle, hcovers⟩
    obtain ⟨text, he⟩ := mem_places.1 hp
    obtain ⟨⟨e, number⟩, hmem, rfl⟩ := List.mem_map.1 he
    exact ⟨⟨first, last, text, number⟩, h.mem_ranges_iff.2 hmem, hle, hcovers⟩
  · rintro ⟨r, hr, hle, hcovers⟩
    exact ⟨(r.first, r.last),
      mem_places.2 ⟨r.text, List.mem_map_of_mem (h.mem_ranges_iff.1 hr)⟩, hle, hcovers⟩

lemma join_insertedAt (h : Taken edits rs taken) (k : Nat) :
    String.join ((taken.map Prod.fst).filterMap (insertedAt k)).reverse = lead edits rs k := by
  rw [lead, ← h.insertions_eq, List.filterMap_map, List.filter_filterMap, List.map_filterMap]
  congr 2
  refine List.filterMap_congr fun e _ => ?_
  obtain ⟨⟨index, text⟩ | _, number⟩ := e
  · by_cases hindex : index = k <;> simp [Insertion.of?, Option.filter, hindex]
  · rfl

lemma join_replacementAt (h : Taken edits rs taken) (k : Nat) :
    String.join ((taken.map Prod.fst).filterMap (replacementAt k)) =
      ((rs.find? (·.first = k)).map fun r => r.text.getD "").getD "" := by
  have hone : rs.Pairwise fun r r' => ¬ (decide (r.first = k) ∧ decide (r'.first = k)) :=
    h.ranges_apart.imp_of_mem fun {r r'} hr hr' hapart => by
      have hle := h.range_proper hr
      have hle' := h.range_proper hr'
      simp only [decide_eq_true_eq, Range.Apart] at *
      omega
  have htexts : (taken.map Prod.fst).filterMap (replacementAt k) =
      (rs.filter (·.first = k)).map fun r => r.text.getD "" := by
    rw [← h.ranges_eq, rangesOf, List.filterMap_map, List.filter_filterMap, List.map_filterMap]
    refine List.filterMap_congr fun e _ => ?_
    obtain ⟨_ | ⟨first, last, text⟩, number⟩ := e
    · rfl
    · by_cases hfirst : first = k <;> simp [Range.of?, Option.filter, hfirst]
  rw [htexts, filter_eq_toList_find? hone]
  cases rs.find? (·.first = k) <;> simp

/-- What shows at a token of the buffer. -/
lemma pieceAt_eq (h : Taken edits rs taken) {reduced : List Edit} {R : Edit → Edit → Prop}
    (hshows : Shows R (taken.map Prod.fst) reduced) {tokens : List Token} {t : Token}
    (ht : tokens[k]? = some t) : pieceAt reduced 0 k t = lead edits rs k ++ body rs tokens k := by
  have hcovers : CoversFrom reduced 0 k ↔ ∃ r ∈ rs, r.Covers k := by
    rw [CoversFrom, hshows.places_eq, ← CoversFrom, h.coversFrom_iff]
    simp
  rw [pieceAt, hshows.shown, shownAt, h.join_insertedAt, h.join_replacementAt, body,
    String.append_assoc, ht]
  cases hfind : rs.find? (·.first = k) with
  | none => simp [hcovers]
  | some r =>
    have hmem := List.mem_of_find?_eq_some hfind
    have hfirst : r.first = k := by simpa using List.find?_some hfind
    have hcovered : CoversFrom reduced 0 k :=
      hcovers.2 ⟨r, hmem, Nat.le_of_eq hfirst, hfirst ▸ h.range_proper hmem⟩
    simp [hcovered]

end Taken

/-- Every range in force starts where one of the replacements does. -/
lemma first_lt_of_ranges (h : Taken edits rs taken) (hrs : ranges edits = some rs) {n : Nat}
    (hinside : ∀ e ∈ edits, ∀ p ∈ e.place?, p.1 < n) {r : Range} (hr : r ∈ rs) : r.first < n := by
  have hfirst : r.Covers r.first := ⟨Nat.le_refl _, h.range_proper hr⟩
  obtain ⟨e, he, p, hp, hcovers⟩ := (exists_covers_iff hrs r.first).1 ⟨r, hr, hfirst⟩
  have hlt := hinside e he p hp
  -- a replacement that starts before the range would enclose its first token
  by_contra hge
  obtain ⟨r', hr', hencloses⟩ := (exists_encloses_iff hrs r.first).2
    ⟨e, he, p, hp, Nat.lt_of_lt_of_le hlt (Nat.le_of_not_lt hge), hcovers.2⟩
  obtain rfl := h.eq_of_covers hr hr' hfirst ⟨Nat.le_of_lt hencloses.1, hencloses.2⟩
  exact Nat.lt_irrefl _ hencloses.1

lemma mem_of_mem_insertions {i : Insertion} (hi : i ∈ insertions edits) :
    Edit.insert i.index i.text ∈ edits := by
  obtain ⟨⟨_ | _, number⟩, he, hof⟩ := List.mem_filterMap.1 hi
  · obtain rfl := Option.some.inj hof
    exact List.fst_mem_of_mem_zipIdx he
  · cases hof

/-! ## Rendering -/

namespace Taken

section

variable {tokens : List Token} (hinside : ∀ r ∈ rs, r.first < tokens.length)

include hinside

/-- What shows behind the tokens of the buffer. -/
lemma shownAt_of_length_le (h : Taken edits rs taken) (hk : tokens.length ≤ k) :
    shownAt k (taken.map Prod.fst) = lead edits rs k ++ body rs tokens k := by
  have hnone : rs.find? (·.first = k) = none := by
    rw [List.find?_eq_none]
    intro r hr
    have hlt := hinside r hr
    rw [decide_eq_true_eq]
    omega
  rw [shownAt, h.join_insertedAt, h.join_replacementAt, body, hnone, List.getElem?_eq_none hk]
  simp

/-- No edit is left behind the reach of the program. -/
lemma start_lt (h : Taken edits rs taken) :
    ∀ e ∈ taken.map Prod.fst, e.start < reach edits tokens := by
  intro e he
  obtain ⟨⟨e, number⟩, hmem, rfl⟩ := List.mem_map.1 he
  cases e with
  | insert index text =>
    have hi : (⟨index, text, number⟩ : Insertion) ∈ keptInsertions edits rs :=
      h.mem_keptInsertions_iff.2 hmem
    exact start_lt_reach tokens (mem_of_mem_insertions (List.mem_of_mem_filter hi))
  | replace first last text =>
    have hr : (⟨first, last, text, number⟩ : Range) ∈ rs := h.mem_ranges_iff.2 hmem
    exact Nat.lt_of_lt_of_le (hinside _ hr) (length_le_reach edits tokens)

lemma text_eq (h : Taken edits rs taken) {reduced : List Edit}
    (hshows : Shows Clear (taken.map Prod.fst) reduced) (htokens : tokens ≠ []) :
    renderFrom reduced 0 0 tokens ++ tail reduced (tokens.length - 1) = String.join
      ((List.range (reach edits tokens)).map fun k => lead edits rs k ++ body rs tokens k) := by
  have hlast : tokens.length - 1 + 1 = tokens.length :=
    Nat.sub_add_cancel (List.length_pos_iff.2 htokens)
  have hproper := hshows.proper (by simpa using h.proper)
  have hreach := hshows.forall_mem (P := (start · < reach edits tokens))
    (fun e => by cases e <;> rfl) (h.start_lt hinside)
  have hplaces : ∀ p ∈ reduced.filterMap place?, p.1 ≤ tokens.length - 1 := by
    rw [hshows.places_eq]
    intro p hp
    obtain ⟨text, he⟩ := mem_places.1 hp
    obtain ⟨⟨e, number⟩, hmem, rfl⟩ := List.mem_map.1 he
    have hr : (⟨p.1, p.2, text, number⟩ : Range) ∈ rs := h.mem_ranges_iff.2 hmem
    exact Nat.le_sub_one_of_lt (hinside _ hr)
  have hlength := length_le_reach edits tokens
  have hsplit : List.range (reach edits tokens) = List.range' 0 tokens.length ++
      List.range' tokens.length (reach edits tokens - tokens.length) := by
    have happend := List.range'_append_1 (s := 0) (m := tokens.length)
      (n := reach edits tokens - tokens.length)
    rw [Nat.zero_add, Nat.add_sub_cancel' hlength] at happend
    rw [List.range_eq_range', happend]
  rw [renderFrom_eq hshows.pairwise hproper (skips_start reduced 0) (Nat.le_refl 0),
    tail_eq hshows.pairwise hproper (n := reach edits tokens - tokens.length) hplaces
      (by rwa [hlast, Nat.add_sub_cancel' hlength]),
    hlast, hsplit, List.map_append, String.join_append]
  congr 2
  · refine List.ext_getElem (by simp) fun k hk hk' => ?_
    have hlt : k < tokens.length := by simpa using hk
    simpa using h.pieceAt_eq hshows (List.getElem?_eq_getElem hlt)
  · refine List.map_congr_left fun k hk => ?_
    have hle := (List.mem_range'_1.1 hk).1
    rw [hshows.shown, h.shownAt_of_length_le hinside hle]

end

end Taken

/-- **All tokens with a program applied** are what the program means. There are tokens, no
replacement is reversed, and each of them starts at a token. -/
theorem toOption_render_all {tokens : List Token} (hproper : ∀ e ∈ edits, e.Proper)
    (htokens : tokens ≠ []) (hinside : ∀ e ∈ edits, ∀ p ∈ e.place?, p.1 < tokens.length) :
    (render edits tokens 0 (tokens.length - 1)).toOption = meaning edits tokens := by
  have hlast : tokens.length - 1 + 1 = tokens.length :=
    Nat.sub_add_cancel (List.length_pos_iff.2 htokens)
  rw [render_eq, toOption_map, meaning]
  simp only [Nat.le_refl, if_true, hlast, List.take_length, List.drop_zero]
  rcases reduce_spec hproper with ⟨rs, taken, hrs, h, hreduce⟩ | ⟨hrs, hnone⟩
  · have hranges : ∀ r ∈ rs, r.first < tokens.length := fun r hr =>
      first_lt_of_ranges h hrs hinside hr
    rw [hrs]
    rcases hreduce with ⟨⟨reduced, hok, hshows⟩, hfree⟩ | ⟨hnone, hblocked⟩
    · change (reduce edits).toOption.map _ = if _ then none else some _
      rw [if_neg (h.pairwise_not_blocks_iff.1 hfree), hok, ← h.text_eq hranges hshows htokens]
      rfl
    · change (reduce edits).toOption.map _ = if _ then none else some _
      rw [if_pos (not_not.1 (mt h.pairwise_not_blocks_iff.2 hblocked)), hnone]
      rfl
  · rw [hrs, hnone]
    rfl

end Edit

/-! ## Queues -/

namespace EditQueue

/-- What can be asked of a queue: one of the edits that programs are made of. -/
inductive Request where
  | insertBefore (index : Nat) (text : String)
  | insertAfter (index : Nat) (text : String)
  | replace (first last : Nat) (text : String)
  | delete (first last : Nat)
  deriving DecidableEq, Repr

/-- The edit that is queued for a request; none for a reversed range. -/
def Request.edit? : Request → Option Edit
  | insertBefore index text => some (.insert index text)
  | insertAfter index text => some (.insert (index + 1) text)
  | replace first last text => if last < first then none else some (.replace first last (some text))
  | delete first last => if last < first then none else some (.replace first last none)

/-- The places that a request names are machine words, and so are those behind an insert and behind
a range, on which it goes on. -/
def Request.Counts : Request → Prop
  | insertBefore index _ => index ≤ largestWord
  | insertAfter index _ => index < largestWord
  | replace first last _ => first ≤ largestWord ∧ last < largestWord
  | delete first last => first ≤ largestWord ∧ last < largestWord

instance : DecidablePred Request.Counts
  | .insertBefore index _ => inferInstanceAs (Decidable (index ≤ largestWord))
  | .insertAfter index _ => inferInstanceAs (Decidable (index < largestWord))
  | .replace first last _ | .delete first last =>
    inferInstanceAs (Decidable (first ≤ largestWord ∧ last < largestWord))

/-- The queue after a request, which leaves it as it is if it is refused. -/
def obey (program : String) (q : EditQueue) : Request → EditQueue
  | .insertBefore index text => q.insertBefore program index text
  | .insertAfter index text => q.insertAfter program index text
  | .replace first last text => (q.replace program first last (some text)).toOption.getD q
  | .delete first last => (q.delete program first last).toOption.getD q

variable {program : String} {q : EditQueue} {e : Edit} {requests : List Request}

lemma lookup_map_of_mem {name : String} {f : List Edit → List Edit}
    {programs : List (String × List Edit)} (h : name ∈ programs.map Prod.fst) :
    ((programs.map fun p => if p.1 = name then (p.1, f p.2) else p).lookup name).getD [] =
      f ((programs.lookup name).getD []) := by
  induction programs with
  | nil => cases h
  | cons p rest ih =>
    obtain ⟨name', es⟩ := p
    by_cases hname : name' = name
    · simp [hname]
    · have hbeq : (name == name') = false := beq_false_of_ne (Ne.symm hname)
      have hrest : name ∈ rest.map Prod.fst := by
        simpa [Ne.symm hname] using h
      simpa [hname, List.lookup_cons, hbeq] using ih hrest

/-- An edit is queued behind the others of its program. -/
lemma edits_push (q : EditQueue) (program : String) (e : Edit) :
    (q.push program e).edits program = q.edits program ++ [e] := by
  rw [push]
  split
  · rename_i hmem
    exact lookup_map_of_mem (f := (· ++ [e])) hmem
  · rename_i hmem
    have hnone : q.programs.lookup program = none := List.lookup_eq_none_iff.2 fun p hp => by
      rw [bne_iff_ne]
      rintro rfl
      exact hmem (List.mem_map_of_mem hp)
    rw [edits, edits, List.lookup_append, hnone]
    simp

lemma edits_obey (program : String) (q : EditQueue) (r : Request) :
    (q.obey program r).edits program = q.edits program ++ r.edit?.toList := by
  have hrange (first last : Nat) (text : Option String) :
      ((q.replace program first last text).toOption.getD q).edits program = q.edits program ++
        (if last < first then none else some (Edit.replace first last text)).toList := by
    rw [EditQueue.replace]
    split
    · simp [Except.toOption]
    · exact edits_push q program _
  cases r with
  | insertBefore index text => exact edits_push q program _
  | insertAfter index text => exact edits_push q program _
  | replace first last text => exact hrange first last (some text)
  | delete first last => exact hrange first last none

/-- A program holds the edits that were asked of it and not refused. -/
lemma edits_foldl_obey (program : String) (q : EditQueue) (requests : List Request) :
    (requests.foldl (obey program) q).edits program =
      q.edits program ++ requests.filterMap Request.edit? := by
  induction requests generalizing q with
  | nil => simp
  | cons r rest ih =>
    rw [List.foldl_cons, ih, edits_obey, List.filterMap_cons]
    cases r.edit? <;> simp

/-- Only proper edits are queued. -/
lemma Request.proper_of_mem (he : e ∈ requests.filterMap edit?) : e.Proper := by
  obtain ⟨r, -, h⟩ := List.mem_filterMap.1 he
  cases r with
  | insertBefore index text =>
    obtain rfl := Option.some.inj h
    trivial
  | insertAfter index text =>
    obtain rfl := Option.some.inj h
    trivial
  | replace first last text =>
    obtain ⟨hle, he⟩ := Option.ite_none_left_eq_some.1 h
    obtain rfl := Option.some.inj he
    exact Nat.le_of_not_lt hle
  | delete first last =>
    obtain ⟨hle, he⟩ := Option.ite_none_left_eq_some.1 h
    obtain rfl := Option.some.inj he
    exact Nat.le_of_not_lt hle

/-- **Programs mean what they queue.**  There are tokens, every replacement that is not reversed
starts at one of them (`hinside`), and the places that are named can be counted on from
(`Request.Counts`; an insert behind the largest place, and what goes on behind a range up to it,
has no place).  Then all tokens with the program applied are what the edits mean, and they are
refused if the edits are, whatever else is asked of the queue and in whatever order. -/
theorem toOption_renderAll_obey {tokens : List Token} (requests : List Request)
    (htokens : tokens ≠ []) (_hcounts : ∀ r ∈ requests, r.Counts)
    (hinside : ∀ e ∈ requests.filterMap Request.edit?, ∀ p ∈ e.place?, p.1 < tokens.length) :
    ((requests.foldl (obey defaultProgram) .empty).renderAll tokens).toOption =
      Edit.meaning (requests.filterMap Request.edit?) tokens := by
  rw [renderAll, render, edits_foldl_obey]
  exact Edit.toOption_render_all (fun e => Request.proper_of_mem) htokens hinside

/-- Two deletions grow together and drop an insert between them.  One insert is in front of what
they delete, and another one is behind the last token. -/
theorem toOption_renderAll_obey_merged :
    ((([.insertBefore 2 "n", .delete 1 2, .delete 2 3, .insertBefore 1 "x", .replace 3 0 "y",
      .replace 4 4 "E", .insertAfter 4 "z"] : List Request).foldl (obey defaultProgram)
        .empty).renderAll (["a", "b", "c", "d", "e"].map (.ofText .firstUser))).toOption =
      some "axEz" :=
  (toOption_renderAll_obey _ (by decide) (by decide) (by decide)).trans (by decide +kernel)

end EditQueue
end Lookahead
