import Lookahead.Proofs.Edit.Ranges

/-!
# What shows at a token

Once the replacements of a program are settled, its inserts are joined to each other and to the
replacements, so that at most one edit is left for each token.  None of that changes what shows
there: the inserts in front of the token, the latest first, and then what the token is replaced by
(`shownAt`).  An insert inside an earlier replacement is refused, and nothing else is.

Two relations between an edit and a later one carry the proof.  `Settled` holds behind the second
pass, in which an insert takes in those before it: only an insert in front of a later replacement
can share its first token.  `Clear` holds behind the third pass: no two edits touch the same token.
-/

namespace Lookahead.Edit

variable {edits edits' : List Edit} {e e' : Edit} {k : Nat} {text : String}

/-! ## Texts -/

/-- The text that the edit puts in the place of token `k`, if it is a replacement that starts
there. -/
def replacementAt (k : Nat) : Edit → Option String
  | insert .. => none
  | replace first _ text => if first = k then some (text.getD "") else none

@[simp] lemma insertedAt_insert (k index : Nat) (text : String) :
    insertedAt k (.insert index text) = if index = k then some text else none := rfl

@[simp] lemma insertedAt_replace (k first last : Nat) (text : Option String) :
    insertedAt k (.replace first last text) = none := rfl

@[simp] lemma replacementAt_insert (k index : Nat) (text : String) :
    replacementAt k (.insert index text) = none := rfl

@[simp] lemma replacementAt_replace (k first last : Nat) (text : Option String) :
    replacementAt k (.replace first last text) =
      if first = k then some (text.getD "") else none := rfl

/-- What shows at token `k` of edits in queue order, its own text apart. -/
def shownAt (k : Nat) (edits : List Edit) : String :=
  String.join (edits.filterMap (insertedAt k)).reverse ++
    String.join (edits.filterMap (replacementAt k))

lemma shownAt_append_insert (edits : List Edit) (k index : Nat) (text : String) :
    shownAt k (edits ++ [.insert index text]) =
      if index = k then text ++ shownAt k edits else shownAt k edits := by
  by_cases h : index = k
  · simp [shownAt, h, List.filterMap_cons, String.append_assoc]
  · simp [shownAt, h, List.filterMap_cons]

lemma shownAt_append_replace (edits : List Edit) (k first last : Nat) (text : Option String) :
    shownAt k (edits ++ [.replace first last text]) =
      if first = k then shownAt k edits ++ text.getD "" else shownAt k edits := by
  by_cases h : first = k
  · simp [shownAt, h, List.filterMap_cons, String.append_assoc]
  · simp [shownAt, h, List.filterMap_cons]

/-- An edit that starts elsewhere does not show. -/
lemma shownAt_cons_of_start_ne (h : e.start ≠ k) : shownAt k (e :: edits) = shownAt k edits := by
  cases e <;> simp_all [shownAt, start, List.filterMap_cons]

/-- In front of a list without other inserts at the token, an insert comes first. -/
lemma shownAt_cons_insert (h : edits.filterMap (insertedAt k) = []) :
    shownAt k (.insert k text :: edits) = text ++ shownAt k edits := by
  simp [shownAt, h, List.filterMap_cons]

lemma shownAt_cons_replace {last : Nat} {text : Option String}
    (h : edits.filterMap (insertedAt k) = []) :
    shownAt k (.replace k last text :: edits) = text.getD "" ++ shownAt k edits := by
  simp [shownAt, h, List.filterMap_cons]

/-! ## Places -/

/-- An edit without its text, which says where it is and no more. -/
def bare : Edit → Edit
  | insert index _ => insert index ""
  | replace first last _ => replace first last none

/-- Edits behind the second pass, of which the first came first: inserts at different tokens, and no
insert inside a replacement nor two replacements over each other. -/
def Settled : Edit → Edit → Prop
  | insert index _, insert index' _ => index ≠ index'
  | insert index _, replace first last _ => ¬ (first < index ∧ index ≤ last)
  | replace first last _, insert index _ => index < first ∨ last < index
  | replace first last _, replace first' last' _ => last < first' ∨ last' < first

lemma settled_bare : Settled e.bare e'.bare ↔ Settled e e' := by
  cases e <;> cases e' <;> rfl

/-- No insert at a token comes behind another one, or behind its replacement. -/
lemma filterMap_insertedAt_eq_nil (hproper : e.Proper) (h : ∀ e' ∈ edits, Settled e e')
    (hstart : e.start = k) : edits.filterMap (insertedAt k) = [] := by
  rw [List.filterMap_eq_nil_iff]
  intro e' he'
  have hsettled := h e' he'
  subst hstart
  cases e' with
  | replace => rfl
  | insert index' text' =>
    rw [insertedAt, if_neg]
    cases e with
    | insert index text => exact fun h => hsettled h.symm
    | replace first last text =>
      simp only [Settled, start, Proper] at *
      omega

/-- In front of settled edits, an edit adds to whatever shows. -/
lemma shownAt_cons_congr (hproper : e.Proper) (h : ∀ x ∈ edits, Settled e x)
    (h' : ∀ x ∈ edits', Settled e x) (hsame : shownAt k edits' = shownAt k edits) :
    shownAt k (e :: edits') = shownAt k (e :: edits) := by
  by_cases hstart : e.start = k
  · have hnil := filterMap_insertedAt_eq_nil hproper h hstart
    have hnil' := filterMap_insertedAt_eq_nil hproper h' hstart
    subst hstart
    cases e with
    | insert index text =>
      rw [start] at *
      rw [shownAt_cons_insert hnil, shownAt_cons_insert hnil', hsame]
    | replace first last text =>
      rw [start] at *
      rw [shownAt_cons_replace hnil, shownAt_cons_replace hnil', hsame]
  · rw [shownAt_cons_of_start_ne hstart, shownAt_cons_of_start_ne hstart, hsame]

/-! ## An insert against what came before -/

/-- An insert in front of token `k` has joined edits that are settled, and they still are. -/
structure Joins (k : Nat) (text : String) (edits edits' : List Edit) : Prop where
  settled : edits'.Pairwise Settled
  here : shownAt k edits' = text ++ shownAt k edits
  elsewhere : ∀ i ≠ k, shownAt i edits' = shownAt i edits
  places_eq : edits'.filterMap place? = edits.filterMap place?
  bare_mem : ∀ x ∈ edits', x.bare ∈ edits.map bare ∨ x.bare = .insert k ""

/-- An edit that the insert passes stays in front. -/
lemma Joins.cons (h : Joins k text edits edits') (hproper : e.Proper)
    (hsettled : ∀ x ∈ edits, Settled e x) (hk : Settled e (.insert k "")) (hstart : e.start ≠ k) :
    Joins k text (e :: edits) (e :: edits') := by
  have hsettled' : ∀ x ∈ edits', Settled e x := fun x hx => by
    rcases h.bare_mem x hx with hmem | hmem
    · obtain ⟨y, hy, hbare⟩ := List.mem_map.1 hmem
      rw [← settled_bare, ← hbare, settled_bare]
      exact hsettled y hy
    · rw [← settled_bare, hmem]
      exact settled_bare.2 hk
  refine ⟨List.pairwise_cons.2 ⟨hsettled', h.settled⟩, ?_, fun i hi => ?_, ?_, ?_⟩
  · rw [shownAt_cons_of_start_ne hstart, shownAt_cons_of_start_ne hstart, h.here]
  · exact shownAt_cons_congr hproper hsettled hsettled' (h.elsewhere i hi)
  · rw [List.filterMap_cons, List.filterMap_cons, h.places_eq]
  · intro x hx
    rcases List.mem_cons.1 hx with rfl | hx
    · exact .inl (by simp)
    · exact (h.bare_mem x hx).imp_left fun hmem => by simp at hmem ⊢; exact .inr hmem

/-- An insert that nothing came before. -/
lemma joins_nil (k : Nat) (text : String) : Joins k text [] [.insert k text] := by
  have hshown (i : Nat) := shownAt_append_insert [] i k text
  refine ⟨List.pairwise_singleton _ _, ?_, fun i hi => ?_, rfl, fun x hx => ?_⟩
  · simpa using hshown k
  · simpa [hi.symm] using hshown i
  · obtain rfl := List.mem_singleton.1 hx
    exact .inr rfl

/-- The insert takes in an earlier one at its token. -/
lemma Joins.cons_insert {earlier : String} (h : Joins k (text ++ earlier) edits edits')
    (hsettled : ∀ x ∈ edits, Settled (.insert k earlier) x) :
    Joins k text (.insert k earlier :: edits) edits' := by
  have hnil : edits.filterMap (insertedAt k) = [] :=
    filterMap_insertedAt_eq_nil (e := .insert k earlier) trivial hsettled rfl
  refine ⟨h.settled, ?_, fun i hi => ?_, h.places_eq, fun x hx => ?_⟩
  · rw [h.here, shownAt_cons_insert hnil, String.append_assoc]
  · rw [h.elsewhere i hi, shownAt_cons_of_start_ne (Ne.symm hi)]
  · exact (h.bare_mem x hx).imp_left (List.mem_cons_of_mem _)

/-- The insert goes into the text of a replacement that starts at its token. -/
lemma joins_cons_replace {last : Nat} {replacement : Option String} (hle : k ≤ last)
    (hsettled : ∀ x ∈ edits, Settled (.replace k last replacement) x)
    (hrest : edits.Pairwise Settled) :
    Joins k text (.replace k last replacement :: edits)
      (.replace k last (some (text ++ replacement.getD "")) :: edits) := by
  have hnil : edits.filterMap (insertedAt k) = [] :=
    filterMap_insertedAt_eq_nil (e := .replace k last replacement) hle hsettled rfl
  refine ⟨List.pairwise_cons.2 ⟨fun x hx => ?_, hrest⟩, ?_, fun i hi => ?_, rfl, fun x hx => ?_⟩
  · have hsettled := hsettled x hx
    cases x <;> exact hsettled
  · rw [shownAt_cons_replace hnil, shownAt_cons_replace hnil, ← String.append_assoc]
    rfl
  · rw [shownAt_cons_of_start_ne (Ne.symm hi), shownAt_cons_of_start_ne (Ne.symm hi)]
  · rcases List.mem_cons.1 hx with rfl | hx
    · exact .inl (by simp [bare])
    · exact .inl (List.mem_cons_of_mem _ (List.mem_map_of_mem hx))

/-- Nothing encloses the first token of a replacement that it is settled with. -/
lemma not_encloses_of_settled {last : Nat} {replacement : Option String} (hle : k ≤ last)
    (hsettled : Settled (.replace k last replacement) e) : ¬ e.Encloses k := by
  rintro ⟨p, hp, hin⟩
  cases e with
  | insert => cases hp
  | replace first' last' =>
    obtain rfl := Option.some.inj hp
    simp only [Settled] at hsettled
    omega

/-- **An insert is held against what came before.**  It is refused inside an earlier replacement,
and otherwise its text comes in front of what shows at its token. -/
theorem joinEarlier_spec (hsettled : edits.Pairwise Settled) (hproper : ∀ e ∈ edits, e.Proper)
    (k : Nat) (text : String) :
    (∃ edits', joinEarlier k text edits = .ok edits' ∧ Joins k text edits edits') ∧
        (∀ e ∈ edits, ¬ e.Encloses k) ∨
      (joinEarlier k text edits).toOption = none ∧ ∃ e ∈ edits, e.Encloses k := by
  induction edits generalizing text with
  | nil => exact .inl ⟨⟨_, rfl, joins_nil k text⟩, by simp⟩
  | cons e rest ih =>
    obtain ⟨hhead, hrest⟩ := List.pairwise_cons.1 hsettled
    obtain ⟨hproperHead, hproperRest⟩ := List.forall_mem_cons.1 hproper
    -- an edit that neither takes the insert in nor refuses it stays in front of what the rest
    -- comes to
    have hpass (hk : Settled e (.insert k "")) (hstart : e.start ≠ k) (hfree : ¬ e.Encloses k) :
        (∃ edits', (joinEarlier k text rest).map (e :: ·) = .ok edits' ∧
            Joins k text (e :: rest) edits') ∧ (∀ x ∈ e :: rest, ¬ x.Encloses k) ∨
          ((joinEarlier k text rest).map (e :: ·)).toOption = none ∧
            ∃ x ∈ e :: rest, x.Encloses k := by
      rcases ih hrest hproperRest text with ⟨⟨edits', hok, hjoins⟩, hfreeRest⟩ | ⟨hnone, x, hx, hin⟩
      · rw [hok]
        exact .inl ⟨⟨_, rfl, hjoins.cons hproperHead hhead hk hstart⟩,
          List.forall_mem_cons.2 ⟨hfree, hfreeRest⟩⟩
      · refine .inr ⟨?_, x, List.mem_cons_of_mem _ hx, hin⟩
        rw [toOption_map, hnone]
        rfl
    cases e with
    | insert index earlier =>
      rw [joinEarlier]
      by_cases hindex : index = k
      · subst hindex
        rw [if_pos rfl]
        rcases ih hrest hproperRest (text ++ earlier) with
          ⟨⟨edits', hok, hjoins⟩, hfree⟩ | ⟨hnone, x, hx, hin⟩
        · exact .inl ⟨⟨edits', hok, hjoins.cons_insert hhead⟩,
            List.forall_mem_cons.2 ⟨by simp [Encloses, place?], hfree⟩⟩
        · exact .inr ⟨hnone, x, List.mem_cons_of_mem _ hx, hin⟩
      · rw [if_neg hindex]
        exact hpass hindex hindex (by simp [Encloses, place?])
    | replace first last replacement =>
      rw [joinEarlier]
      by_cases hindex : k = first
      · subst hindex
        rw [if_pos rfl]
        refine .inl ⟨⟨_, rfl, joins_cons_replace hproperHead hhead hrest⟩, ?_⟩
        exact List.forall_mem_cons.2 ⟨by simp [Encloses, place?],
          fun x hx => not_encloses_of_settled hproperHead (hhead x hx)⟩
      · rw [if_neg hindex]
        by_cases hin : first < k ∧ k ≤ last
        · rw [if_pos hin]
          exact .inr ⟨rfl, _, List.mem_cons_self, _, rfl, hin⟩
        · rw [if_neg hin]
          refine hpass ?_ (Ne.symm hindex) ?_
          · simp only [Settled]
            omega
          · simpa [Encloses, place?] using hin

/-! ## A program of inserts -/

/-- An insert that comes behind a replacement is inside it. -/
def Blocks : Edit → Edit → Prop
  | replace first last _, insert index _ => first < index ∧ index ≤ last
  | _, _ => False

lemma blocks_insert_iff : e.Blocks (.insert k text) ↔ e.Encloses k := by
  cases e <;> simp [Blocks, Encloses, place?]

/-- The edits are joined so that `R` holds between any two of them, and show the same. -/
structure Shows (R : Edit → Edit → Prop) (edits edits' : List Edit) : Prop where
  pairwise : edits'.Pairwise R
  shown : ∀ i, shownAt i edits' = shownAt i edits
  places_eq : edits'.filterMap place? = edits.filterMap place?
  bare_mem : ∀ x ∈ edits', x.bare ∈ edits.map bare

namespace Shows

variable {R R' : Edit → Edit → Prop} {edits'' : List Edit}

/-- What holds of all edits, whatever their texts, still holds of them. -/
lemma forall_mem (h : Shows R edits edits') {P : Edit → Prop} (hP : ∀ e : Edit, P e.bare ↔ P e)
    (hall : ∀ e ∈ edits, P e) : ∀ x ∈ edits', P x := fun x hx => by
  obtain ⟨y, hy, hbare⟩ := List.mem_map.1 (h.bare_mem x hx)
  rw [← hP, ← hbare, hP]
  exact hall y hy

lemma proper (h : Shows R edits edits') (hproper : ∀ e ∈ edits, e.Proper) :
    ∀ x ∈ edits', x.Proper :=
  h.forall_mem (fun e => by cases e <;> rfl) hproper

lemma exists_encloses_iff (h : Shows R edits edits') (k : Nat) :
    (∃ e ∈ edits', e.Encloses k) ↔ ∃ e ∈ edits, e.Encloses k := by
  have hplaces (l : List Edit) :
      (∃ e ∈ l, e.Encloses k) ↔ ∃ p ∈ l.filterMap place?, p.1 < k ∧ k ≤ p.2 := by
    simp only [Encloses, List.mem_filterMap]
    constructor
    · rintro ⟨e, he, p, hp, hin⟩
      exact ⟨p, ⟨e, he, hp⟩, hin⟩
    · rintro ⟨p, ⟨e, he, hp⟩, hin⟩
      exact ⟨e, he, p, hp, hin⟩
  rw [hplaces, hplaces, h.places_eq]

lemma trans (h : Shows R edits edits') (h' : Shows R' edits' edits'') : Shows R' edits edits'' where
  pairwise := h'.pairwise
  shown i := (h'.shown i).trans (h.shown i)
  places_eq := h'.places_eq.trans h.places_eq
  bare_mem x hx := by
    obtain ⟨y, hy, hbare⟩ := List.mem_map.1 (h'.bare_mem x hx)
    rw [← hbare]
    exact h.bare_mem y hy

/-- An insert has joined the edits before it. -/
lemma insert (h : Shows Settled edits edits') (hjoins : Joins k text edits' edits'') :
    Shows Settled (edits ++ [.insert k text]) edits'' where
  pairwise := hjoins.settled
  shown i := by
    rw [shownAt_append_insert]
    by_cases hi : i = k
    · rw [if_pos hi.symm, hi, hjoins.here, h.shown]
    · rw [if_neg (Ne.symm hi), hjoins.elsewhere i hi, h.shown]
  places_eq := by
    rw [hjoins.places_eq, h.places_eq, List.filterMap_append]
    simp [place?]
  bare_mem x hx := by
    rw [List.map_append, List.mem_append]
    rcases hjoins.bare_mem x hx with hmem | hmem
    · obtain ⟨y, hy, hbare⟩ := List.mem_map.1 hmem
      rw [← hbare]
      exact .inl (h.bare_mem y hy)
    · rw [hmem]
      exact .inr (List.mem_singleton_self _)

/-- An edit comes behind edits that have been joined. -/
lemma append_singleton (h : Shows R edits edits') (hbare : ∀ x : Edit, R x.bare e ↔ R x e)
    (he : ∀ x ∈ edits, R x e) : Shows R (edits ++ [e]) (edits' ++ [e]) where
  pairwise := by
    rw [List.pairwise_append]
    refine ⟨h.pairwise, List.pairwise_singleton _ _, fun x hx y hy => ?_⟩
    obtain rfl := List.mem_singleton.1 hy
    exact h.forall_mem hbare he x hx
  shown i := by
    cases e with
    | insert index text => rw [shownAt_append_insert, shownAt_append_insert, h.shown]
    | replace first last text => rw [shownAt_append_replace, shownAt_append_replace, h.shown]
  places_eq := by rw [List.filterMap_append, List.filterMap_append, h.places_eq]
  bare_mem x hx := by
    rw [List.map_append, List.mem_append]
    rcases List.mem_append.1 hx with hx | hx
    · exact .inl (h.bare_mem x hx)
    · exact .inr (List.mem_map_of_mem hx)

end Shows

/-- **The second pass.**  Edits are refused if an insert comes behind a replacement that it is
inside of.  Otherwise they show what they did. -/
theorem foldInserts_spec (hapart : edits.Pairwise Apart) (hproper : ∀ e ∈ edits, e.Proper) :
    (∃ edits', foldInserts edits = .ok edits' ∧ Shows Settled edits edits') ∧
        edits.Pairwise (¬ Blocks · ·) ∨
      (foldInserts edits).toOption = none ∧ ¬ edits.Pairwise (¬ Blocks · ·) := by
  induction edits using List.reverseRecOn with
  | nil => exact .inl ⟨⟨[], rfl, .nil, fun _ => rfl, rfl, by simp⟩, .nil⟩
  | append_singleton edits e ih =>
    have hfold : foldInserts (edits ++ [e]) = foldInserts edits >>= (join · e) := by
      rw [foldInserts, List.foldlM_append, foldInserts]
      simp
    obtain ⟨hinit, -, hlast⟩ := List.pairwise_append.1 hapart
    have hproperInit : ∀ e ∈ edits, e.Proper := fun e he => hproper e (List.mem_append_left _ he)
    have hblocks : (edits ++ [e]).Pairwise (¬ Blocks · ·) ↔
        edits.Pairwise (¬ Blocks · ·) ∧ ∀ x ∈ edits, ¬ x.Blocks e := by
      simp [List.pairwise_append]
    rw [hfold, hblocks]
    rcases ih hinit hproperInit with ⟨⟨edits', hok, hshows⟩, hfree⟩ | ⟨hnone, hblocked⟩
    · rw [hok]
      cases e with
      | insert index text =>
        have hiff := hshows.exists_encloses_iff index
        simp only [blocks_insert_iff]
        rcases joinEarlier_spec hshows.pairwise (hshows.proper hproperInit) index text with
          ⟨⟨edits'', hok', hjoins⟩, hout⟩ | ⟨hnone, hin⟩
        · refine .inl ⟨⟨edits'', hok', hshows.insert hjoins⟩, hfree, fun x hx hencloses => ?_⟩
          obtain ⟨y, hy, hin⟩ := hiff.2 ⟨x, hx, hencloses⟩
          exact hout y hy hin
        · obtain ⟨x, hx, hencloses⟩ := hiff.1 hin
          exact .inr ⟨hnone, fun h => h.2 x hx hencloses⟩
      | replace first last text =>
        refine .inl ⟨⟨_, rfl, hshows.append_singleton (fun x => by cases x <;> rfl) ?_⟩, hfree, ?_⟩
        · intro x hx
          have hxe := hlast x hx _ (List.mem_singleton_self _)
          cases x <;> exact hxe
        · intro x _
          cases x <;> exact not_false
    · refine .inr ⟨?_, fun h => hblocked h.1⟩
      rw [toOption_bind, hnone]
      rfl

/-! ## Inserts in front of a later replacement -/

/-- The last token that an edit touches. -/
def stop : Edit → Nat
  | insert index _ => index
  | replace _ last _ => last

/-- Edits that do not touch the same token. -/
def Clear (e e' : Edit) : Prop := e.stop < e'.start ∨ e'.stop < e.start

lemma clear_bare : Clear e.bare e' ↔ Clear e e' := by
  cases e <;> rfl

/-- Only one insert is left at a token. -/
lemma filterMap_insertedAt_of_clear (h : edits.Pairwise Clear) (k : Nat) :
    edits.filterMap (insertedAt k) = [] ∨ ∃ text, edits.filterMap (insertedAt k) = [text] := by
  induction edits with
  | nil => exact .inl rfl
  | cons e rest ih =>
    obtain ⟨hhead, hrest⟩ := List.pairwise_cons.1 h
    cases e with
    | replace first last text => exact ih hrest
    | insert index text =>
      by_cases hindex : index = k
      · have hnone : rest.filterMap (insertedAt k) = [] := by
          rw [List.filterMap_eq_nil_iff]
          intro x hx
          have hclear := hhead x hx
          cases x with
          | replace => rfl
          | insert index' text' =>
            rw [insertedAt, if_neg]
            simp only [Clear, start, stop] at hclear
            omega
        refine .inr ⟨text, ?_⟩
        rw [List.filterMap_cons, insertedAt_insert, if_pos hindex, hnone]
      · rw [List.filterMap_cons, insertedAt_insert, if_neg hindex]
        exact ih hrest

/-- Without the inserts at a token, only a replacement shows there. -/
lemma shownAt_filter (k i : Nat) (edits : List Edit) :
    shownAt i (edits.filter fun e => (insertedAt k e).isNone) =
      if i = k then String.join (edits.filterMap (replacementAt k)) else shownAt i edits := by
  have hreplaced : (edits.filter fun e => (insertedAt k e).isNone).filterMap (replacementAt i) =
      edits.filterMap (replacementAt i) := by
    rw [List.filterMap_filter]
    refine List.filterMap_congr fun e _ => ?_
    cases e <;> simp
  have hinserted : (edits.filter fun e => (insertedAt k e).isNone).filterMap (insertedAt i) =
      if i = k then [] else edits.filterMap (insertedAt i) := by
    rw [List.filterMap_filter]
    split
    · rw [List.filterMap_eq_nil_iff]
      intro e _
      cases e <;> simp_all
    · refine List.filterMap_congr fun e _ => ?_
      cases e with
      | replace => rfl
      | insert index text =>
        by_cases hindex : index = k
        · have hi : index ≠ i := by omega
          simp only [insertedAt_insert, if_pos hindex, if_neg hi]
          rfl
        · simp only [insertedAt_insert, if_neg hindex]
          rfl
  rw [shownAt, hreplaced, hinserted]
  split
  · rename_i hi
    simp [hi]
  · rfl

/-- Inserts have no place. -/
lemma filterMap_place_filter (k : Nat) (edits : List Edit) :
    (edits.filter fun e => (insertedAt k e).isNone).filterMap place? = edits.filterMap place? := by
  rw [List.filterMap_filter]
  refine List.filterMap_congr fun e _ => ?_
  cases e <;> simp [place?]

/-- No replacement starts where a later one does that it is settled with. -/
lemma filterMap_replacementAt_of_settled {first last : Nat} {text : Option String}
    (hproper : ∀ e ∈ edits, e.Proper) (hle : first ≤ last)
    (hsettled : ∀ e ∈ edits, Settled e (.replace first last text)) :
    edits.filterMap (replacementAt first) = [] := by
  rw [List.filterMap_eq_nil_iff]
  intro e he
  have hsettled := hsettled e he
  have hproper := hproper e he
  cases e with
  | insert => rfl
  | replace first' last' text' =>
    rw [replacementAt_replace, if_neg]
    simp only [Settled, Proper] at *
    omega

/-- A replacement is left with a text that starts with the inserts in front of it. -/
lemma prepend_replace (taken : List Edit) (first last : Nat) (text : Option String) :
    ∃ text', prepend taken (.replace first last text) =
        taken.filter (fun e => (insertedAt first e).isNone) ++ [.replace first last text'] ∧
      text'.getD "" = String.join (taken.filterMap (insertedAt first)) ++ text.getD "" := by
  rw [prepend]
  split
  · rename_i hnil
    rw [hnil]
    refine ⟨text, ?_, by simp⟩
    congr 1
    symm
    rw [List.filter_eq_self]
    intro e he
    rw [List.filterMap_eq_nil_iff.1 hnil e he]
    rfl
  · exact ⟨_, rfl, rfl⟩

/-- A replacement takes in the inserts in front of it. -/
lemma Shows.prepend (h : Shows Clear edits edits') (hproper : ∀ e ∈ edits, e.Proper)
    (he : e.Proper) (hsettled : ∀ x ∈ edits, Settled x e) :
    Shows Clear (edits ++ [e]) (prepend edits' e) := by
  have hsettled' : ∀ x ∈ edits', Settled x e :=
    h.forall_mem (fun x => by cases x <;> cases e <;> rfl) hsettled
  cases e with
  | insert index text =>
    refine h.append_singleton (fun _ => clear_bare) fun x hx => ?_
    have hxe := hsettled x hx
    cases x <;> simp only [Settled, Clear, start, stop] at * <;> omega
  | replace first last text =>
    obtain ⟨text', hprepend, htext⟩ := prepend_replace edits' first last text
    have hreplaced := filterMap_replacementAt_of_settled (h.proper hproper) he hsettled'
    -- at most one insert is in front of the token, so that the order does not matter
    have hinserted : (edits'.filterMap (insertedAt first)).reverse =
        edits'.filterMap (insertedAt first) := by
      rcases filterMap_insertedAt_of_clear h.pairwise first with hnil | ⟨text, hone⟩
      · rw [hnil]
        rfl
      · rw [hone]
        rfl
    rw [hprepend]
    refine ⟨?_, fun i => ?_, ?_, fun x hx => ?_⟩
    · rw [List.pairwise_append]
      refine ⟨h.pairwise.sublist List.filter_sublist, List.pairwise_singleton _ _, ?_⟩
      intro x hx y hy
      obtain rfl := List.mem_singleton.1 hy
      obtain ⟨hmem, hnone⟩ := List.mem_filter.1 hx
      have hxe := hsettled' x hmem
      cases x with
      | replace first' last' text => exact hxe
      | insert index text =>
        have hindex : index ≠ first := by simpa using hnone
        simp only [Settled, Clear, start, stop] at *
        omega
    · rw [shownAt_append_replace, shownAt_append_replace, shownAt_filter, ← h.shown]
      by_cases hi : i = first
      · rw [if_pos hi.symm, if_pos hi.symm, if_pos hi, hi, htext, shownAt, hreplaced, hinserted]
        simp
      · rw [if_neg (Ne.symm hi), if_neg (Ne.symm hi), if_neg hi]
    · rw [List.filterMap_append, List.filterMap_append, ← h.places_eq, filterMap_place_filter]
      rfl
    · rw [List.map_append, List.mem_append]
      rcases List.mem_append.1 hx with hx | hx
      · exact .inl (h.bare_mem x (List.mem_of_mem_filter hx))
      · obtain rfl := List.mem_singleton.1 hx
        exact .inr (by simp [bare])

/-- **The third pass.**  Edits that are settled end up clear of each other and show what they
did. -/
theorem shows_joinEarlierInserts (hsettled : edits.Pairwise Settled)
    (hproper : ∀ e ∈ edits, e.Proper) : Shows Clear edits (joinEarlierInserts edits) := by
  induction edits using List.reverseRecOn with
  | nil => exact ⟨.nil, fun _ => rfl, rfl, by simp [joinEarlierInserts]⟩
  | append_singleton edits e ih =>
    have hfold : joinEarlierInserts (edits ++ [e]) = prepend (joinEarlierInserts edits) e := by
      rw [joinEarlierInserts, List.foldl_append, joinEarlierInserts]
      rfl
    obtain ⟨hinit, -, hlast⟩ := List.pairwise_append.1 hsettled
    have hproperInit : ∀ e ∈ edits, e.Proper := fun e he => hproper e (List.mem_append_left _ he)
    rw [hfold]
    exact (ih hinit hproperInit).prepend hproperInit (hproper e (by simp))
      fun x hx => hlast x hx e (List.mem_singleton_self _)

/-! ## A whole program -/

lemma start_le_stop (h : e.Proper) : e.start ≤ e.stop := by
  cases e with
  | insert => exact Nat.le_refl _
  | replace first last text => exact h

/-- Edits that are clear of each other start at different tokens. -/
lemma firstConflict_eq_none (hclear : edits.Pairwise Clear) (hproper : ∀ e ∈ edits, e.Proper)
    (seen : List Nat) (hseen : ∀ e ∈ edits, e.start ∉ seen) : firstConflict edits seen = none := by
  induction edits generalizing seen with
  | nil => rfl
  | cons e rest ih =>
    obtain ⟨hhead, hrest⟩ := List.pairwise_cons.1 hclear
    obtain ⟨hproperHead, hproperRest⟩ := List.forall_mem_cons.1 hproper
    obtain ⟨hseenHead, hseenRest⟩ := List.forall_mem_cons.1 hseen
    rw [firstConflict, if_neg hseenHead]
    refine ih hrest hproperRest _ fun x hx hmem => ?_
    rcases List.mem_cons.1 hmem with heq | hmem
    · have hxe := hhead x hx
      have hx' := start_le_stop (hproperRest x hx)
      have he' := start_le_stop hproperHead
      simp only [Clear] at hxe
      omega
    · exact hseenRest x hx hmem

/-- **What a program is folded to.**  It is refused if its replacements are, or if an insert comes
behind a replacement in force that it is inside of.  Otherwise the edits that are left are clear of
each other, and show what those show that the replacements have left. -/
theorem reduce_spec (hproper : ∀ e ∈ edits, e.Proper) :
    (∃ rs taken, ranges edits = some rs ∧ Taken edits rs taken ∧
      ((∃ reduced, reduce edits = .ok reduced ∧ Shows Clear (taken.map Prod.fst) reduced) ∧
          (taken.map Prod.fst).Pairwise (¬ Blocks · ·) ∨
        (reduce edits).toOption = none ∧ ¬ (taken.map Prod.fst).Pairwise (¬ Blocks · ·))) ∨
      ranges edits = none ∧ (reduce edits).toOption = none := by
  rcases taken_of_foldReplaces hproper with ⟨rs, taken, hrs, htaken, h⟩ | ⟨hrs, hnone⟩
  · refine .inl ⟨rs, taken, hrs, h, ?_⟩
    have htakenProper : ∀ e ∈ taken.map Prod.fst, e.Proper := by
      simpa using h.proper
    obtain ⟨replaced, hreplaced, rfl⟩ : ∃ replaced, foldReplaces edits = .ok replaced ∧
        replaced = taken.map Prod.fst := by
      cases hfold : foldReplaces edits with
      | error => simp [hfold, Except.toOption] at htaken
      | ok replaced => exact ⟨_, rfl, by simpa [hfold, Except.toOption] using htaken⟩
    rcases foldInserts_spec h.apart htakenProper with
      ⟨⟨inserted, hok, hshows⟩, hfree⟩ | ⟨hnone, hin⟩
    · have hproper' := hshows.proper htakenProper
      have hshows' := shows_joinEarlierInserts hshows.pairwise hproper'
      refine .inl ⟨⟨_, ?_, hshows.trans hshows'⟩, hfree⟩
      have hconflict := firstConflict_eq_none hshows'.pairwise
        (hshows'.proper hproper') [] (by simp)
      rw [reduce, hreplaced]
      simp [hok, hconflict, bind, Except.bind]
    · refine .inr ⟨?_, hin⟩
      rw [reduce, toOption_bind, hreplaced]
      change (foldInserts (taken.map Prod.fst) >>= _).toOption = none
      rw [toOption_bind, hnone]
      rfl
  · refine .inr ⟨hrs, ?_⟩
    rw [reduce, toOption_bind, hnone]
    rfl

end Lookahead.Edit
