import Mathlib.Data.List.Forall2
import Lookahead.Automaton.Packed
import Lookahead.Proofs.Automaton.Clauses

/-!
# What packed tables stand for

An array is packed as runs of its values, which can be done in many ways: a run may be cut up, and
it may be empty.  All of them spread to the same values (`packs_iff`).

Tables are accepted exactly if they are `Shaped`, with one value for each state in every column, and
`Linked`, with no link to nowhere (`isOk_ofPacked_iff`).  How wide a row may be is another question
where there are no types that it could be for: none of its values means anything then, but one is
let through (`widthLimit`).  The tables of an automaton, packed in whatever way, are accepted, and
what they stand for cannot be told from that automaton (`Encodes.agrees`).
-/

namespace Lookahead

open PackedTables (absent)

namespace Automaton

/-! ## Where states lead -/

lemma forall_stateTargets_iff {s : AutomatonState} {n : Nat} :
    (∀ q ∈ stateTargets s, q.2 < n) ↔ (∀ u, some u ∈ s.edges → u < n) ∧
      (∀ u, s.endOfToken = some u → u < n) ∧ ∀ u, s.endOfInput = some u → u < n := by
  simp [stateTargets, or_imp, forall_and]

lemma forall_specialTargets_iff {s : SpecialState} {n : Nat} :
    (∀ q ∈ specialTargets s, q.2 < n) ↔ (∀ e ∈ s.edges, e.target < n) ∧
      ∀ u, s.fallback = some u → u < n := by
  simp [specialTargets, or_imp, forall_and]

lemma ofStates_parts {decision : Nat} {description : String} {states : List AutomatonState}
    {specials : List SpecialState} {a : Automaton}
    (h : ofStates decision description states specials = .ok a) :
    a.states = states.toArray ∧ a.specials = specials.toArray := by
  unfold ofStates at h
  split at h
  · cases h
  obtain ⟨-, -, h⟩ := bind_eq_ok.1 h
  obtain ⟨-, -, h⟩ := bind_eq_ok.1 h
  obtain rfl := Except.ok.inj h
  exact ⟨rfl, rfl⟩

end Automaton

open Automaton (bind_eq_ok)

namespace PackedTables

/-! ## Runs -/

/-- The array lists runs of the values, each as a count and a value. -/
def Packs (packed values : List Nat) : Prop :=
  ∃ runs : List (Nat × Nat), packed = runs.flatMap (fun r => [r.1, r.2]) ∧
    values = runs.flatMap fun r => List.replicate r.1 r.2

/-- The values that the pairs of an array stand for, without a complaint about one that is left
over. -/
def spread : List Nat → List Nat
  | count :: value :: rest => List.replicate count value ++ spread rest
  | _ => []

variable {p : PackedTables} {packed values : List Nat} {specials : List SpecialState}

lemma even_cons_cons (count value : Nat) (rest : List Nat) :
    (count :: value :: rest).length % 2 = rest.length % 2 :=
  Nat.add_mod_right _ 2

/-- The values are what the array packs. -/
lemma packs_iff : Packs packed values ↔ packed.length % 2 = 0 ∧ spread packed = values := by
  constructor
  · rintro ⟨runs, rfl, rfl⟩
    induction runs with
    | nil => exact ⟨rfl, rfl⟩
    | cons r rest ih =>
      obtain ⟨heven, hspread⟩ := ih
      rw [List.flatMap_cons, List.flatMap_cons, ← hspread]
      exact ⟨(even_cons_cons _ _ _).trans heven, rfl⟩
  · rintro ⟨heven, rfl⟩
    fun_induction spread packed with
    | case1 count value rest ih =>
      obtain ⟨runs, hpacked, hvalues⟩ := ih ((even_cons_cons _ _ _).symm.trans heven)
      exact ⟨(count, value) :: runs, by rw [hpacked]; rfl, by rw [hvalues]; rfl⟩
    | case2 packed hshort =>
      match packed, hshort with
      | [], _ => exact ⟨[], rfl, rfl⟩
      | [_], _ => cases heven
      | count :: value :: rest, hshort => exact (hshort count value rest rfl).elim

lemma expand_eq_ok :
    expand packed = .ok values ↔ packed.length % 2 = 0 ∧ values = spread packed := by
  fun_induction expand packed generalizing values with
  | case1 => simp [spread, eq_comm]
  | case2 => simp
  | case3 count value rest ih =>
    rw [even_cons_cons, spread]
    cases hrest : expand rest with
    | error e =>
      have hodd : rest.length % 2 ≠ 0 := fun heven =>
        nomatch hrest.symm.trans (ih.2 ⟨heven, rfl⟩)
      simp [Except.map, hodd]
    | ok below =>
      obtain ⟨heven, rfl⟩ := ih.1 hrest
      simp [Except.map, heven, eq_comm]

/-! ## Accepted tables -/

/-- The number of states: one for each value in the column of alternatives. -/
def stateCount (p : PackedTables) : Nat := (spread p.accept).length

/-- The arrays with one value for each state. -/
def columns (p : PackedTables) : List (List Nat) :=
  [p.endOfToken, p.endOfInput, p.low, p.high, p.accept, p.special]

/-- The value of a column for a state. -/
def entry (packed : List Nat) (s : Nat) : Nat := (spread packed).getD s 0

/-- The row of a state. -/
def row (p : PackedTables) (s : Nat) : List Nat := p.rows.getD s []

/-- How many types there are from `low` to `high`. -/
def typeCount (low high : Nat) : Nat := high + 1 - low

/-- How many values a row for these types can have without being refused: for no types, it is one
all the same. -/
def widthLimit (low high : Nat) : Nat := max 1 (typeCount low high)

/-- The arrays are as long as they have to be, with no row beyond its width. -/
structure Shaped (p : PackedTables) (width : (low high : Nat) → Nat) : Prop where
  even : ∀ packed ∈ p.columns ++ p.rows, packed.length % 2 = 0
  columns : ∀ packed ∈ p.columns, (spread packed).length = p.stateCount
  rows : p.rows.length = p.stateCount
  width : ∀ s < p.stateCount, (spread (p.row s)).length ≤ width (entry p.low s) (entry p.high s)

/-- There is a state, and whatever state or special state is named exists. -/
structure Linked (p : PackedTables) (specials : List SpecialState) : Prop where
  nonempty : 0 < p.stateCount
  table : ∀ packed ∈ p.rows, ∀ u ∈ spread packed, u ≠ absent → u < p.stateCount
  endOfToken : ∀ u ∈ spread p.endOfToken, u ≠ absent → u < p.stateCount
  endOfInput : ∀ u ∈ spread p.endOfInput, u ≠ absent → u < p.stateCount
  special : ∀ i ∈ spread p.special, i ≠ absent → i < specials.length
  predicated : ∀ s ∈ specials, ∀ e ∈ s.edges, e.target < p.stateCount
  fallback : ∀ s ∈ specials, ∀ u, s.fallback = some u → u < p.stateCount

/-- What tables have to be like to be accepted, if a range of types is as wide as `width` says: the
layout is the known one, the columns and rows have the right sizes, and the names lead somewhere. -/
structure Valid (p : PackedTables) (width : (low high : Nat) → Nat) (specials : List SpecialState) :
    Prop where
  version : p.version = currentVersion
  shaped : p.Shaped width
  linked : p.Linked specials

lemma Valid.mono {width width' : (low high : Nat) → Nat} (h : p.Valid width specials)
    (hwidth : ∀ s < p.stateCount,
      (spread (p.row s)).length ≤ width (entry p.low s) (entry p.high s) →
        (spread (p.row s)).length ≤ width' (entry p.low s) (entry p.high s)) :
    p.Valid width' specials where
  version := h.version
  shaped := ⟨h.shaped.even, h.shaped.columns, h.shaped.rows,
    fun s hs => hwidth s hs (h.shaped.width s hs)⟩
  linked := h.linked

lemma Valid.of_typeCount (h : p.Valid typeCount specials) : p.Valid widthLimit specials :=
  h.mono fun _ _ hle => hle.trans (Nat.le_max_right _ _)

/-- Only a row with a value and no types makes a difference to which width is asked for. -/
lemma valid_widthLimit_iff
    (h : ∀ s < p.stateCount, entry p.high s < entry p.low s → spread (p.row s) = []) :
    p.Valid widthLimit specials ↔ p.Valid typeCount specials := by
  refine ⟨fun hvalid => hvalid.mono fun s hs hle => ?_, Valid.of_typeCount⟩
  by_cases hnone : entry p.high s < entry p.low s
  · simp [h s hs hnone]
  · simp only [widthLimit, typeCount] at hle ⊢
    omega

/-- The state that the tables have under a number. -/
def stateAt (p : PackedTables) (s : Nat) : AutomatonState where
  accept := (present (entry p.accept s)).filter (1 ≤ ·)
  special := present (entry p.special s)
  endOfToken := present (entry p.endOfToken s)
  endOfInput := present (entry p.endOfInput s)
  low := (entry p.low s : Nat)
  edges := ((spread (p.row s)).map present).toArray

lemma column_eq_ok {name : String} {n : Nat} : p.column name packed n = .ok values ↔
    (packed.length % 2 = 0 ∧ (spread packed).length = n) ∧ values = spread packed := by
  rw [column, bind_eq_ok]
  constructor
  · rintro ⟨unpacked, hexpand, hlength⟩
    obtain ⟨heven, rfl⟩ := expand_eq_ok.1 hexpand
    split at hlength
    · rename_i hn
      exact ⟨⟨heven, hn⟩, (Except.ok.inj hlength).symm⟩
    · cases hlength
  · rintro ⟨⟨heven, hn⟩, rfl⟩
    exact ⟨_, expand_eq_ok.2 ⟨heven, rfl⟩, if_pos hn⟩

lemma rowEntries_eq_ok {s low high : Nat} : p.rowEntries s packed low high = .ok values ↔
    (packed.length % 2 = 0 ∧ (spread packed).length ≤ widthLimit low high) ∧
      values = spread packed := by
  have hwidth : high - low + 1 = widthLimit low high := by
    simp only [widthLimit, typeCount]
    omega
  rw [rowEntries, bind_eq_ok, ← hwidth]
  constructor
  · rintro ⟨unpacked, hexpand, hlength⟩
    obtain ⟨heven, rfl⟩ := expand_eq_ok.1 hexpand
    split at hlength
    · cases hlength
    · rename_i hn
      exact ⟨⟨heven, Nat.not_lt.1 hn⟩, (Except.ok.inj hlength).symm⟩
  · rintro ⟨⟨heven, hn⟩, rfl⟩
    exact ⟨_, expand_eq_ok.2 ⟨heven, rfl⟩, if_neg (Nat.not_lt.2 hn)⟩

lemma mapM_eq_ok {α β ε : Type} {f : α → Except ε β} {P : α → Prop} {g : α → β}
    (hf : ∀ x y, f x = .ok y ↔ P x ∧ y = g x) {xs : List α} {ys : List β} :
    xs.mapM f = .ok ys ↔ (∀ x ∈ xs, P x) ∧ ys = xs.map g := by
  induction xs generalizing ys with
  | nil => simp [pure, Except.pure, eq_comm]
  | cons x rest ih =>
    rw [List.mapM_cons, bind_eq_ok, List.forall_mem_cons, List.map_cons]
    constructor
    · rintro ⟨y, hy, hrest⟩
      obtain ⟨zs, hzs, heq⟩ := bind_eq_ok.1 hrest
      obtain ⟨hx, rfl⟩ := (hf x y).1 hy
      obtain ⟨hall, rfl⟩ := ih.1 hzs
      exact ⟨⟨hx, hall⟩, (Except.ok.inj heq).symm⟩
    · rintro ⟨⟨hx, hall⟩, rfl⟩
      exact ⟨_, (hf x _).2 ⟨hx, rfl⟩, bind_eq_ok.2 ⟨_, ih.2 ⟨hall, rfl⟩, rfl⟩⟩

/-- One state is made from the values for it, if its row is even and not too wide. -/
lemma stateAt_eq_ok {s : Nat} {state : AutomatonState} :
    (do
      let entries ← p.rowEntries s (p.row s) (entry p.low s) (entry p.high s)
      .ok { p.stateAt s with edges := (entries.map present).toArray }) = .ok state ↔
    ((p.row s).length % 2 = 0 ∧
      (spread (p.row s)).length ≤ widthLimit (entry p.low s) (entry p.high s)) ∧
      state = p.stateAt s := by
  rw [bind_eq_ok]
  constructor
  · rintro ⟨entries, hentries, heq⟩
    obtain ⟨hfits, rfl⟩ := rowEntries_eq_ok.1 hentries
    exact ⟨hfits, (Except.ok.inj heq).symm⟩
  · rintro ⟨hfits, rfl⟩
    exact ⟨_, rowEntries_eq_ok.2 ⟨hfits, rfl⟩, rfl⟩

lemma even_rows_iff (h : p.rows.length = p.stateCount) :
    (∀ s ∈ List.range p.stateCount, (p.row s).length % 2 = 0) ↔
      ∀ packed ∈ p.rows, packed.length % 2 = 0 := by
  simp only [List.mem_range, ← h, List.forall_mem_iff_getElem, row]
  refine forall_congr' fun s => forall_congr' fun hs => ?_
  rw [List.getD_eq_getElem?_getD, List.getElem?_eq_getElem hs, Option.getD_some]

/-- Tables with the right shape have their states. -/
lemma states_eq_ok {states : List AutomatonState} :
    (∃ accept, expand p.accept = .ok accept ∧ p.states accept = .ok states) ↔
      p.Shaped widthLimit ∧ states = (List.range p.stateCount).map p.stateAt := by
  constructor
  · rintro ⟨accept, hexpand, h⟩
    obtain ⟨haccept, rfl⟩ := expand_eq_ok.1 hexpand
    simp only [PackedTables.states, bind_eq_ok, column_eq_ok] at h
    obtain ⟨_, ⟨htoken, rfl⟩, _, ⟨hinput, rfl⟩, _, ⟨hlow, rfl⟩, _, ⟨hhigh, rfl⟩, _,
      ⟨hspecial, rfl⟩, h⟩ := h
    split at h
    · cases h
    · rename_i hrows
      have hrows := not_not.1 hrows
      obtain ⟨hstates, rfl⟩ := (mapM_eq_ok fun s _ => stateAt_eq_ok).1 h
      have heven := (even_rows_iff hrows).1 fun s hs => (hstates s hs).1
      refine ⟨⟨?_, ?_, hrows, fun s hs => (hstates s (List.mem_range.2 hs)).2⟩, rfl⟩
      · simp only [PackedTables.columns, List.forall_mem_append, List.forall_mem_cons]
        exact ⟨⟨htoken.1, hinput.1, hlow.1, hhigh.1, haccept, hspecial.1, by simp⟩, heven⟩
      · simp only [PackedTables.columns, List.forall_mem_cons]
        exact ⟨htoken.2, hinput.2, hlow.2, hhigh.2, rfl, hspecial.2, by simp⟩
  · rintro ⟨⟨heven, hcolumns, hrows, hwidth⟩, rfl⟩
    simp only [PackedTables.columns, List.forall_mem_append, List.forall_mem_cons] at heven hcolumns
    obtain ⟨⟨htoken, hinput, hlow, hhigh, haccept, hspecial, -⟩, heven⟩ := heven
    obtain ⟨htoken', hinput', hlow', hhigh', -, hspecial', -⟩ := hcolumns
    refine ⟨_, expand_eq_ok.2 ⟨haccept, rfl⟩, ?_⟩
    simp only [PackedTables.states, bind_eq_ok, column_eq_ok]
    refine ⟨_, ⟨⟨htoken, htoken'⟩, rfl⟩, _, ⟨⟨hinput, hinput'⟩, rfl⟩, _, ⟨⟨hlow, hlow'⟩, rfl⟩,
      _, ⟨⟨hhigh, hhigh'⟩, rfl⟩, _, ⟨⟨hspecial, hspecial'⟩, rfl⟩, ?_⟩
    refine (if_neg (not_not.2 hrows)).trans ?_
    refine (mapM_eq_ok fun s _ => stateAt_eq_ok).2 ⟨fun s hs => ?_, rfl⟩
    exact ⟨(even_rows_iff hrows).2 heven s hs, hwidth s (List.mem_range.1 hs)⟩

/-! ## Links of tables -/

lemma present_eq_some {value u : Nat} : present value = some u ↔ value = u ∧ value ≠ absent := by
  unfold present
  split
  · simp [*]
  · simp [*]

/-- What holds of all values that a column has for a state holds of all its values. -/
lemma forall_entry_iff {n : Nat} (h : (spread packed).length = n) {Q : Nat → Prop} :
    (∀ s < n, ∀ u, present (entry packed s) = some u → Q u) ↔
      ∀ u ∈ spread packed, u ≠ absent → Q u := by
  subst h
  rw [List.forall_mem_iff_getElem]
  refine forall_congr' fun s => forall_congr' fun hs => ?_
  simp only [present_eq_some, entry, List.getD_eq_getElem?_getD, List.getElem?_eq_getElem hs,
    Option.getD_some]
  exact ⟨fun hall hne => hall _ ⟨rfl, hne⟩, fun hall u hu => hu.1 ▸ hall hu.2⟩

lemma forall_row_iff (h : p.rows.length = p.stateCount) {Q : Nat → Prop} :
    (∀ s < p.stateCount, ∀ u, some u ∈ (p.stateAt s).edges → Q u) ↔
      ∀ packed ∈ p.rows, ∀ u ∈ spread packed, u ≠ absent → Q u := by
  rw [List.forall_mem_iff_getElem, ← h]
  refine forall_congr' fun s => forall_congr' fun hs => ?_
  simp only [stateAt, row, List.getD_eq_getElem?_getD, List.getElem?_eq_getElem hs,
    Option.getD_some, List.mem_toArray, List.mem_map, present_eq_some]
  constructor
  · exact fun hall u hu hne => hall u ⟨u, hu, rfl, hne⟩
  · rintro hall _ ⟨u, hu, rfl, hne⟩
    exact hall u hu hne

/-- The states of linked tables, and only those, name nothing that does not exist. -/
lemma linked_iff {width : (low high : Nat) → Nat} (h : p.Shaped width) : p.Linked specials ↔
    0 < p.stateCount ∧
      (∀ s < p.stateCount, (∀ q ∈ Automaton.stateTargets (p.stateAt s), q.2 < p.stateCount) ∧
        ∀ i, (p.stateAt s).special = some i → i < specials.length) ∧
      ∀ s ∈ specials, ∀ q ∈ Automaton.specialTargets s, q.2 < p.stateCount := by
  have hcolumns := h.columns
  simp only [PackedTables.columns, List.forall_mem_cons] at hcolumns
  obtain ⟨htoken, hinput, -, -, -, hspecial, -⟩ := hcolumns
  simp only [Automaton.forall_stateTargets_iff, Automaton.forall_specialTargets_iff, forall_and]
  have htable := forall_row_iff h.rows (Q := (· < p.stateCount))
  have htoken := forall_entry_iff htoken (Q := (· < p.stateCount))
  have hinput := forall_entry_iff hinput (Q := (· < p.stateCount))
  have hspecial := forall_entry_iff hspecial (Q := (· < specials.length))
  constructor
  · rintro ⟨h1, h2, h3, h4, h5, h6, h7⟩
    exact ⟨h1, ⟨⟨htable.2 h2, htoken.2 h3, hinput.2 h4⟩, hspecial.2 h5⟩, h6, h7⟩
  · rintro ⟨h1, ⟨⟨h2, h3, h4⟩, h5⟩, h6, h7⟩
    exact ⟨h1, htable.1 h2, htoken.1 h3, hinput.1 h4, hspecial.1 h5, h6, h7⟩

end PackedTables

namespace Automaton

open PackedTables

variable {p : PackedTables} {specials : List SpecialState}

/-- Valid tables are accepted, with the states that they have. -/
lemma ofPacked_eq_ok (h : p.Valid widthLimit specials) :
    ∃ a, ofPacked p specials = .ok a ∧ a.decision = p.decision ∧
      a.description = p.description ∧ a.specials = specials.toArray ∧
      a.states = ((List.range p.stateCount).map p.stateAt).toArray := by
  obtain ⟨hpos, hstates, hspecials⟩ := (linked_iff h.shaped).1 h.linked
  obtain ⟨accept, haccept, hget⟩ := states_eq_ok.2 ⟨h.shaped, rfl⟩
  have hlength : ((List.range p.stateCount).map p.stateAt).length = p.stateCount := by simp
  have hne := List.ne_nil_of_length_pos (hlength.symm ▸ hpos)
  refine ⟨_, (if_neg (not_not.2 h.version)).trans (bind_eq_ok.2 ⟨accept, haccept,
    bind_eq_ok.2 ⟨_, hget, ofStates_eq_ok hne (fun s hs => ?_) fun s hs q hq => ?_⟩⟩),
    rfl, rfl, rfl, rfl⟩
  · obtain ⟨i, hi, rfl⟩ := List.mem_map.1 hs
    rw [hlength]
    exact hstates i (List.mem_range.1 hi)
  · rw [hlength]
    exact hspecials s hs q hq

/-- Tables are accepted exactly if they are valid. -/
lemma isOk_ofPacked_iff :
    (∃ a, ofPacked p specials = .ok a) ↔ p.Valid widthLimit specials := by
  constructor
  · rintro ⟨a, ha⟩
    unfold ofPacked at ha
    split at ha
    · cases ha
    rename_i hversion
    obtain ⟨accept, haccept, hstates⟩ := bind_eq_ok.1 ha
    obtain ⟨states, hget, hof⟩ := bind_eq_ok.1 hstates
    obtain ⟨hshaped, rfl⟩ := states_eq_ok.1 ⟨accept, haccept, hget⟩
    have hclosed := closed_of_ofStates hof
    obtain ⟨hstates, hspecials⟩ := ofStates_parts hof
    have hcount : a.stateCount = p.stateCount := by simp [Automaton.stateCount, hstates]
    refine ⟨not_not.1 hversion, hshaped, (linked_iff hshaped).2
      ⟨hcount ▸ hclosed.nonempty, fun s hs => ?_, fun s hs => ?_⟩⟩
    · have hmem : p.stateAt s ∈ a.states := by
        rw [hstates, List.mem_toArray]
        exact List.mem_map_of_mem (List.mem_range.2 hs)
      refine ⟨forall_stateTargets_iff.2 ?_, fun i hi => ?_⟩
      · rw [← hcount]
        exact ⟨hclosed.table _ hmem, hclosed.endOfToken _ hmem, hclosed.endOfInput _ hmem⟩
      · have hlt := hclosed.special _ hmem i hi
        rwa [hspecials] at hlt
    · have hmem : s ∈ a.specials := hspecials ▸ List.mem_toArray.2 hs
      rw [forall_specialTargets_iff, ← hcount]
      exact ⟨hclosed.predicated s hmem, hclosed.fallback s hmem⟩
  · intro h
    obtain ⟨a, ha, -⟩ := ofPacked_eq_ok h
    exact ⟨a, ha⟩

end Automaton

/-! ## Tables of an automaton -/

namespace AutomatonState

/-- The states do the same, whatever parts of their tables are written down. -/
structure Alike (s s' : AutomatonState) : Prop where
  accept : s.accept = s'.accept
  special : s.special = s'.special
  endOfToken : s.endOfToken = s'.endOfToken
  endOfInput : s.endOfInput = s'.endOfInput
  edge : ∀ t, s.edge t = s'.edge t

lemma low_le_of_edge {s : AutomatonState} {t : Int} {u : Nat} (h : s.edge t = some u) :
    s.low ≤ t ∧ t < s.low + s.edges.size := by
  obtain ⟨i, hi, rfl⟩ := edge_eq_some_iff.1 h
  have hlt := (Array.getElem?_eq_some_iff.1 hi).1
  exact ⟨Int.le_add_of_nonneg_right (Int.natCast_nonneg i),
    Int.add_lt_add_left (Int.ofNat_lt.2 hlt) _⟩

end AutomatonState

namespace Automaton

/-- All numbers of the automaton can be told from what stands for nothing. -/
structure Fits (b : Automaton) : Prop where
  states : b.stateCount ≤ absent
  special : ∀ s ∈ b.states, ∀ i, s.special = some i → i < absent
  accept : ∀ s ∈ b.states, ∀ n, s.accept = some n → 1 ≤ n ∧ n < absent
  types : ∀ s ∈ b.states, ∀ t u, s.edge t = some u → 0 ≤ t ∧ t < absent

/-- The automata cannot be told apart by running their tables: they have as many states, with the
same meanings and the same steps. -/
structure Agrees (a b : Automaton) : Prop where
  stateCount : a.stateCount = b.stateCount
  accept : ∀ s, a.acceptedAt s = b.acceptedAt s
  special : ∀ s : Nat, a.states[s]?.bind AutomatonState.special =
    b.states[s]?.bind AutomatonState.special
  endOfToken : ∀ s : Nat, a.states[s]?.bind AutomatonState.endOfToken =
    b.states[s]?.bind AutomatonState.endOfToken
  endOfInput : ∀ s : Nat, a.states[s]?.bind AutomatonState.endOfInput =
    b.states[s]?.bind AutomatonState.endOfInput
  step : ∀ s t, a.step s t = b.step s t

/-- Automata agree if their states are alike. -/
lemma agrees_of_alike {a b : Automaton} (hcount : a.stateCount = b.stateCount)
    (h : ∀ (s : Nat) sa sb, a.states[s]? = some sa → b.states[s]? = some sb → sa.Alike sb) :
    a.Agrees b := by
  have hstate (s : Nat) : (a.states[s]? = none ∧ b.states[s]? = none) ∨
      ∃ sa sb, a.states[s]? = some sa ∧ b.states[s]? = some sb ∧ sa.Alike sb := by
    by_cases hs : s < a.stateCount
    · have ha := Array.getElem?_eq_getElem hs
      have hb := Array.getElem?_eq_getElem (Nat.lt_of_lt_of_eq hs hcount)
      exact .inr ⟨_, _, ha, hb, h s _ _ ha hb⟩
    · have hb : ¬ s < b.stateCount := hcount ▸ hs
      exact .inl ⟨Array.getElem?_eq_none (Nat.not_lt.1 hs),
        Array.getElem?_eq_none (Nat.not_lt.1 hb)⟩
  have harrive (u : Nat) : a.arrive u = b.arrive u := by
    unfold arrive
    obtain ⟨ha, hb⟩ | ⟨sa, sb, ha, hb, halike⟩ := hstate u
    · rw [ha, hb]
    · rw [ha, hb]
      simp only [halike.special, halike.accept]
  refine ⟨hcount, fun s => ?_, fun s => ?_, fun s => ?_, fun s => ?_, fun s t => ?_⟩
  all_goals obtain ⟨ha, hb⟩ | ⟨sa, sb, ha, hb, halike⟩ := hstate s
  · rw [acceptedAt, acceptedAt, ha, hb]
  · rw [acceptedAt, acceptedAt, ha, hb]
    exact halike.accept
  · rw [ha, hb]
  · rw [ha, hb]
    exact halike.special
  · rw [ha, hb]
  · rw [ha, hb]
    exact halike.endOfToken
  · rw [ha, hb]
  · rw [ha, hb]
    exact halike.endOfInput
  · rw [step, step, ha, hb]
  · have htarget : sa.target t = sb.target t := by
      simp only [AutomatonState.target, halike.edge, halike.endOfToken, halike.endOfInput]
    simp only [step, ha, hb, htarget, harrive]

end Automaton

namespace PackedTables

/-- The value that stands for a number, or for nothing, in packed tables. -/
def word (o : Option Nat) : Nat := o.getD absent

lemma present_word {o : Option Nat} (h : ∀ u, o = some u → u < absent) : present (word o) = o := by
  cases o with
  | none => rfl
  | some u => exact if_neg (Nat.ne_of_lt (h u rfl))

/-- A part of a state's table, on the types from `low` to `high`. -/
structure Window where
  low : Nat
  high : Nat
  values : List Nat

/-- The window shows the state's whole table.  What comes last may be left out if it stands for
nothing. -/
def Window.Shows (w : Window) (s : AutomatonState) : Prop :=
  (∀ t u, s.edge t = some u → (w.low : Int) ≤ t ∧ t ≤ w.high) ∧
    ∃ k, w.values ++ List.replicate k absent =
      (List.range (w.high + 1 - w.low)).map fun (i : Nat) => word (s.edge (w.low + (i : Int)))

lemma Window.Shows.length_le {w : Window} {s : AutomatonState} (h : w.Shows s) :
    w.values.length ≤ w.high + 1 - w.low := by
  obtain ⟨-, k, hk⟩ := h
  have hlength := congrArg List.length hk
  simp only [List.length_append, List.length_map, List.length_range] at hlength
  omega

/-- What a window shows are the edges of the table. -/
lemma Window.Shows.edge_eq {w : Window} {s s' : AutomatonState} (h : w.Shows s)
    (hfits : ∀ t u, s.edge t = some u → u < absent) (hlow : s'.low = w.low)
    (hedges : s'.edges = (w.values.map present).toArray) (t : Int) : s'.edge t = s.edge t := by
  have hlength := h.length_le
  obtain ⟨hbounds, k, hk⟩ := h
  have hout (t : Int) (ht : ¬ ((w.low : Int) ≤ t ∧ t ≤ w.high)) : s.edge t = none :=
    Option.eq_none_iff_forall_ne_some.2 fun u hu => ht (hbounds t u hu)
  rw [AutomatonState.edge, hlow, hedges]
  by_cases ht : t < w.low
  · rw [if_pos ht, hout t (by omega)]
  obtain ⟨i, rfl⟩ : ∃ i : Nat, t = w.low + (i : Int) := ⟨(t - w.low).toNat, by omega⟩
  have hplace : ((w.low : Int) + i - w.low).toNat = i := by omega
  rw [if_neg ht, hplace, Array.getD_eq_getD_getElem?, List.getElem?_toArray, List.getElem?_map]
  by_cases hwidth : i < w.high + 1 - w.low
  · have hget := congrArg (·[i]?) hk
    simp only [List.getElem?_map, List.getElem?_range hwidth, Option.map_some] at hget
    have hword := present_word (hfits (w.low + (i : Int)))
    by_cases hi : i < w.values.length
    · rw [List.getElem?_append_left hi] at hget
      rw [hget, Option.map_some, Option.getD_some, hword]
    · rw [List.getElem?_append_right (Nat.not_lt.1 hi), List.getElem?_replicate] at hget
      obtain ⟨-, hget⟩ := Option.ite_none_right_eq_some.1 hget
      rw [List.getElem?_eq_none (Nat.not_lt.1 hi), ← hword, ← Option.some.inj hget]
      rfl
  · rw [List.getElem?_eq_none (hlength.trans (Nat.not_lt.1 hwidth)), hout _ (by omega)]
    rfl

/-- The tables are a packed form of the automaton.  Where no alternative is predicted, there may be
a 0 as well. -/
structure Encodes (p : PackedTables) (b : Automaton) : Prop where
  version : p.version = currentVersion
  endOfToken : Packs p.endOfToken (b.states.toList.map fun s => word s.endOfToken)
  endOfInput : Packs p.endOfInput (b.states.toList.map fun s => word s.endOfInput)
  special : Packs p.special (b.states.toList.map fun s => word s.special)
  accept : ∃ values, Packs p.accept values ∧ List.Forall₂
    (fun s value => value = word s.accept ∨ s.accept = none ∧ value = 0) b.states.toList values
  table : ∃ windows : List Window, Packs p.low (windows.map Window.low) ∧
    Packs p.high (windows.map Window.high) ∧
    List.Forall₂ (fun packed w => Packs packed w.values) p.rows windows ∧
    List.Forall₂ (fun s w => w.Shows s) b.states.toList windows

variable {p : PackedTables} {b : Automaton} {packed values : List Nat} {s : Nat}
  {state : AutomatonState}

lemma Packs.entry_eq {v : Nat} (h : Packs packed values) (hv : values[s]? = some v) :
    entry packed s = v := by
  obtain ⟨-, rfl⟩ := packs_iff.1 h
  rw [entry, List.getD_eq_getElem?_getD, hv, Option.getD_some]

lemma Packs.entry_map {α : Type} {f : α → Nat} {xs : List α} {x : α}
    (h : Packs packed (xs.map f)) (hx : xs[s]? = some x) : entry packed s = f x :=
  h.entry_eq (by rw [List.getElem?_map, hx, Option.map_some])

lemma Packs.length_spread (h : Packs packed values) : (spread packed).length = values.length := by
  rw [(packs_iff.1 h).2]

lemma Encodes.stateCount_eq (h : p.Encodes b) : p.stateCount = b.stateCount := by
  obtain ⟨values, hpacks, hall⟩ := h.accept
  rw [PackedTables.stateCount, hpacks.length_spread, ← hall.length_eq, Array.length_toList,
    Automaton.stateCount]

lemma forall₂_getElem? {α β : Type} {R : α → β → Prop} {xs : List α} {ys : List β}
    (h : List.Forall₂ R xs ys) {s : Nat} {x : α} (hx : xs[s]? = some x) :
    ∃ y, ys[s]? = some y ∧ R x y := by
  induction h generalizing s with
  | nil => cases hx
  | cons hR _ ih =>
    cases s with
    | zero => exact ⟨_, rfl, Option.some.inj hx ▸ hR⟩
    | succ s => exact ih hx

/-- The window through which the tables show a state. -/
lemma Encodes.window (h : p.Encodes b) (hstate : b.states[s]? = some state) :
    ∃ w : Window, w.Shows state ∧ entry p.low s = w.low ∧ entry p.high s = w.high ∧
      spread (p.row s) = w.values := by
  obtain ⟨windows, hlow, hhigh, hrows, hshows⟩ := h.table
  obtain ⟨w, hw, hshow⟩ := forall₂_getElem? hshows (Array.getElem?_toList.trans hstate)
  obtain ⟨packed, hpacked, hrow⟩ := forall₂_getElem? hrows.flip hw
  refine ⟨w, hshow, hlow.entry_map hw, hhigh.entry_map hw, ?_⟩
  rw [row, List.getD_eq_getElem?_getD, hpacked]
  exact (packs_iff.1 hrow).2

/-- However the arrays are packed, they have the right shape. -/
lemma Encodes.shaped (h : p.Encodes b) : p.Shaped typeCount := by
  have hcount := h.stateCount_eq
  obtain ⟨accepts, haccept, hall⟩ := h.accept
  obtain ⟨windows, hlow, hhigh, hrows, hshows⟩ := h.table
  have hwindows : windows.length = p.stateCount := by
    rw [← hshows.length_eq, hcount, Array.length_toList, Automaton.stateCount]
  have hmap (f : AutomatonState → Nat) : (b.states.toList.map f).length = p.stateCount := by
    rw [List.length_map, hcount, Array.length_toList, Automaton.stateCount]
  refine ⟨?_, ?_, hrows.length_eq.trans hwindows, fun s hs => ?_⟩
  · simp only [PackedTables.columns, List.forall_mem_append, List.forall_mem_cons]
    refine ⟨⟨(packs_iff.1 h.endOfToken).1, (packs_iff.1 h.endOfInput).1, (packs_iff.1 hlow).1,
      (packs_iff.1 hhigh).1, (packs_iff.1 haccept).1, (packs_iff.1 h.special).1, by simp⟩, ?_⟩
    intro packed hpacked
    obtain ⟨s, hs⟩ := List.mem_iff_getElem?.1 hpacked
    obtain ⟨w, -, hw⟩ := forall₂_getElem? hrows hs
    exact (packs_iff.1 hw).1
  · simp only [PackedTables.columns, List.forall_mem_cons]
    refine ⟨h.endOfToken.length_spread.trans (hmap _), h.endOfInput.length_spread.trans (hmap _),
      hlow.length_spread.trans ((List.length_map _).trans hwindows),
      hhigh.length_spread.trans ((List.length_map _).trans hwindows), rfl,
      h.special.length_spread.trans (hmap _), by simp⟩
  · have hstate := Array.getElem?_eq_getElem (Nat.lt_of_lt_of_eq hs hcount)
    obtain ⟨w, hshow, hlow, hhigh, hrow⟩ := h.window hstate
    rw [hlow, hhigh, hrow]
    exact hshow.length_le

/-- The states that the tables show are those of the automaton. -/
lemma Encodes.alike (h : p.Encodes b) (hclosed : b.Closed) (hfits : b.Fits)
    (hstate : b.states[s]? = some state) : (p.stateAt s).Alike state := by
  have hmem : state ∈ b.states := Array.mem_of_getElem? hstate
  have hlist : b.states.toList[s]? = some state := Array.getElem?_toList.trans hstate
  have hbelow {u : Nat} (hu : u < b.stateCount) : u < absent := Nat.lt_of_lt_of_le hu hfits.states
  constructor
  · obtain ⟨accepts, haccept, hall⟩ := h.accept
    obtain ⟨v, hv, hvalue⟩ := forall₂_getElem? hall hlist
    show (present (entry p.accept s)).filter (1 ≤ ·) = state.accept
    rw [haccept.entry_eq hv]
    obtain rfl | ⟨hnone, rfl⟩ := hvalue
    · rw [present_word fun n hn => (hfits.accept state hmem n hn).2]
      cases hn : state.accept with
      | none => rfl
      | some n => exact if_pos (decide_eq_true (hfits.accept state hmem n hn).1)
    · rw [hnone]
      rfl
  · show present (entry p.special s) = state.special
    rw [h.special.entry_map hlist, present_word (hfits.special state hmem)]
  · show present (entry p.endOfToken s) = state.endOfToken
    rw [h.endOfToken.entry_map hlist,
      present_word fun u hu => hbelow (hclosed.endOfToken state hmem u hu)]
  · show present (entry p.endOfInput s) = state.endOfInput
    rw [h.endOfInput.entry_map hlist,
      present_word fun u hu => hbelow (hclosed.endOfInput state hmem u hu)]
  · obtain ⟨w, hshow, hlow, -, hrow⟩ := h.window hstate
    refine hshow.edge_eq (fun t u hu => ?_) (congrArg Nat.cast hlow) ?_
    · obtain ⟨i, hi, -⟩ := AutomatonState.edge_eq_some_iff.1 hu
      exact hbelow (hclosed.table state hmem u (Array.mem_of_getElem? hi))
    · rw [← hrow]
      rfl

/-- No link of the tables leads to nowhere. -/
lemma Encodes.linked (h : p.Encodes b) (hclosed : b.Closed) (hfits : b.Fits) :
    p.Linked b.specials.toList := by
  have hcount := h.stateCount_eq
  refine (linked_iff h.shaped).2 ⟨hcount ▸ hclosed.nonempty, fun s hs => ?_, fun s hs => ?_⟩
  · have hstate := Array.getElem?_eq_getElem (Nat.lt_of_lt_of_eq hs hcount)
    have hmem := Array.mem_of_getElem? hstate
    have halike := h.alike hclosed hfits hstate
    rw [hcount, Automaton.forall_stateTargets_iff, halike.endOfToken, halike.endOfInput,
      halike.special, Array.length_toList]
    refine ⟨⟨fun u hu => ?_, hclosed.endOfToken _ hmem, hclosed.endOfInput _ hmem⟩,
      hclosed.special _ hmem⟩
    obtain ⟨i, hi⟩ := Array.mem_iff_getElem?.1 hu
    have hedge := AutomatonState.edge_eq_some_iff.2 ⟨i, hi, rfl⟩
    rw [halike.edge] at hedge
    obtain ⟨j, hj, -⟩ := AutomatonState.edge_eq_some_iff.1 hedge
    exact hclosed.table _ hmem u (Array.mem_of_getElem? hj)
  · have hmem : s ∈ b.specials := Array.mem_toList_iff.1 hs
    rw [hcount, Automaton.forall_specialTargets_iff]
    exact ⟨hclosed.predicated s hmem, hclosed.fallback s hmem⟩

/-- Whatever packed form of an automaton the tables are, they stand for it. -/
lemma Encodes.agrees (h : p.Encodes b) (hclosed : b.Closed) (hfits : b.Fits) :
    ∃ a, Automaton.ofPacked p b.specials.toList = .ok a ∧ a.decision = p.decision ∧
      a.description = p.description ∧ a.specials = b.specials ∧ a.Agrees b := by
  obtain ⟨a, ha, hdecision, hdescription, hspecials, hstates⟩ :=
    Automaton.ofPacked_eq_ok (Valid.of_typeCount ⟨h.version, h.shaped, h.linked hclosed hfits⟩)
  have hcount : a.stateCount = b.stateCount := by
    simp [Automaton.stateCount, hstates, h.stateCount_eq]
  refine ⟨a, ha, hdecision, hdescription, hspecials, Automaton.agrees_of_alike hcount ?_⟩
  intro s sa sb hsa hsb
  have hs : s < p.stateCount := h.stateCount_eq ▸ (Array.getElem?_eq_some_iff.1 hsb).1
  rw [hstates, List.getElem?_toArray, List.getElem?_map, List.getElem?_range hs] at hsa
  obtain rfl := Option.some.inj hsa
  exact h.alike hclosed hfits hsb

/-! ## A packed form -/

/-- All numbers of the tables have sixteen bits. -/
def Narrow (p : PackedTables) : Prop := ∀ packed ∈ p.columns ++ p.rows, ∀ n ∈ packed, n ≤ absent

/-- Values as an array, each of them in a run of its own. -/
def singly (values : List Nat) : List Nat := values.flatMap fun v => [1, v]

lemma packs_singly (values : List Nat) : Packs (singly values) values := by
  refine ⟨values.map (1, ·), by rw [List.flatMap_map, singly], ?_⟩
  rw [List.flatMap_map]
  exact (List.flatMap_singleton' values).symm

lemma narrow_singly (h : ∀ v ∈ values, v ≤ absent) : ∀ n ∈ singly values, n ≤ absent := by
  intro n hn
  obtain ⟨v, hv, hn⟩ := List.mem_flatMap.1 hn
  obtain rfl | hn := List.mem_cons.1 hn
  · decide
  · exact List.mem_singleton.1 hn ▸ h v hv

lemma word_le {o : Option Nat} (h : ∀ u, o = some u → u < absent) : word o ≤ absent := by
  cases o with
  | none => exact Nat.le_refl _
  | some u => exact Nat.le_of_lt (h u rfl)

/-- The window that shows a table on all types that packed tables can have. -/
def Window.whole (s : AutomatonState) : Window where
  low := 0
  high := absent - 1
  values := (List.range absent).map fun (i : Nat) => word (s.edge (i : Int))

/-- The tables of an automaton, without any run that is longer than one. -/
def ofAutomaton (b : Automaton) : PackedTables where
  version := currentVersion
  decision := b.decision
  description := b.description
  endOfToken := singly (b.states.toList.map fun s => word s.endOfToken)
  endOfInput := singly (b.states.toList.map fun s => word s.endOfInput)
  low := singly (b.states.toList.map fun s => (Window.whole s).low)
  high := singly (b.states.toList.map fun s => (Window.whole s).high)
  accept := singly (b.states.toList.map fun s => word s.accept)
  special := singly (b.states.toList.map fun s => word s.special)
  rows := b.states.toList.map fun s => singly (Window.whole s).values

/-- An automaton that fits has a packed form, in numbers of sixteen bits. -/
lemma encodes_ofAutomaton (hclosed : b.Closed) (hfits : b.Fits) :
    (ofAutomaton b).Encodes b ∧ (ofAutomaton b).Narrow := by
  have hbelow {u : Nat} (hu : u < b.stateCount) : u < absent := Nat.lt_of_lt_of_le hu hfits.states
  have htable (s : AutomatonState) (hs : s ∈ b.states) (t : TokenType) (u : Nat)
      (hu : s.edge t = some u) : u < absent := by
    obtain ⟨i, hi, -⟩ := AutomatonState.edge_eq_some_iff.1 hu
    exact hbelow (hclosed.table s hs u (Array.mem_of_getElem? hi))
  have hnarrow {f : AutomatonState → Nat} (hf : ∀ s ∈ b.states, f s ≤ absent) :
      ∀ n ∈ singly (b.states.toList.map f), n ≤ absent := by
    refine narrow_singly fun v hv => ?_
    obtain ⟨s, hs, rfl⟩ := List.mem_map.1 hv
    exact hf s (Array.mem_toList_iff.1 hs)
  constructor
  · refine ⟨rfl, packs_singly _, packs_singly _, packs_singly _, ⟨_, packs_singly _, ?_⟩,
      b.states.toList.map Window.whole, ?_, ?_, ?_, ?_⟩
    · exact List.forall₂_map_right_iff.2 (List.forall₂_same.2 fun s _ => .inl rfl)
    · rw [List.map_map]
      exact packs_singly _
    · rw [List.map_map]
      exact packs_singly _
    · exact List.forall₂_map_left_iff.2 (List.forall₂_map_right_iff.2
        (List.forall₂_same.2 fun s _ => packs_singly _))
    · refine List.forall₂_map_right_iff.2 (List.forall₂_same.2 fun s hs => ?_)
      refine ⟨fun t u hu => ?_, 0, ?_⟩
      · have htypes := hfits.types s (Array.mem_toList_iff.1 hs) t u hu
        have hlast : ((absent - 1 : Nat) : Int) = (absent : Int) - 1 := by simp [absent]
        exact ⟨htypes.1, hlast ▸ Int.le_sub_one_of_lt htypes.2⟩
      · simp [Window.whole, absent]
  · simp only [Narrow, PackedTables.columns, ofAutomaton, List.forall_mem_append,
      List.forall_mem_cons]
    refine ⟨⟨hnarrow fun s hs => ?_, hnarrow fun s hs => ?_, hnarrow fun s _ => ?_,
      hnarrow fun s _ => ?_, hnarrow fun s hs => ?_, hnarrow fun s hs => ?_, by simp⟩, ?_⟩
    · exact word_le fun u hu => hbelow (hclosed.endOfToken s hs u hu)
    · exact word_le fun u hu => hbelow (hclosed.endOfInput s hs u hu)
    · exact Nat.zero_le _
    · exact Nat.sub_le _ _
    · exact word_le fun n hn => (hfits.accept s hs n hn).2
    · exact word_le (hfits.special s hs)
    · intro packed hpacked
      obtain ⟨s, hs, rfl⟩ := List.mem_map.1 hpacked
      refine narrow_singly fun v hv => ?_
      simp only [Window.whole, List.mem_map] at hv
      obtain ⟨i, -, rfl⟩ := hv
      exact word_le (htable s (Array.mem_toList_iff.1 hs) i)

end PackedTables

namespace Automaton

open PackedTables (entry spread typeCount valid_widthLimit_iff widthLimit)

/-- **Packed tables are read back, and nothing else is accepted.**  An automaton that is closed
and fits, so that all its numbers can be told from the one that stands for nothing, has a packed
form; and from whatever packed form, by whatever runs, comes an automaton with the same states and
the same steps on all types.

Arbitrary tables are accepted exactly if they are valid, up to `widthLimit`, and otherwise they
are a misuse.  So the width of a row is what it should be, the number of types that it is for,
unless there is a row with a value that is for no types: such a row is taken to be one type
wide. -/
theorem ofPacked_spec (p : PackedTables) (specials : List SpecialState) :
    (∀ b : Automaton, b.Closed → b.Fits →
      (∃ q : PackedTables, q.Encodes b ∧ q.Narrow) ∧
        (p.Encodes b → ∃ a, ofPacked p b.specials.toList = .ok a ∧
          a.decision = p.decision ∧ a.description = p.description ∧ a.specials = b.specials ∧
          a.Agrees b)) ∧
    ((∃ a, ofPacked p specials = .ok a) ↔ p.Valid widthLimit specials) ∧
    (¬ p.Valid widthLimit specials → ∃ cause : Misuse, ofPacked p specials = .error cause) ∧
    ((∀ s < p.stateCount, entry p.high s < entry p.low s → spread (p.row s) = []) →
      ((∃ a, ofPacked p specials = .ok a) ↔ p.Valid typeCount specials)) := by
  refine ⟨fun b hclosed hfits => ⟨⟨_, PackedTables.encodes_ofAutomaton hclosed hfits⟩,
    fun hp => hp.agrees hclosed hfits⟩, isOk_ofPacked_iff, fun hnot => ?_,
    fun hrows => isOk_ofPacked_iff.trans (valid_widthLimit_iff hrows)⟩
  cases hof : ofPacked p specials with
  | ok a => exact absurd (isOk_ofPacked_iff.1 ⟨a, hof⟩) hnot
  | error cause => exact ⟨cause, rfl⟩

/-- A decision between two letters, the second of which may be followed by anything. -/
def twoLetters : Automaton where
  decision := 7
  description := "r : A | C ;"
  states := #[⟨none, none, none, some 2, 4, #[some 1, none, some 2]⟩,
    ⟨some 1, none, none, none, 0, #[]⟩, ⟨none, some 0, some 1, none, 0, #[]⟩]
  specials := #[⟨[], [2], some 1⟩]
  alternatives := ascending [1, 2]

/-- Tables of this decision.  Some runs are cut up or empty, a row ends early, and both values that
stand for no alternative occur. -/
def twoLettersPacked : PackedTables where
  version := 3
  decision := 7
  description := "r : A | C ;"
  endOfToken := [1, 65535, 0, 9, 1, 65535, 1, 1]
  endOfInput := [1, 2, 2, 65535]
  low := [1, 4, 2, 0]
  high := [1, 7, 2, 0]
  accept := [1, 0, 1, 1, 1, 65535]
  special := [2, 65535, 1, 0]
  rows := [[1, 1, 0, 5, 1, 65535, 1, 2], [], [1, 65535]]

lemma accepted_twoLetters : twoLetters.Accepted := by
  have hbuilt : ofClauses 7 "r : A | C ;" [.edge 0 4 1, .edge 0 6 2, .edge 0 .eof 2, .accept 1 1,
      .endOfToken 2 1, .special 2 ((SpecialState.empty.simulating [2]).fallingBack 1)] =
        .ok twoLetters := rfl
  exact .built hbuilt

lemma fits_twoLetters : twoLetters.Fits where
  states := by decide
  special := by simp [twoLetters, absent]
  accept := by simp [twoLetters, absent]
  types s hs t u hu := by
    have hbounds := AutomatonState.low_le_of_edge hu
    have hstates : ∀ s ∈ twoLetters.states, 0 ≤ s.low ∧ s.low + s.edges.size ≤ absent := by decide
    exact ⟨Int.le_trans (hstates s hs).1 hbounds.1, Int.lt_of_lt_of_le hbounds.2 (hstates s hs).2⟩

lemma encodes_twoLetters : twoLettersPacked.Encodes twoLetters := by
  refine ⟨rfl, ⟨[(1, 65535), (0, 9), (1, 65535), (1, 1)], rfl, rfl⟩,
    ⟨[(1, 2), (2, 65535)], rfl, rfl⟩, ⟨[(2, 65535), (1, 0)], rfl, rfl⟩,
    ⟨[0, 1, 65535], ⟨[(1, 0), (1, 1), (1, 65535)], rfl, rfl⟩, ?_⟩,
    [⟨4, 7, [1, 65535, 2]⟩, ⟨0, 0, []⟩, ⟨0, 0, [65535]⟩], ⟨[(1, 4), (2, 0)], rfl, rfl⟩,
    ⟨[(1, 7), (2, 0)], rfl, rfl⟩, ?_, ?_⟩
  · exact .cons (.inr ⟨rfl, rfl⟩) (.cons (.inl rfl) (.cons (.inl rfl) .nil))
  · exact .cons ⟨[(1, 1), (0, 5), (1, 65535), (1, 2)], rfl, rfl⟩
      (.cons ⟨[], rfl, rfl⟩ (.cons ⟨[(1, 65535)], rfl, rfl⟩ .nil))
  · have hshow (s : AutomatonState) (w : PackedTables.Window) (hlow : (w.low : Int) ≤ s.low)
        (hhigh : s.low + s.edges.size ≤ w.high + 1) (k : Nat)
        (hvalues : w.values ++ List.replicate k absent = (List.range (w.high + 1 - w.low)).map
          fun (i : Nat) => PackedTables.word (s.edge (w.low + (i : Int)))) : w.Shows s := by
      refine ⟨fun t u hu => ?_, k, hvalues⟩
      have hbounds := AutomatonState.low_le_of_edge hu
      exact ⟨Int.le_trans hlow hbounds.1, Int.le_of_lt_add_one (Int.lt_of_lt_of_le hbounds.2 hhigh)⟩
    exact .cons (hshow _ _ (by decide) (by decide) 1 rfl)
      (.cons (hshow _ _ (by decide) (by decide) 1 rfl)
        (.cons (hshow _ _ (by decide) (by decide) 0 rfl) .nil))

/-- The tables of the two letters are read back, and those of another version are refused. -/
theorem ofPacked_spec_twoLetters :
    (∃ a, ofPacked twoLettersPacked twoLetters.specials.toList = .ok a ∧ a.Agrees twoLetters) ∧
      twoLettersPacked.Valid typeCount twoLetters.specials.toList ∧
      ∃ cause, ofPacked { twoLettersPacked with version := 2 } [] = .error cause := by
  obtain ⟨hread, -, -, hvalid⟩ := ofPacked_spec twoLettersPacked twoLetters.specials.toList
  obtain ⟨-, hread⟩ := hread twoLetters accepted_twoLetters.closed fits_twoLetters
  obtain ⟨a, ha, -, -, -, hagrees⟩ := hread encodes_twoLetters
  obtain ⟨-, -, hrefuse, -⟩ := ofPacked_spec { twoLettersPacked with version := 2 } []
  have hrows : ∀ s < twoLettersPacked.stateCount,
      entry twoLettersPacked.high s < entry twoLettersPacked.low s →
        spread (twoLettersPacked.row s) = [] := by decide
  exact ⟨⟨a, ha, hagrees⟩, (hvalid hrows).1 ⟨a, ha⟩, hrefuse fun h => absurd h.version (by decide)⟩

/-- A row that covers no types, because they would go from 5 to 3, may have one value all the same,
and this is an edge on 5. -/
example : (ofPacked { twoLettersPacked with
      endOfToken := [2, 65535], endOfInput := [2, 65535], low := [1, 5, 1, 0], high := [1, 3, 1, 0],
      accept := [1, 65535, 1, 1], special := [2, 65535], rows := [[1, 1], []] } []).map
    (·.step 0 5) = .ok (.accept 1) := rfl

end Automaton

end Lookahead
