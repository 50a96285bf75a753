import Lookahead.Proofs.Automaton.Closed
import Lookahead.Proofs.TokenSet

/-!
# What clauses describe

Every description by clauses is accepted, and the automaton does what the clauses say, each read for
itself: the table's edge on a type is that of the last clause that has one, and so on for whatever
else clauses say about a state (`ofClauses_spec`).  How the edges are packed into a table, and that
states come to exist by being mentioned, cannot be seen from outside.

The clauses are read by `latest`, without drafts.  A draft knows for each state what the clauses so
far say last (`Drafts.Tells`), whatever they mention exists (`Drafts.Closed`), and the table that is
made of its edges has the same edges (`Draft.edge_state`).
-/

namespace Lookahead

/-! ## Reading clauses -/

namespace AutomatonClause

variable {α : Type}

/-- The target of the clause's edge from a state on a type, if the clause has such an edge. -/
def edgeOn (s : Nat) (t : TokenType) : AutomatonClause → Option Nat
  | .edge source type target => if source = s ∧ type = t then some target else none
  | .range source low high target =>
    if source = s ∧ low ≤ t ∧ t ≤ high then some target else none
  | .set source types target => if source = s ∧ types.has t then some target else none
  | _ => none

/-- The target of the edge that the clause has for the end of the token. -/
def edgeOtherwise (s : Nat) : AutomatonClause → Option Nat
  | .endOfToken source target => if source = s then some target else none
  | _ => none

/-- The alternative that the clause has a state predict, if it says anything about that. -/
def predicts (s : Nat) : AutomatonClause → Option Nat
  | .accept state alternative => if state = s then some alternative else none
  | _ => none

/-- The special state that the clause has decide at a state. -/
def decides (s : Nat) : AutomatonClause → Option SpecialState
  | .special state means => if state = s then some means else none
  | _ => none

/-- What the last clause has to say about a matter, of those that say anything. -/
def latest (matter : AutomatonClause → Option α) (clauses : List AutomatonClause) : Option α :=
  clauses.reverse.findSome? matter

lemma latest_concat (matter : AutomatonClause → Option α) (clauses : List AutomatonClause)
    (c : AutomatonClause) :
    latest matter (clauses ++ [c]) = (matter c).or (latest matter clauses) := by
  rw [latest, List.reverse_append, List.reverse_singleton, List.singleton_append,
    List.findSome?_cons, latest]
  cases matter c <;> rfl

/-- Where the clauses lead from a state on a type.  An edge for the end of the token gives way to an
edge on the type, but not to one on the end of input. -/
def leads (clauses : List AutomatonClause) (s : Nat) (t : TokenType) : Option Nat :=
  let own := latest (edgeOn s t) clauses
  let otherwise := latest (edgeOtherwise s) clauses
  if t = .eof then otherwise.or own else own.or otherwise

/-- What the clauses make of arriving at a state: it decides by its latest special state, or accepts
what was last said, or goes on. -/
def arrival (clauses : List AutomatonClause) (s : Nat) : AutomatonStep :=
  if (latest (decides s) clauses).isSome then .special s
  else match latest (predicts s) clauses with
    | some n => .accept n
    | none => .next s

end AutomatonClause

namespace Automaton

open AutomatonClause

/-! ## Tables -/

namespace Draft

/-- The edge that a draft has on a type, of several the latest. -/
def edgeOn (d : Draft) (t : TokenType) : Option Nat :=
  if t = .eof then d.endOfInput else d.edges.lookup t

variable {es : List (Int × Nat)} {low t : Int} {entries : Array (Option Nat)}

/-- Writing edges into a table, the latest last, puts each type's latest edge at the place of the
type. -/
lemma getD_fill (hlow : low ≤ t)
    (hes : ∀ e ∈ es, low ≤ e.1 ∧ (e.1 - low).toNat < entries.size) :
    (es.foldr (fun e entries => entries.setIfInBounds (e.1 - low).toNat (some e.2)) entries).getD
        (t - low).toNat none =
      (es.lookup t).or (entries.getD (t - low).toNat none) := by
  have hsize (es : List (Int × Nat)) : (es.foldr (fun e entries =>
      entries.setIfInBounds (e.1 - low).toNat (some e.2)) entries).size = entries.size := by
    induction es with
    | nil => rfl
    | cons e rest ih => rw [List.foldr_cons, Array.size_setIfInBounds, ih]
  induction es with
  | nil => rfl
  | cons e rest ih =>
    obtain ⟨type, target⟩ := e
    obtain ⟨⟨htype, hbound⟩, hrest⟩ := List.forall_mem_cons.1 hes
    have hplace : (type - low).toNat = (t - low).toNat ↔ t = type := by
      simp only at htype
      omega
    rw [List.foldr_cons, List.lookup_cons, Array.getD_eq_getD_getElem?,
      Array.getElem?_setIfInBounds]
    by_cases ht : t = type
    · rw [if_pos (hplace.2 ht), if_pos (by rw [hsize]; exact hbound), beq_iff_eq.2 ht]
      rfl
    · rw [if_neg (mt hplace.1 ht), ← Array.getD_eq_getD_getElem?, ih hrest,
        beq_eq_false_iff_ne.2 ht]

lemma foldl_min_le (es : List (Int × Nat)) (m : Int) :
    es.foldl (fun m e => min m e.1) m ≤ m ∧
      ∀ e ∈ es, es.foldl (fun m e => min m e.1) m ≤ e.1 := by
  induction es generalizing m with
  | nil => simp
  | cons e rest ih =>
    obtain ⟨hm, hrest⟩ := ih (min m e.1)
    rw [List.foldl_cons, List.forall_mem_cons]
    exact ⟨by omega, by omega, hrest⟩

lemma le_foldl_max (es : List (Int × Nat)) (m : Int) :
    m ≤ es.foldl (fun m e => max m e.1) m ∧
      ∀ e ∈ es, e.1 ≤ es.foldl (fun m e => max m e.1) m := by
  induction es generalizing m with
  | nil => simp
  | cons e rest ih =>
    obtain ⟨hm, hrest⟩ := ih (max m e.1)
    rw [List.foldl_cons, List.forall_mem_cons]
    exact ⟨by omega, by omega, hrest⟩

/-- Nothing is in front of the table's first entry. -/
lemma table_low_le : ∀ e ∈ es, (table es).1 ≤ e.1 := by
  cases es with
  | nil => simp
  | cons e rest =>
    obtain ⟨hmin, hmins⟩ := foldl_min_le rest e.1
    exact List.forall_mem_cons.2 ⟨hmin, hmins⟩

lemma getD_table (hlow : (table es).1 ≤ t) :
    (table es).2.getD (t - (table es).1).toNat none = es.lookup t := by
  cases es with
  | nil => simp [table]
  | cons e rest =>
    obtain ⟨hmax, hmaxs⟩ := le_foldl_max rest e.1
    have hhigh : ∀ e' ∈ e :: rest, e'.1 ≤ rest.foldl (fun m e => max m e.1) e.1 :=
      List.forall_mem_cons.2 ⟨hmax, hmaxs⟩
    refine (getD_fill hlow fun e' he' => ?_).trans ?_
    · rw [Array.size_replicate]
      exact ⟨table_low_le e' he',
        Nat.lt_succ_of_le (Int.toNat_le_toNat (Int.sub_le_sub_right (hhigh e' he') _))⟩
    · rw [Array.getD_eq_getD_getElem?, Array.getElem?_replicate]
      cases (e :: rest).lookup t with
      | some u => rfl
      | none => split <;> rfl

/-- The table has the edges that it is made of. -/
lemma edge_state (d : Draft) (t : Int) : d.state.edge t = d.edges.lookup t := by
  change (if t < (table d.edges).1 then none else
    (table d.edges).2.getD (t - (table d.edges).1).toNat none) = _
  split
  · rename_i hlt
    refine (List.lookup_eq_none_iff.2 fun e he => bne_iff_ne.2 ?_).symm
    exact Int.ne_of_lt (Int.lt_of_lt_of_le hlt (table_low_le e he))
  · rename_i hle
    exact getD_table (Int.not_lt.1 hle)

lemma mem_of_lookup {u : Nat} (h : es.lookup t = some u) : (t, u) ∈ es := by
  obtain ⟨before, after, rfl, -⟩ := List.lookup_eq_some_iff.1 h
  exact List.mem_append_right _ List.mem_cons_self

lemma mem_edges_of_mem_table {d : Draft} {u : Nat} (h : some u ∈ d.state.edges) :
    ∃ t, (t, u) ∈ d.edges := by
  obtain ⟨i, hget⟩ := Array.mem_iff_getElem?.1 h
  have hedge := AutomatonState.edge_eq_some_iff.2 ⟨i, hget, rfl⟩
  rw [edge_state] at hedge
  exact ⟨_, mem_of_lookup hedge⟩

end Draft

/-! ## Drafts -/

namespace Drafts

/-- The draft of a state, which is blank if nothing has mentioned the state. -/
def look (d : Drafts) (s : Nat) : Draft := d.states.getD s .blank

variable {d : Drafts} {s s' u : Nat} {t t' : TokenType}

lemma look_initial (s : Nat) : Drafts.initial.look s = .blank := by
  simp only [look, Drafts.initial, Array.getD_eq_getD_getElem?]
  cases s <;> rfl

lemma look_mention (d : Drafts) (u s : Nat) : (d.mention u).look s = d.look s := by
  simp only [look, mention, Array.getD_eq_getD_getElem?, Array.getElem?_append]
  split
  · rfl
  · rename_i hle
    rw [Array.getElem?_eq_none (Nat.not_lt.1 hle), Array.getElem?_replicate]
    split <;> rfl

lemma size_mention (d : Drafts) (u : Nat) :
    (d.mention u).states.size = max d.states.size (u + 1) := by
  simp only [mention, Array.size_append, Array.size_replicate]
  omega

lemma look_change (d : Drafts) (u s : Nat) (f : Draft → Draft) :
    (d.change u f).look s = if u = s then f (d.look s) else d.look s := by
  rw [← look_mention d u s]
  simp only [look, change, Array.getD_eq_getD_getElem?, Array.getElem?_modify]
  split
  · rename_i heq
    have hlt : s < (d.mention u).states.size := by
      rw [size_mention]
      omega
    rw [Array.getElem?_eq_getElem hlt]
    rfl
  · rfl

lemma size_change (d : Drafts) (u : Nat) (f : Draft → Draft) :
    (d.change u f).states.size = max d.states.size (u + 1) := by
  rw [change, Array.size_modify, size_mention]

lemma specials_mention (d : Drafts) (u : Nat) : (d.mention u).specials = d.specials := rfl

lemma specials_change (d : Drafts) (u : Nat) (f : Draft → Draft) :
    (d.change u f).specials = d.specials := rfl

lemma specials_addEdge (d : Drafts) (source : Nat) (type : TokenType) (target : Nat) :
    (d.addEdge source type target).specials = d.specials := by
  rw [addEdge, specials_change, specials_mention]

lemma foldl_mention (us : List Nat) (d : Drafts) :
    (us.foldl mention d).specials = d.specials ∧ (∀ s, (us.foldl mention d).look s = d.look s) ∧
      d.states.size ≤ (us.foldl mention d).states.size ∧
      ∀ u ∈ us, u < (us.foldl mention d).states.size := by
  induction us generalizing d with
  | nil => simp
  | cons u rest ih =>
    obtain ⟨hspecials, hlook, hsize, hmentioned⟩ := ih (d.mention u)
    rw [size_mention] at hsize
    refine ⟨hspecials, fun s => (hlook s).trans (look_mention d u s),
      (Nat.le_max_left ..).trans hsize, List.forall_mem_cons.2 ⟨?_, hmentioned⟩⟩
    exact (Nat.le_max_right ..).trans hsize

/-! ## What drafts tell -/

/-- The special state that decides at a state. -/
def decides (d : Drafts) (s : Nat) : Option SpecialState :=
  (d.look s).special.bind fun i => d.specials[i]?

/-- Only the edges from one state on some types have changed. -/
structure Adds (source : Nat) (types : List TokenType) (target : Nat) (d d' : Drafts) : Prop where
  edge : ∀ s t, (d'.look s).edgeOn t =
    if source = s ∧ t ∈ types then some target else (d.look s).edgeOn t
  endOfToken : ∀ s, (d'.look s).endOfToken = (d.look s).endOfToken
  accept : ∀ s, (d'.look s).accept = (d.look s).accept
  decides : d'.decides = d.decides

lemma adds_addEdge (d : Drafts) (source : Nat) (type : TokenType) (target : Nat) :
    Adds source [type] target d (d.addEdge source type target) := by
  have hlook (s : Nat) : (d.addEdge source type target).look s = if source = s then
      if type = .eof then { d.look s with endOfInput := some target }
      else { d.look s with edges := (type, target) :: (d.look s).edges }
      else d.look s := by
    rw [addEdge, look_change, look_mention]
  refine ⟨fun s t => ?_, fun s => ?_, fun s => ?_, funext fun s => ?_⟩
  · simp only [hlook, List.mem_singleton]
    by_cases hs : source = s
    · by_cases ht : t = type
      · by_cases heof : type = .eof <;> simp [Draft.edgeOn, hs, ht, heof]
      · by_cases heof : type = .eof
        · have hne : t ≠ .eof := fun h => ht (h.trans heof.symm)
          simp [Draft.edgeOn, hs, heof, hne]
        · simp [Draft.edgeOn, hs, ht, heof, List.lookup_cons, beq_eq_false_iff_ne.2 ht]
    · simp [hs]
  · rw [hlook]
    split_ifs <;> rfl
  · rw [hlook]
    split_ifs <;> rfl
  · simp only [Drafts.decides, hlook, specials_addEdge]
    split_ifs <;> rfl

lemma adds_addEdges (d : Drafts) (source : Nat) (types : List TokenType) (target : Nat) :
    Adds source types target d (d.addEdges source types target) := by
  induction types generalizing d with
  | nil => exact ⟨fun s t => by simp [addEdges], fun s => rfl, fun s => rfl, rfl⟩
  | cons type rest ih =>
    have hfirst := adds_addEdge d source type target
    have hrest := ih (d.addEdge source type target)
    rw [addEdges, List.foldl_cons, ← addEdges]
    refine ⟨fun s t => (hrest.edge s t).trans ?_,
      fun s => (hrest.endOfToken s).trans (hfirst.endOfToken s),
      fun s => (hrest.accept s).trans (hfirst.accept s), hrest.decides.trans hfirst.decides⟩
    simp only [hfirst.edge, List.mem_cons, List.not_mem_nil, or_false]
    by_cases hs : source = s
    · by_cases hmem : t ∈ rest
      · rw [if_pos ⟨hs, hmem⟩, if_pos ⟨hs, .inr hmem⟩]
      · simp only [hmem, and_false, if_false, or_false]
    · simp only [hs, false_and, if_false]

lemma mem_typesBetween {low high t : Int} : t ∈ typesBetween low high ↔ low ≤ t ∧ t ≤ high := by
  simp only [typesBetween, List.mem_map, List.mem_range]
  constructor
  · rintro ⟨i, hi, rfl⟩
    exact ⟨Int.le_add_of_nonneg_right (Int.natCast_nonneg i), by omega⟩
  · rintro ⟨hlow, hhigh⟩
    exact ⟨(t - low).toNat, by omega, by omega⟩

end Drafts

/-! ## Closed drafts -/

/-- Whatever the draft refers to is among so many states and so many special states, and an edge on
the end of input is kept apart from the others. -/
structure Draft.Within (states specials : Nat) (d : Draft) : Prop where
  edge : ∀ t u, (t, u) ∈ d.edges → t ≠ .eof ∧ u < states
  endOfToken : ∀ u, d.endOfToken = some u → u < states
  endOfInput : ∀ u, d.endOfInput = some u → u < states
  special : ∀ i, d.special = some i → i < specials

lemma Draft.Within.mono {states states' specials specials' : Nat} {d : Draft}
    (h : d.Within states specials) (hstates : states ≤ states') (hspecials : specials ≤ specials') :
    d.Within states' specials' :=
  ⟨fun t u hu => (h.edge t u hu).imp id fun hlt => hlt.trans_le hstates,
    fun u hu => (h.endOfToken u hu).trans_le hstates,
    fun u hu => (h.endOfInput u hu).trans_le hstates,
    fun i hi => (h.special i hi).trans_le hspecials⟩

lemma Draft.Within.target_state {states specials : Nat} {d : Draft} (h : d.Within states specials)
    (t : TokenType) : d.state.target t =
      if t = .eof then d.endOfToken.or (d.edgeOn t) else (d.edgeOn t).or d.endOfToken := by
  rw [AutomatonState.target, Draft.edge_state]
  change ((d.edges.lookup t).orElse fun _ => d.endOfToken.orElse fun _ =>
    if t = .eof then d.endOfInput else none) = _
  by_cases ht : t = .eof
  · have hnone : d.edges.lookup t = none :=
      List.lookup_eq_none_iff.2 fun e he =>
        bne_iff_ne.2 fun h' => (h.edge e.1 e.2 he).1 (h'.symm.trans ht)
    rw [hnone, if_pos ht, if_pos ht, Draft.edgeOn, if_pos ht]
    cases d.endOfToken <;> rfl
  · rw [if_neg ht, if_neg ht, Draft.edgeOn, if_neg ht]
    cases d.edges.lookup t <;> cases d.endOfToken <;> rfl

namespace Drafts

variable {d : Drafts}

/-- Whatever is mentioned exists: the states that edges lead to, and the special states that states
name. -/
structure Closed (d : Drafts) : Prop where
  nonempty : 0 < d.states.size
  states : ∀ s, (d.look s).Within d.states.size d.specials.size
  specials : ∀ special ∈ d.specials, ∀ p ∈ specialTargets special, p.2 < d.states.size

lemma Closed.initial : Drafts.initial.Closed := by
  refine ⟨by decide, fun s => ?_, by simp [Drafts.initial]⟩
  rw [look_initial]
  exact ⟨by simp [Draft.blank], by simp [Draft.blank], by simp [Draft.blank], by simp [Draft.blank]⟩

/-- The drafts stay closed if what is added to one of them refers to what exists by then. -/
lemma Closed.change (h : d.Closed) (source : Nat) {f : Draft → Draft}
    (hf : ∀ draft, draft.Within (max d.states.size (source + 1)) d.specials.size →
      (f draft).Within (max d.states.size (source + 1)) d.specials.size) :
    (d.change source f).Closed := by
  have hle : d.states.size ≤ max d.states.size (source + 1) := Nat.le_max_left ..
  constructor
  · rw [size_change]
    exact h.nonempty.trans_le hle
  · intro s
    rw [size_change, look_change]
    split
    · exact hf _ ((h.states s).mono hle le_rfl)
    · exact (h.states s).mono hle le_rfl
  · intro special hspecial p hp
    rw [size_change]
    exact (h.specials special hspecial p hp).trans_le hle

lemma Closed.mention (h : d.Closed) (u : Nat) : (d.mention u).Closed := by
  have hle : d.states.size ≤ (d.mention u).states.size := by
    rw [size_mention]
    exact Nat.le_max_left ..
  refine ⟨h.nonempty.trans_le hle, fun s => ?_, fun special hspecial p hp =>
    (h.specials special hspecial p hp).trans_le hle⟩
  rw [look_mention]
  exact (h.states s).mono hle le_rfl

lemma Closed.addEdge (h : d.Closed) (source : Nat) (type : TokenType) (target : Nat) :
    (d.addEdge source type target).Closed := by
  refine (h.mention target).change source fun draft hdraft => ?_
  have htarget : target < max (d.mention target).states.size (source + 1) := by
    rw [size_mention]
    omega
  split
  · exact ⟨hdraft.edge, hdraft.endOfToken, fun u hu => Option.some.inj hu ▸ htarget, hdraft.special⟩
  · rename_i heof
    refine ⟨fun t u hu => ?_, hdraft.endOfToken, hdraft.endOfInput, hdraft.special⟩
    rcases List.mem_cons.1 hu with heq | hu
    · obtain ⟨rfl, rfl⟩ := Prod.mk.inj heq
      exact ⟨heof, htarget⟩
    · exact hdraft.edge t u hu

lemma Closed.addEdges (h : d.Closed) (source : Nat) (types : List TokenType) (target : Nat) :
    (d.addEdges source types target).Closed := by
  induction types generalizing d with
  | nil => exact h
  | cons type rest ih =>
    rw [Drafts.addEdges, List.foldl_cons, ← Drafts.addEdges]
    exact ih (h.addEdge source type target)

lemma Closed.foldl_mention (h : d.Closed) (us : List Nat) : (us.foldl Drafts.mention d).Closed := by
  induction us generalizing d with
  | nil => exact h
  | cons u rest ih => exact ih (h.mention u)

/-- A new special state, all of whose targets exist, may decide at a state. -/
lemma Closed.decide (h : d.Closed) {special : SpecialState}
    (htargets : ∀ p ∈ specialTargets special, p.2 < d.states.size) (s : Nat) :
    ({ d with specials := d.specials.push special }.change s fun draft =>
      { draft with special := some d.specials.size }).Closed := by
  refine Closed.change (d := { d with specials := d.specials.push special })
    ⟨h.nonempty, ?_, ?_⟩ s ?_
  · intro s
    rw [Array.size_push]
    exact (h.states s).mono le_rfl (Nat.le_succ _)
  · intro special' hspecial
    rcases Array.mem_push.1 hspecial with hold | rfl
    · exact h.specials special' hold
    · exact htargets
  · intro draft hdraft
    refine ⟨hdraft.edge, hdraft.endOfToken, hdraft.endOfInput, fun i hi => ?_⟩
    obtain rfl := Option.some.inj hi
    rw [Array.size_push]
    exact Nat.lt_succ_self _

/-- The targets that the clause for a special state mentions are all that it has. -/
lemma lt_of_mem_specialTargets {special : SpecialState} {n : Nat}
    (h : ∀ u ∈ special.edges.map PredicatedEdge.target ++ special.fallback.toList, u < n) :
    ∀ p ∈ specialTargets special, p.2 < n := by
  intro p hp
  refine h p.2 (List.mem_append.2 ?_)
  rcases List.mem_append.1 hp with hp | hp
  · obtain ⟨e, he, rfl⟩ := List.mem_map.1 hp
    exact .inl (List.mem_map.2 ⟨e, he, rfl⟩)
  · obtain ⟨u, hu, rfl⟩ := List.mem_map.1 hp
    exact .inr hu

lemma Closed.apply (h : d.Closed) (c : AutomatonClause) : (d.apply c).Closed := by
  cases c with
  | edge source type target => exact h.addEdge source type target
  | range source low high target => exact h.addEdges source _ target
  | set source types target => exact h.addEdges source _ target
  | endOfToken source target =>
    refine (h.mention target).change source fun draft hdraft => ?_
    refine ⟨hdraft.edge, fun u hu => ?_, hdraft.endOfInput, hdraft.special⟩
    obtain rfl := Option.some.inj hu
    rw [size_mention]
    omega
  | accept state alternative =>
    exact h.change state fun draft hdraft =>
      ⟨hdraft.edge, hdraft.endOfToken, hdraft.endOfInput, hdraft.special⟩
  | special state special =>
    have hmentioned := (Drafts.foldl_mention
      (special.edges.map PredicatedEdge.target ++ special.fallback.toList) d).2.2.2
    exact (h.foldl_mention _).decide (lt_of_mem_specialTargets hmentioned) state

/-! ## The last clause tells -/

variable {α : Type} {s : Nat}

lemma look_apply_special (d : Drafts) (state : Nat) (special : SpecialState) (s : Nat) :
    (d.apply (.special state special)).look s =
      if state = s then { d.look s with special := some d.specials.size } else d.look s := by
  obtain ⟨hspecials, hlook, -⟩ := Drafts.foldl_mention
    (special.edges.map PredicatedEdge.target ++ special.fallback.toList) d
  rw [← hlook, ← hspecials]
  exact look_change _ state s _

lemma specials_apply_special (d : Drafts) (state : Nat) (special : SpecialState) :
    (d.apply (.special state special)).specials = d.specials.push special :=
  congrArg (Array.push · special) (Drafts.foldl_mention _ d).1

lemma edgeOn_apply (d : Drafts) (c : AutomatonClause) (s : Nat) (t : TokenType) :
    ((d.apply c).look s).edgeOn t = (c.edgeOn s t).or ((d.look s).edgeOn t) := by
  cases c with
  | edge source type target =>
    rw [apply, (adds_addEdge d source type target).edge, AutomatonClause.edgeOn]
    by_cases h : source = s ∧ type = t <;> simp [h, eq_comm (a := t)]
  | range source low high target =>
    rw [apply, (adds_addEdges d source _ target).edge, AutomatonClause.edgeOn]
    simp only [mem_typesBetween]
    split_ifs <;> rfl
  | set source types target =>
    rw [apply, (adds_addEdges d source _ target).edge, AutomatonClause.edgeOn]
    simp only [TokenSet.mem_types]
    split_ifs <;> rfl
  | endOfToken source target =>
    rw [apply, look_change, look_mention]
    split_ifs <;> rfl
  | accept state alternative =>
    rw [apply, look_change]
    split_ifs <;> rfl
  | special state special =>
    rw [look_apply_special]
    split_ifs <;> rfl

lemma endOfToken_apply (d : Drafts) (c : AutomatonClause) (s : Nat) :
    ((d.apply c).look s).endOfToken = (c.edgeOtherwise s).or (d.look s).endOfToken := by
  cases c with
  | edge source type target => exact (adds_addEdge d source type target).endOfToken s
  | range source low high target => exact (adds_addEdges d source _ target).endOfToken s
  | set source types target => exact (adds_addEdges d source _ target).endOfToken s
  | endOfToken source target =>
    rw [apply, look_change, look_mention, edgeOtherwise]
    split_ifs <;> rfl
  | accept state alternative =>
    rw [apply, look_change]
    split_ifs <;> rfl
  | special state special =>
    rw [look_apply_special]
    split_ifs <;> rfl

lemma accept_apply (d : Drafts) (c : AutomatonClause) (s : Nat) :
    ((d.apply c).look s).accept = (c.predicts s).or (d.look s).accept := by
  cases c with
  | edge source type target => exact (adds_addEdge d source type target).accept s
  | range source low high target => exact (adds_addEdges d source _ target).accept s
  | set source types target => exact (adds_addEdges d source _ target).accept s
  | endOfToken source target =>
    rw [apply, look_change, look_mention]
    split_ifs <;> rfl
  | accept state alternative =>
    rw [apply, look_change, predicts]
    split_ifs <;> rfl
  | special state special =>
    rw [look_apply_special]
    split_ifs <;> rfl

/-- The drafts have to be closed, because a number without a special state would get one. -/
lemma decides_apply (h : d.Closed) (c : AutomatonClause) (s : Nat) :
    (d.apply c).decides s = (c.decides s).or (d.decides s) := by
  cases c with
  | edge source type target => exact congrFun (adds_addEdge d source type target).decides s
  | range source low high target => exact congrFun (adds_addEdges d source _ target).decides s
  | set source types target => exact congrFun (adds_addEdges d source _ target).decides s
  | endOfToken source target =>
    simp only [decides, apply, look_change, look_mention, specials_change, specials_mention]
    split_ifs <;> rfl
  | accept state alternative =>
    simp only [decides, apply, look_change, specials_change]
    split_ifs <;> rfl
  | special state special =>
    rw [decides, look_apply_special, specials_apply_special, AutomatonClause.decides]
    split_ifs
    · simp
    · refine Option.bind_congr fun i hi => ?_
      exact Array.getElem?_push_lt ((h.states s).special i hi) |>.trans
        (Array.getElem?_eq_getElem _).symm

/-- Something about the drafts that is nothing at first, and that each clause may have something to
say about, is in the end what the last clause has to say. -/
lemma foldl_apply (tells : Drafts → Option α) (matter : AutomatonClause → Option α)
    (hinitial : tells .initial = none)
    (hstep : ∀ d c, d.Closed → tells (d.apply c) = (matter c).or (tells d))
    (clauses : List AutomatonClause) :
    (clauses.foldl apply .initial).Closed ∧
      tells (clauses.foldl apply .initial) = latest matter clauses := by
  induction clauses using List.reverseRecOn with
  | nil => exact ⟨.initial, hinitial⟩
  | append_singleton clauses c ih =>
    obtain ⟨hclosed, htells⟩ := ih
    rw [List.foldl_concat]
    exact ⟨hclosed.apply c, by rw [hstep _ c hclosed, htells, latest_concat]⟩

/-- The drafts know what the clauses say last about every state: where it leads on each type, what
it accepts, and what decides there. -/
structure Tells (d : Drafts) (clauses : List AutomatonClause) : Prop where
  leads : ∀ s t, (d.look s).state.target t = AutomatonClause.leads clauses s t
  predicts : ∀ s, (d.look s).accept = latest (AutomatonClause.predicts s) clauses
  decides : ∀ s, d.decides s = latest (AutomatonClause.decides s) clauses

lemma closed_and_tells (clauses : List AutomatonClause) :
    (clauses.foldl apply .initial).Closed ∧ (clauses.foldl apply .initial).Tells clauses := by
  have hedge (s : Nat) (t : TokenType) := foldl_apply (fun d => (d.look s).edgeOn t) _
    (by rw [look_initial, Draft.edgeOn]; split <;> rfl) (fun d c _ => edgeOn_apply d c s t) clauses
  have htoken (s : Nat) := foldl_apply (fun d => (d.look s).endOfToken) _
    (by rw [look_initial]; rfl) (fun d c _ => endOfToken_apply d c s) clauses
  have haccept (s : Nat) := foldl_apply (fun d => (d.look s).accept) _
    (by rw [look_initial]; rfl) (fun d c _ => accept_apply d c s) clauses
  have hdecides (s : Nat) := foldl_apply (fun d => d.decides s) _
    (by rw [decides, look_initial]; rfl) (fun d c hd => decides_apply hd c s) clauses
  have hclosed := (haccept 0).1
  refine ⟨hclosed, fun s t => ?_, fun s => (haccept s).2, fun s => (hdecides s).2⟩
  rw [(hclosed.states s).target_state t, (hedge s t).2, (htoken s).2]
  rfl

end Drafts

/-! ## The automaton -/

/-- Closed tables are accepted. -/
lemma ofStates_eq_ok {decision : Nat} {description : String} {states : List AutomatonState}
    {specials : List SpecialState} (hne : states ≠ [])
    (hstates : ∀ s ∈ states, (∀ p ∈ stateTargets s, p.2 < states.length) ∧
      ∀ i, s.special = some i → i < specials.length)
    (hspecials : ∀ s ∈ specials, ∀ p ∈ specialTargets s, p.2 < states.length) :
    ofStates decision description states specials = .ok
      { decision, description, states := states.toArray, specials := specials.toArray,
        alternatives := ascending (states.filterMap AutomatonState.accept ++
          specials.flatMap SpecialState.simulate) } := by
  rw [ofStates, if_neg (by simpa using hne)]
  refine bind_eq_ok.2 ⟨(), forM_eq_ok.2 fun s hs => ?_, bind_eq_ok.2
    ⟨(), forM_eq_ok.2 fun s hs => ?_, rfl⟩⟩
  · obtain ⟨htargets, hspecial⟩ := hstates s hs
    refine bind_eq_ok.2 ⟨(), forM_eq_ok.2 fun p hp => checkTarget_eq_ok.2 (htargets p hp),
      forM_eq_ok.2 fun i hi => if_pos (hspecial i (by simpa using hi))⟩
  · exact forM_eq_ok.2 fun p hp => checkTarget_eq_ok.2 (hspecials s hs p hp)

/-- The states that a draft leads to exist. -/
lemma Draft.Within.targets {states specials : Nat} {d : Draft} (h : d.Within states specials) :
    ∀ p ∈ stateTargets d.state, p.2 < states := by
  rintro ⟨role, u⟩ hp
  simp only [stateTargets, List.mem_append, List.mem_map, List.mem_filterMap, Option.mem_toList,
    Array.mem_toList_iff, id] at hp
  obtain (⟨v, ⟨e, he, rfl⟩, hv⟩ | ⟨v, hv, heq⟩) | ⟨v, hv, heq⟩ := hp
  · obtain ⟨-, rfl⟩ := Prod.mk.inj hv
    obtain ⟨t, ht⟩ := Draft.mem_edges_of_mem_table he
    exact (h.edge t v ht).2
  · obtain ⟨-, rfl⟩ := Prod.mk.inj heq
    exact h.endOfToken v hv
  · obtain ⟨-, rfl⟩ := Prod.mk.inj heq
    exact h.endOfInput v hv

lemma Draft.Within.target_lt {states specials : Nat} {d : Draft} (h : d.Within states specials)
    {t : TokenType} {u : Nat} (hu : d.state.target t = some u) : u < states := by
  rcases AutomatonState.leads_iff.2 hu with htable | ⟨-, htoken⟩ | ⟨-, -, -, hinput⟩
  · rw [Draft.edge_state] at htable
    exact (h.edge t u (Draft.mem_of_lookup htable)).2
  · exact h.endOfToken u htoken
  · exact h.endOfInput u hinput

namespace Drafts

/-- The states that drafts become. -/
def table (d : Drafts) : List AutomatonState := d.states.toList.map Draft.state

lemma getElem?_table_of_lt {d : Drafts} {s : Nat} (h : s < d.states.size) :
    d.table.toArray[s]? = some (d.look s).state := by
  simp [table, look, Array.getD_eq_getD_getElem?, Array.getElem?_eq_getElem h]

/-- What a state that does not exist lacks, a blank draft lacks as well. -/
lemma bind_table {α : Type} (d : Drafts) (s : Nat) {f : AutomatonState → Option α}
    (hf : f Draft.blank.state = none) : d.table.toArray[s]?.bind f = f (d.look s).state := by
  by_cases h : s < d.states.size
  · rw [getElem?_table_of_lt h]
    rfl
  · have hsize := Nat.not_lt.1 h
    rw [look, Array.getD_eq_getD_getElem?, Array.getElem?_eq_none hsize,
      Array.getElem?_eq_none (by simpa [table] using hsize)]
    exact hf.symm

/-- Closed drafts become an automaton that is accepted. -/
lemma Closed.ofStates_table {d : Drafts} (h : d.Closed) (decision : Nat) (description : String) :
    ∃ a, ofStates decision description d.table d.specials.toList = .ok a ∧
      a.decision = decision ∧ a.description = description ∧ a.states = d.table.toArray ∧
      a.specials = d.specials := by
  have hlength : d.table.length = d.states.size := by simp [table]
  have hne : d.table ≠ [] := List.ne_nil_of_length_pos (hlength ▸ h.nonempty)
  refine ⟨_, ofStates_eq_ok hne (fun state hstate => ?_) fun special hspecial => ?_,
    rfl, rfl, rfl, by simp⟩
  · obtain ⟨s, hs, hget⟩ := List.mem_iff_getElem?.1 hstate |>.imp fun s hs =>
      (⟨(List.getElem?_eq_some_iff.1 hs).1, hs⟩ : s < d.table.length ∧ d.table[s]? = some state)
    rw [hlength] at hs ⊢
    have hlook := getElem?_table_of_lt hs
    rw [List.getElem?_toArray, hget] at hlook
    rw [Option.some.inj hlook, Array.length_toList]
    exact ⟨(h.states s).targets, (h.states s).special⟩
  · rw [hlength]
    exact h.specials special (Array.mem_toList_iff.1 hspecial)

section

variable {d : Drafts} {a : Automaton} {clauses : List AutomatonClause}
  (hstates : a.states = d.table.toArray) (htells : d.Tells clauses)

include hstates htells

lemma Tells.bind_target (s : Nat) (t : TokenType) :
    (a.states[s]?.bind fun state => state.target t) = AutomatonClause.leads clauses s t := by
  rw [hstates, d.bind_table s (by simp [AutomatonState.target, AutomatonState.edge, Draft.state,
    Draft.table, Draft.blank]), htells.leads]

lemma Tells.bind_special (hspecials : a.specials = d.specials) (s : Nat) :
    (a.states[s]?.bind fun state => state.special.bind a.special) =
      latest (AutomatonClause.decides s) clauses := by
  rw [hstates, d.bind_table s rfl, ← htells.decides, Drafts.decides, ← hspecials]
  rfl

variable (hclosed : d.Closed)

include hclosed

lemma Tells.arrive_eq {u : Nat} (hu : u < d.states.size) : a.arrive u = arrival clauses u := by
  have hspecial : (d.look u).state.special.isSome = (d.decides u).isSome := by
    change (d.look u).special.isSome = _
    rw [Drafts.decides]
    cases h : (d.look u).special with
    | none => rfl
    | some i =>
      rw [Option.bind_some, Array.getElem?_eq_getElem ((hclosed.states u).special i h)]
      rfl
  rw [arrive, hstates, getElem?_table_of_lt hu, arrival, ← htells.decides, ← htells.predicts,
    ← hspecial]
  rfl

/-- A step goes where the clauses lead, which is a state that exists. -/
lemma Tells.step_eq (s : Nat) (t : TokenType) :
    a.step s t = ((AutomatonClause.leads clauses s t).map (arrival clauses)).getD .none := by
  have htarget := htells.bind_target hstates s t
  rw [step]
  cases hstate : a.states[s]? with
  | none =>
    rw [hstate] at htarget
    rw [← htarget]
    rfl
  | some state =>
    rw [hstate, Option.bind_some] at htarget
    simp only [htarget]
    cases hu : AutomatonClause.leads clauses s t with
    | none => rfl
    | some u =>
      have hlt := (hclosed.states s).target_lt ((htells.leads s t).trans hu)
      exact htells.arrive_eq hstates hclosed hlt

end

end Drafts

/-- **A description by clauses is always accepted, and means what its last clauses say.**  The
clauses are any list, in any order, with states that are named again and again.  There is always
an automaton for them.

From each state a type leads where the last clause for it does, with the edge for the end of the
token in second place, or in first place at the end of input; and where it leads, a special
state comes before an alternative.  The special state that decides is the last one that was
given. -/
theorem ofClauses_spec (decision : Nat) (description : String) (clauses : List AutomatonClause) :
    ∃ a, ofClauses decision description clauses = .ok a ∧
      a.decision = decision ∧ a.description = description ∧
      (∀ s t, (a.states[s]?.bind fun state => state.target t) = leads clauses s t) ∧
      (∀ s t, a.step s t = ((leads clauses s t).map (arrival clauses)).getD .none) ∧
      ∀ s, (a.states[s]?.bind fun state => state.special.bind a.special) =
        latest (AutomatonClause.decides s) clauses := by
  obtain ⟨hclosed, htells⟩ := Drafts.closed_and_tells clauses
  obtain ⟨a, ha, hdecision, hdescription, hstates, hspecials⟩ :=
    hclosed.ofStates_table decision description
  exact ⟨a, ha, hdecision, hdescription, htells.bind_target hstates,
    htells.step_eq hstates hclosed, htells.bind_special hstates hspecials⟩

end Automaton

end Lookahead
