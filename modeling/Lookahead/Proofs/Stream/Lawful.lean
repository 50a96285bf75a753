import Lookahead.Stream.Cursor
import Mathlib.Logic.Relation

/-!
# Lawful cursors

A cursor moves over an input that does not change, however much of it the stream has read so far.
`Cursor.View` says what a stream shows of that: the input, the spot of the cursor, and the open
marks with the spots that they save.  `Cursor.Lawful` has one law for each operation, which says
where the cursor lands and what becomes of the marks.

`Cursor.Reaches` relates a stream to what any sequence of operations makes of it.  The laws are
about streams that are `ready`, which every stream is that was reached from a fresh one and has its
cursor on a unit (`Lawful.ready_of_reaches`).

A stream that goes back to a mark which is still open stands where the mark was taken, and the marks
below it are the open ones (`rewind_of_isPrefix`).  All guards rest on this.
-/

namespace Lookahead

namespace MarkStack

variable {P : Type}

/-- A mark that is still open after some work leads back to the position that it saved, and takes
the marks of that work with it. -/
lemma rewind_of_isPrefix {s t : MarkStack P} {p : P}
    (h : (s.push p).2.entries <+: t.entries) :
    t.rewind (s.push p).1 = .ok (p, { t with entries := s.entries }) := by
  obtain ⟨newer, ht⟩ := h
  have hentries : t.entries = s.entries ++ (s.nextSerial, p) :: newer := by
    rw [← ht]
    simp [push]
  have hlookup : t.lookup (s.push p).1 = .ok p := by
    simp [lookup, push, depth, hentries]
  rw [rewind, hlookup]
  simp [push, depth, hentries]

/-- A mark is released if no newer one is open. -/
lemma release_of_entries_eq {s t : MarkStack P} {p : P} (h : t.entries = (s.push p).2.entries) :
    t.release (s.push p).1 = .ok { t with entries := s.entries } := by
  have hentries : t.entries = s.entries ++ [(s.nextSerial, p)] := h
  have hlookup : t.lookup (s.push p).1 = .ok p := by
    simp [lookup, push, depth, hentries]
  rw [release, hlookup]
  simp [push, depth, hentries]

/-- What stays when such a mark is popped are the marks below it. -/
lemma take_of_isPrefix {s t : MarkStack P} {p : P} (h : (s.push p).2.entries <+: t.entries) :
    t.entries.take (s.push p).1.depth = s.entries := by
  obtain ⟨newer, ht⟩ := h
  rw [← ht]
  simp [push, depth]

lemma entries_of_rewind {s t : MarkStack P} {m : Mark} {p : P} (h : s.rewind m = .ok (p, t)) :
    t.entries = s.entries.take m.depth := by
  unfold MarkStack.rewind at h
  split at h
  · obtain ⟨-, rfl⟩ := Prod.mk.inj (Except.ok.inj h)
    rfl
  · cases h

lemma entries_of_release {s t : MarkStack P} {m : Mark} (h : s.release m = .ok t) :
    t.entries = s.entries.take m.depth := by
  unfold MarkStack.release at h
  split at h
  · split at h
    · obtain rfl := Except.ok.inj h
      rfl
    · cases h
  · cases h

/-- All saved positions have a property. -/
def Saves (s : MarkStack P) (Q : P → Prop) : Prop := ∀ e ∈ s.entries, Q e.2

variable {Q : P → Prop} {s t : MarkStack P} {m : Mark} {p : P}

lemma saves_empty : (empty : MarkStack P).Saves Q := by simp [Saves, empty]

lemma Saves.push (h : s.Saves Q) (hp : Q p) : (s.push p).2.Saves Q := by
  intro e he
  simp only [MarkStack.push, List.mem_append, List.mem_singleton] at he
  rcases he with he | rfl
  · exact h e he
  · exact hp

lemma Saves.take (h : s.Saves Q) (n serial : Nat) :
    (⟨s.entries.take n, serial⟩ : MarkStack P).Saves Q :=
  fun e he => h e (List.mem_of_mem_take he)

lemma Saves.rewind (h : s.Saves Q) (hm : s.rewind m = .ok (p, t)) : Q p ∧ t.Saves Q := by
  unfold MarkStack.rewind lookup at hm
  split at hm
  · rename_i position hlookup
    obtain ⟨rfl, rfl⟩ := Prod.mk.inj (Except.ok.inj hm)
    split at hlookup
    · rename_i serial position' hget
      split at hlookup
      · obtain rfl := Except.ok.inj hlookup
        exact ⟨h _ (List.mem_of_getElem? hget), h.take _ _⟩
      · cases hlookup
    · cases hlookup
  · cases hm

lemma Saves.release (h : s.Saves Q) (hm : s.release m = .ok t) : t.Saves Q := by
  unfold MarkStack.release at hm
  split at hm
  · split at hm
    · obtain rfl := Except.ok.inj hm
      exact h.take _ _
    · cases hm
  · cases hm

end MarkStack

namespace Cursor

variable {S : Type} [Cursor S]

lemma map_eq_ok {α β : Type} {x : Except Misuse α} {f : α → β} {b : β} :
    x.map f = .ok b ↔ ∃ a, x = .ok a ∧ f a = b := by
  cases x <;> simp [Except.map]

/-! ## Operating a stream -/

/-- One operation on a stream, as far as it is not refused. -/
inductive Step : S → S → Prop
  | lookahead (s : S) (k : Int) : Step s (lookahead s k).2
  | symbol (s : S) : Step s (symbol s).2
  | consume (s : S) : Step s (consume s)
  | seek (s : S) (i : Nat) : Step s (seek s i)
  | mark (s : S) : Step s (mark s).2
  | rewind {s s' : S} {m : Mark} (h : rewind s m = .ok s') : Step s s'
  | release {s s' : S} {m : Mark} (h : release s m = .ok s') : Step s s'

/-- The second stream is what some operations in a row make of the first. -/
def Reaches : S → S → Prop := Relation.ReflTransGen Step

lemma Reaches.refl (s : S) : Reaches s s := Relation.ReflTransGen.refl

lemma Reaches.trans {s t u : S} (hst : Reaches s t) (htu : Reaches t u) : Reaches s u :=
  Relation.ReflTransGen.trans hst htu

lemma Step.reaches {s s' : S} (h : Step s s') : Reaches s s' := Relation.ReflTransGen.single h

/-- Ending a guard is one operation, or none if the stream refuses it. -/
lemma reaches_endGuard (s : S) (m : Mark) (ending : GuardEnd) :
    Reaches s (endGuard s m ending).2 := by
  cases ending <;> simp only [endGuard]
  · rcases h : Cursor.release s m with cause | s'
    · exact Reaches.refl s
    · exact (Step.release h).reaches
  all_goals
    rcases h : Cursor.rewind s m with cause | s'
    · exact Reaches.refl s
    · exact (Step.rewind h).reaches

section

variable {s s' : S} {m : Mark} {cause : Misuse} {ending : GuardEnd}

lemma endGuard_keep (h : release s m = .ok s') : endGuard s m .keep = (.ok (), s') := by
  simp only [endGuard, h]

lemma endGuard_keep_error (h : release s m = .error cause) :
    endGuard s m .keep = (.error cause, s) := by
  simp only [endGuard, h]

lemma endGuard_back (hending : ending ≠ .keep) (h : rewind s m = .ok s') :
    endGuard s m ending = (.ok (), s') := by
  cases ending with
  | keep => exact absurd rfl hending
  | restore | abandon => simp only [endGuard, h]

lemma endGuard_restore_error (h : rewind s m = .error cause) :
    endGuard s m .restore = (.error cause, s) := by
  simp only [endGuard, h]

end

/-! ## Laws -/

/-- What a stream shows: an input that never changes, a spot in it, and the open marks. -/
class View (S : Type) where
  /-- The whole input. -/
  Input : Type
  /-- What a mark saves. -/
  Spot : Type
  input : S → Input
  spot : S → Spot
  marks : S → MarkStack Spot
  /-- The place of the unit at a spot. -/
  place : Spot → Nat
  /-- Was nothing done with the stream yet? -/
  Fresh : S → Prop
  /-- Was the cursor put on the first unit? -/
  Started : S → Prop
  /-- Do the laws hold of the stream? -/
  Ready : S → Prop
  /-- The places where a cursor can stand. -/
  Stands : Input → Nat → Prop
  /-- The type of the unit at a place. -/
  typeAt : Input → Nat → TokenType
  /-- The place behind a unit. -/
  after : Input → Nat → Nat

open View

/-- From `s` the cursor lands at the spot `p`, with the marks `ms`. -/
structure Lands [View S] (s s' : S) (p : Spot S) (ms : MarkStack (Spot S)) : Prop where
  ready : Ready s'
  input_eq : input s' = input s
  spot_eq : spot s' = p
  marks_eq : marks s' = ms

/-- What each operation does to the view of a ready stream: what input there is, where the cursor
stands, and which marks are open. -/
class Lawful (S : Type) [Cursor S] [View S] : Prop where
  ready_of_reaches {s₀ s : S} : Fresh s₀ → Reaches s₀ s → Started s → Ready s
  index_eq (s : S) : index s = place (spot s)
  markDepth_eq (s : S) : markDepth s = (marks s).depth
  stands {s : S} : Ready s → Stands (input s) (index s)
  lookahead {s : S} (k : Int) : Ready s → Lands s (lookahead s k).2 (spot s) (marks s)
  lookahead_one {s : S} : Ready s → (Cursor.lookahead s 1).1 = typeAt (input s) (index s)
  symbol {s : S} : Ready s → Lands s (symbol s).2 (spot s) (marks s)
  consume {s : S} : Ready s →
    ∃ p, Lands s (consume s) p (marks s) ∧ place p = after (input s) (index s)
  seek {s : S} (i : Nat) : Ready s →
    ∃ p, Lands s (seek s i) p (marks s) ∧ (Stands (input s) i → place p = i)
  mark {s : S} : Ready s → Lands s (mark s).2 (spot s) ((marks s).push (spot s)).2
  mark_fst {s : S} : Ready s → (Cursor.mark s).1 = ((marks s).push (spot s)).1
  rewind {s : S} (m : Mark) : Ready s →
    ∃ back, Cursor.rewind s m = ((marks s).rewind m).map back ∧
      ∀ p ms, (marks s).rewind m = .ok (p, ms) → Lands s (back (p, ms)) p ms
  release {s : S} (m : Mark) : Ready s →
    ∃ kept, Cursor.release s m = ((marks s).release m).map kept ∧
      ∀ ms, (marks s).release m = .ok ms → Lands s (kept ms) (spot s) ms

/-- The stream was made of a fresh one by some operations, and its cursor is on a unit. -/
def Live [View S] (s : S) : Prop := (∃ s₀, Fresh s₀ ∧ Reaches s₀ s) ∧ Started s

variable [View S] [Lawful S]

lemma Live.ready {s : S} (h : Live s) : Ready s := by
  obtain ⟨⟨s₀, hfresh, hreach⟩, hstarted⟩ := h
  exact Lawful.ready_of_reaches hfresh hreach hstarted

lemma Lands.index_eq {s s' : S} {p : Spot S} {ms : MarkStack (Spot S)}
    (h : Lands s s' p ms) : index s' = place p := by
  rw [Lawful.index_eq, h.spot_eq]

/-- A stream goes back to a mark if and only if its marks can. -/
lemma rewind_eq_ok {s s' : S} {m : Mark} (hs : Ready s) (h : Cursor.rewind s m = .ok s') :
    ∃ p ms, (marks s).rewind m = .ok (p, ms) ∧ Lands s s' p ms := by
  obtain ⟨back, heq, hland⟩ := Lawful.rewind m hs
  rw [heq] at h
  obtain ⟨⟨p, ms⟩, hm, rfl⟩ := map_eq_ok.1 h
  exact ⟨p, ms, hm, hland p ms hm⟩

lemma rewind_of_marks {s : S} {m : Mark} {p : Spot S} {ms : MarkStack (Spot S)} (hs : Ready s)
    (hm : (marks s).rewind m = .ok (p, ms)) :
    ∃ s', Cursor.rewind s m = .ok s' ∧ Lands s s' p ms := by
  obtain ⟨back, heq, hland⟩ := Lawful.rewind m hs
  rw [hm] at heq
  exact ⟨back (p, ms), heq, hland p ms hm⟩

lemma release_eq_ok {s s' : S} {m : Mark} (hs : Ready s) (h : Cursor.release s m = .ok s') :
    ∃ ms, (marks s).release m = .ok ms ∧ Lands s s' (spot s) ms := by
  obtain ⟨kept, heq, hland⟩ := Lawful.release m hs
  rw [heq] at h
  obtain ⟨ms, hm, rfl⟩ := map_eq_ok.1 h
  exact ⟨ms, hm, hland ms hm⟩

/-- A ready stream stays ready, and its input stays what it is. -/
lemma Step.ready {s s' : S} (h : Step s s') (hs : Ready s) : Ready s' ∧ input s' = input s := by
  cases h with
  | lookahead k => exact ⟨(Lawful.lookahead k hs).ready, (Lawful.lookahead k hs).input_eq⟩
  | symbol => exact ⟨(Lawful.symbol hs).ready, (Lawful.symbol hs).input_eq⟩
  | consume =>
    obtain ⟨p, hp, -⟩ := Lawful.consume hs
    exact ⟨hp.ready, hp.input_eq⟩
  | seek i =>
    obtain ⟨p, hp, -⟩ := Lawful.seek i hs
    exact ⟨hp.ready, hp.input_eq⟩
  | mark => exact ⟨(Lawful.mark hs).ready, (Lawful.mark hs).input_eq⟩
  | rewind h =>
    obtain ⟨p, ms, -, hland⟩ := rewind_eq_ok hs h
    exact ⟨hland.ready, hland.input_eq⟩
  | release h =>
    obtain ⟨ms, -, hland⟩ := release_eq_ok hs h
    exact ⟨hland.ready, hland.input_eq⟩

lemma Reaches.ready {s s' : S} (h : Reaches s s') (hs : Ready s) :
    Ready s' ∧ input s' = input s := by
  induction h with
  | refl => exact ⟨hs, rfl⟩
  | tail _ hstep ih =>
    obtain ⟨hready, hinput⟩ := hstep.ready ih.1
    exact ⟨hready, hinput.trans ih.2⟩

/-- The second stream is what some operations make of the first, and no mark was popped that had
been open. -/
structure Roams (s s' : S) : Prop where
  reaches : Reaches s s'
  opened : Ready s → (marks s).entries <+: (marks s').entries

omit [Lawful S] in
lemma Roams.refl (s : S) : Roams s s := ⟨Reaches.refl s, fun _ => List.prefix_refl _⟩

lemma Roams.trans {s t u : S} (hst : Roams s t) (htu : Roams t u) : Roams s u :=
  ⟨hst.reaches.trans htu.reaches,
    fun hs => (hst.opened hs).trans (htu.opened (hst.reaches.ready hs).1)⟩

omit [Lawful S] in
/-- An operation that leaves the marks as they are. -/
lemma Step.roams {s s' : S} (h : Step s s')
    (hland : Ready s → ∃ p, Lands s s' p (marks s)) : Roams s s' := by
  refine ⟨h.reaches, fun hs => ?_⟩
  obtain ⟨p, hp⟩ := hland hs
  exact hp.marks_eq ▸ List.prefix_refl _

lemma Roams.lookahead (s : S) (k : Int) : Roams s (lookahead s k).2 :=
  (Step.lookahead s k).roams fun hs => ⟨_, Lawful.lookahead k hs⟩

lemma Roams.symbol (s : S) : Roams s (symbol s).2 :=
  (Step.symbol s).roams fun hs => ⟨_, Lawful.symbol hs⟩

lemma Roams.consume (s : S) : Roams s (consume s) :=
  (Step.consume s).roams fun hs => (Lawful.consume hs).imp fun _ h => h.1

lemma Roams.seek (s : S) (i : Nat) : Roams s (seek s i) :=
  (Step.seek s i).roams fun hs => (Lawful.seek i hs).imp fun _ h => h.1

lemma Roams.mark (s : S) : Roams s (mark s).2 := by
  refine ⟨(Step.mark s).reaches, fun hs => ?_⟩
  rw [(Lawful.mark hs).marks_eq]
  exact List.prefix_append _ _

/-- A guard that is ended takes its own mark away and those above, or is refused. -/
lemma Roams.endGuard {s t : S} (h : Roams (Cursor.mark s).2 t) (ending : GuardEnd) :
    Roams s (Cursor.endGuard t (Cursor.mark s).1 ending).2 := by
  refine ⟨((Step.mark s).reaches.trans h.reaches).trans (reaches_endGuard _ _ _), fun hs => ?_⟩
  obtain ⟨ht, -⟩ := h.reaches.ready (Lawful.mark hs).ready
  have hopen : ((marks s).push (spot s)).2.entries <+: (marks t).entries := by
    rw [← (Lawful.mark hs).marks_eq]
    exact h.opened (Lawful.mark hs).ready
  have hbelow : (marks s).entries <+: (marks t).entries := (List.prefix_append _ _).trans hopen
  have htake {ms : List (Nat × Spot S)}
      (hms : ms = (marks t).entries.take (Cursor.mark s).1.depth) : (marks s).entries <+: ms := by
    have hbelow : ms = (marks s).entries := by
      rw [hms, Lawful.mark_fst hs, MarkStack.take_of_isPrefix hopen]
    exact hbelow ▸ List.prefix_refl _
  cases ending <;> simp only [Cursor.endGuard]
  · rcases hpop : Cursor.release t (Cursor.mark s).1 with cause | t'
    · exact hbelow
    · obtain ⟨ms, hms, hland⟩ := release_eq_ok ht hpop
      exact htake (hland.marks_eq ▸ MarkStack.entries_of_release hms)
  all_goals
    rcases hpop : Cursor.rewind t (Cursor.mark s).1 with cause | t'
    · exact hbelow
    · obtain ⟨p, ms, hms, hland⟩ := rewind_eq_ok ht hpop
      exact htake (hland.marks_eq ▸ MarkStack.entries_of_rewind hms)

/-- One operation that reads or marks. -/
inductive Stay : S → S → Prop
  | lookahead (s : S) (k : Int) : Stay s (lookahead s k).2
  | symbol (s : S) : Stay s (symbol s).2
  | mark (s : S) : Stay s (mark s).2

/-- The stream was read and marked, and its cursor was not touched. -/
def Stays : S → S → Prop := Relation.ReflTransGen Stay

omit [View S] [Lawful S] in
lemma Stays.refl (s : S) : Stays s s := Relation.ReflTransGen.refl

omit [View S] [Lawful S] in
lemma Stays.trans {s t u : S} (hst : Stays s t) (htu : Stays t u) : Stays s u :=
  Relation.ReflTransGen.trans hst htu

omit [View S] [Lawful S] in
lemma Stay.stays {s s' : S} (h : Stay s s') : Stays s s' := Relation.ReflTransGen.single h

lemma Stays.roams {s s' : S} (h : Stays s s') : Roams s s' := by
  induction h with
  | refl => exact Roams.refl s
  | tail _ hstep ih =>
    refine ih.trans ?_
    cases hstep with
    | lookahead k => exact Roams.lookahead _ k
    | symbol => exact Roams.symbol _
    | mark => exact Roams.mark _

lemma Stays.spot_eq {s s' : S} (h : Stays s s') (hs : Ready s) : spot s' = spot s := by
  induction h with
  | refl => rfl
  | tail hbefore hstep ih =>
    obtain ⟨hready, -⟩ := (Stays.roams hbefore).reaches.ready hs
    refine Eq.trans ?_ ih
    cases hstep with
    | lookahead k => exact (Lawful.lookahead k hready).spot_eq
    | symbol => exact (Lawful.symbol hready).spot_eq
    | mark => exact (Lawful.mark hready).spot_eq

/-- Going back to a mark that is still open, after any work: the cursor is where it was when the
mark was taken, and the open marks are those of that time. -/
lemma rewind_mark {s t : S} (hs : Ready s) (ht : Ready t) (hinput : input t = input s)
    (hopen : (marks (Cursor.mark s).2).entries <+: (marks t).entries) :
    ∃ t', Cursor.rewind t (Cursor.mark s).1 = .ok t' ∧
      Lands s t' (spot s) { marks t with entries := (marks s).entries } := by
  rw [(Lawful.mark hs).marks_eq] at hopen
  obtain ⟨t', ht', hland⟩ := rewind_of_marks ht (MarkStack.rewind_of_isPrefix hopen)
  rw [Lawful.mark_fst hs]
  exact ⟨t', ht', hland.ready, hland.input_eq.trans hinput, hland.spot_eq, hland.marks_eq⟩

/-- A mark is released with the cursor where it is, if no newer one is open. -/
lemma release_mark {s t : S} (hs : Ready s) (ht : Ready t)
    (hmarks : (marks t).entries = (marks (Cursor.mark s).2).entries) :
    ∃ t', Cursor.release t (Cursor.mark s).1 = .ok t' ∧
      Lands t t' (spot t) { marks t with entries := (marks s).entries } := by
  rw [(Lawful.mark hs).marks_eq] at hmarks
  obtain ⟨kept, heq, hland⟩ := Lawful.release (Cursor.mark s).1 ht
  have hrelease := MarkStack.release_of_entries_eq hmarks
  rw [← Lawful.mark_fst hs] at hrelease
  rw [hrelease] at heq
  exact ⟨_, heq, hland _ hrelease⟩

end Cursor

end Lookahead
