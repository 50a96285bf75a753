import Lookahead.Proofs.Recognizer.Speculation
import Lookahead.Proofs.Stream.Savepoints

/-!
# How guards end

A guard takes a mark on entry and ends it on every way out.  Its body may operate the stream as it
likes, so long as it spares the guard's mark and the older ones (`Sparing`); marks of its own it may
leave open.

`GuardOutcome` says what each ending then makes of the stream.  A guard that goes back cannot be
refused, and takes all marks of its body with it.  A guard that keeps what its body did pops its own
mark only, and that is refused if the body left a newer one.  Nobody ends the guard a second time,
so then its mark stays open with those of the body (`GuardOutcome.stuck`).
-/

namespace Lookahead

namespace MarkStack

variable {P : Type} {s t : MarkStack P} {p : P}

/-- A mark with newer ones on top is not released. -/
lemma release_of_isPrefix (h : (s.push p).2.entries <+: t.entries)
    (hnewer : t.entries ≠ (s.push p).2.entries) :
    t.release (s.push p).1 = .error (.releaseOutOfOrder s.depth t.depth) := by
  obtain ⟨newer, ht⟩ := h
  have hentries : t.entries = s.entries ++ (s.nextSerial, p) :: newer := by
    rw [← ht]
    simp [push]
  have hne : newer ≠ [] := by
    rintro rfl
    exact hnewer (ht ▸ List.append_nil _)
  have hlookup : t.lookup (s.push p).1 = .ok p := by
    simp [lookup, push, depth, hentries]
  have hdepth : ¬ (s.push p).1.depth + 1 = t.depth := by
    have hpos : 0 < newer.length := List.length_pos_iff.2 hne
    simp only [push, depth, hentries, List.length_append, List.length_cons]
    omega
  rw [release, hlookup]
  simp only [hdepth, if_false]
  rfl

end MarkStack

namespace Cursor

open View

variable {S : Type} [Cursor S] [View S]

/-! ## Bodies of guards -/

/-- The stream was made of a fresh one by some of its operations. -/
def Reached (s : S) : Prop := ∃ s₀, Fresh s₀ ∧ Reaches s₀ s

/-- The call neither rewinds nor releases a mark that is open in `s`. -/
def Call.Spares (s : S) : Call → Prop
  | .rewind m | .release m => ∀ p, ¬ holds (marks s) m p
  | _ => True

/-- Some calls, which may have been refused, made `t` of the stream `s`, and none of them was a
rewind or a release of a mark that was open in `s`. -/
def Sparing (s t : S) : Prop := ∃ calls, (∀ c ∈ calls, c.Spares s) ∧ (operated s calls).2 = t

variable [Savable S] {s t u : S}

/-- Marks that are no mark of the list point behind it, if they are open at all. -/
lemma isPrefix_take {P : Type} {ms ms' : MarkStack P} {m : Mark} {p : P}
    (h : ms.entries <+: ms'.entries) (hm : ms'.entries[m.depth]? = some (m.serial, p))
    (hspared : ∀ p, ¬ holds ms m p) : ms.entries <+: ms'.entries.take m.depth := by
  have hlength : ms.entries.length ≤ m.depth := by
    by_contra hlt
    refine hspared p ?_
    rw [holds, ← hm]
    obtain ⟨newer, hnewer⟩ := h
    rw [← hnewer, List.getElem?_append_left (Nat.lt_of_not_le hlt)]
  exact List.prefix_take_iff.2 ⟨h, hlength⟩

/-- A call that spares the marks of `s` leaves them open. -/
lemma opened_operate {c : Call} (hspares : c.Spares s)
    (h : (marks s).entries <+: (marks t).entries) :
    (marks s).entries <+: (marks (operate t c).2).entries := by
  cases c with
  | mark =>
    show (marks s).entries <+: (marks (mark t).2).entries
    rw [Savable.marks_mark]
    exact h.trans (List.prefix_append _ _)
  | rewind m =>
    rw [operate]
    cases hpop : rewind t m with
    | error cause => exact h
    | ok t' =>
      obtain ⟨p, hp⟩ := marks_of_rewind hpop
      obtain ⟨hholds, htake⟩ := MarkStack.rewind_eq_ok.1 hp
      rw [htake]
      exact isPrefix_take h hholds hspares
  | release m =>
    rw [operate]
    cases hpop : release t m with
    | error cause => exact h
    | ok t' =>
      obtain ⟨⟨p, hp⟩, -⟩ := MarkStack.release_eq_ok.1 (marks_of_release hpop)
      obtain ⟨hholds, htake⟩ := MarkStack.rewind_eq_ok.1 hp
      rw [htake]
      exact isPrefix_take h hholds hspares
  | consume =>
    show (marks s).entries <+: (marks (consume t)).entries
    rwa [Savable.marks_consume]
  | seek i =>
    show (marks s).entries <+: (marks (seek t i)).entries
    rwa [Savable.marks_seek]
  | lookahead k =>
    show (marks s).entries <+: (marks (lookahead t k).2).entries
    rwa [Savable.marks_lookahead]
  | symbol =>
    show (marks s).entries <+: (marks (symbol t).2).entries
    rwa [Savable.marks_symbol]

lemma opened_operated {calls : List Call} (hspares : ∀ c ∈ calls, c.Spares s)
    (h : (marks s).entries <+: (marks t).entries) : Reaches t (operated t calls).2 ∧
      (marks s).entries <+: (marks (operated t calls).2).entries := by
  induction calls generalizing t with
  | nil => exact ⟨Reaches.refl t, h⟩
  | cons c rest ih =>
    have hfirst := opened_operate (hspares c List.mem_cons_self) h
    obtain ⟨hreach, hopen⟩ := ih (fun c' hc' => hspares c' (List.mem_cons_of_mem c hc')) hfirst
    exact ⟨(reaches_operate t c).trans hreach, hopen⟩

/-- Calls that spare the marks of a stream leave them open. -/
lemma Sparing.opened (h : Sparing s t) : Reaches s t ∧ (marks s).entries <+: (marks t).entries := by
  obtain ⟨calls, hspares, rfl⟩ := h
  exact opened_operated hspares (List.prefix_refl _)

/-! ## Endings -/

/-- What the end of a guard over `s` answers, and makes of the stream `t` that its body left. -/
inductive GuardOutcome (s t : S) : GuardEnd → Except Misuse Unit → S → Prop
  /-- The stream is back where the mark was taken, and the open marks are those from before. -/
  | back {ending : GuardEnd} {u : S} (hending : ending ≠ .keep) (alike : Alike (mark s).2 u)
      (unmoved : Started s → Alike s u) (marks_eq : (marks u).entries = (marks s).entries)
      (depth_eq : markDepth u = markDepth s) :
      GuardOutcome s t ending (.ok ()) u
  /-- The body left no mark open: the stream stays where it is, with the marks from before. -/
  | kept {u : S} (depth : markDepth t = markDepth s + 1) (alike : Alike t u)
      (marks_eq : (marks u).entries = (marks s).entries) (depth_eq : markDepth u = markDepth s) :
      GuardOutcome s t .keep (.ok ()) u
  /-- The body left marks open: the release is refused, and they stay, with the guard's. -/
  | stuck (depth : markDepth s + 1 < markDepth t) (still : ∃ u, rewind t (mark s).1 = .ok u) :
      GuardOutcome s t .keep (.error (.releaseOutOfOrder (markDepth s) (markDepth t))) t

/-- What ending a guard rests on: its mark, and that it is still open. -/
structure Guarded (s t : S) : Prop where
  started : Started s → Ready s
  begun : Ready (mark s).2
  ready : Ready t
  input_eq : input t = input (mark s).2
  opened : ((marks s).push (spot (mark s).2)).2.entries <+: (marks t).entries

lemma Sparing.guarded (hs : Reached s) (h : Sparing (mark s).2 t) : Guarded s t := by
  obtain ⟨hreach, hopen⟩ := h.opened
  obtain ⟨s₀, hfresh, hs⟩ := hs
  have hbegun : Ready (mark s).2 :=
    Lawful.ready_of_reaches hfresh (hs.trans (Step.mark s).reaches) (Savable.started_mark s)
  obtain ⟨hready, hinput⟩ := hreach.ready hbegun
  rw [Savable.marks_mark] at hopen
  exact ⟨Lawful.ready_of_reaches hfresh hs, hbegun, hready, hinput, hopen⟩

namespace Guarded

lemma depth_eq {ms : MarkStack (Spot S)}
    (hmarks : marks u = { ms with entries := (marks s).entries }) : markDepth u = markDepth s := by
  rw [Lawful.markDepth_eq, Lawful.markDepth_eq, hmarks]
  rfl

/-- The guard's mark leads back. -/
lemma rewind_eq (h : Guarded s t) : ∃ u, rewind t (mark s).1 = .ok u ∧ Alike (mark s).2 u ∧
    (Started s → Alike s u) ∧ (marks u).entries = (marks s).entries ∧
      markDepth u = markDepth s := by
  obtain ⟨u, hu, hland⟩ := rewind_of_marks h.ready (MarkStack.rewind_of_isPrefix h.opened)
  have hinput : input u = input (mark s).2 := hland.input_eq.trans h.input_eq
  refine ⟨u, ?_, alike_of_lands h.begun hland.ready hinput hland.spot_eq, fun hs => ?_,
    by rw [hland.marks_eq], depth_eq hland.marks_eq⟩
  · rw [Savable.mark_eq, hu]
  · have hmark := Lawful.mark (h.started hs)
    exact alike_of_lands (h.started hs) hland.ready (hinput.trans hmark.input_eq)
      (hland.spot_eq.trans hmark.spot_eq)

/-- How many marks the body left open is read off the depth. -/
lemma entries_eq_iff (h : Guarded s t) :
    (marks t).entries = ((marks s).push (spot (mark s).2)).2.entries ↔
      markDepth t = markDepth s + 1 := by
  rw [Lawful.markDepth_eq, Lawful.markDepth_eq, ← MarkStack.depth_push (marks s) (spot (mark s).2)]
  exact ⟨fun heq => congrArg List.length heq, fun heq => (h.opened.eq_of_length heq.symm).symm⟩

lemma release_eq (h : Guarded s t) (hdepth : markDepth t = markDepth s + 1) :
    ∃ u, release t (mark s).1 = .ok u ∧ Alike t u ∧
      (marks u).entries = (marks s).entries ∧ markDepth u = markDepth s := by
  have hpop := MarkStack.release_of_entries_eq (h.entries_eq_iff.2 hdepth)
  obtain ⟨kept, heq, hland⟩ := Lawful.release (mark s).1 h.ready
  rw [Savable.mark_eq, hpop] at heq
  have hland := hland _ ((Savable.mark_eq s).symm ▸ hpop)
  refine ⟨_, (Savable.mark_eq s).symm ▸ heq, ?_, by rw [hland.marks_eq], depth_eq hland.marks_eq⟩
  exact alike_of_lands h.ready hland.ready hland.input_eq hland.spot_eq

lemma release_refused (h : Guarded s t) (hdepth : markDepth t ≠ markDepth s + 1) :
    release t (mark s).1 = .error (.releaseOutOfOrder (markDepth s) (markDepth t)) := by
  have hpop := MarkStack.release_of_isPrefix h.opened (mt h.entries_eq_iff.1 hdepth)
  obtain ⟨kept, heq, -⟩ := Savable.marks_release t (mark s).1
  rw [heq, Savable.mark_eq, hpop, Lawful.markDepth_eq, Lawful.markDepth_eq]
  rfl

/-- Every end of a guard whose mark is open is one of the three. -/
lemma settled (h : Guarded s t) (ending : GuardEnd) :
    GuardOutcome s t ending (endGuard t (mark s).1 ending).1 (endGuard t (mark s).1 ending).2 := by
  obtain ⟨u, hu, halike, hunmoved, hmarks, hback⟩ := h.rewind_eq
  by_cases hending : ending = .keep
  · subst hending
    by_cases hdepth : markDepth t = markDepth s + 1
    · obtain ⟨v, hv, hkept, hvmarks, hvback⟩ := h.release_eq hdepth
      rw [endGuard_keep hv]
      exact .kept hdepth hkept hvmarks hvback
    · have hle : markDepth s + 1 ≤ markDepth t := by
        rw [Lawful.markDepth_eq, Lawful.markDepth_eq,
          ← MarkStack.depth_push (marks s) (spot (mark s).2)]
        exact h.opened.length_le
      rw [endGuard_keep_error (h.release_refused hdepth)]
      exact .stuck (Nat.lt_of_le_of_ne hle (Ne.symm hdepth)) ⟨u, hu⟩
  · rw [endGuard_back hending hu]
    exact .back hending halike hunmoved hmarks hback

end Guarded

end Cursor

namespace Recognizer

open Cursor

variable {S : Type} [Cursor S] [View S] [Savable S] {s : S}

/-! ## Main result -/

/-- **What becomes of a guard's mark.**  The stream was operated in any way since it was fresh
(`Reached`), and the body of the guard spares the guard's mark and the older ones: none of its
calls rewinds or releases one of them, though it may leave marks of its own open (`Sparing`).

If the guard goes back or is abandoned, that is never refused, the marks are those from before
the guard, and the stream shows what it showed when the mark was taken.  If the guard keeps what
was done, this is so for the marks only if its body left none of its own open; otherwise the
release is refused and all of them stay.

A speculation of a recognizer ends its guard in the same way, whatever the outcome of its body
is, and takes back the depth of backtracking that it has added. -/
theorem guard_settles (hs : Reached s) :
    (∀ t ending, Sparing (Cursor.mark s).2 t →
      GuardOutcome s t ending (Cursor.endGuard t (Cursor.mark s).1 ending).1
        (Cursor.endGuard t (Cursor.mark s).1 ending).2) ∧
    ∀ (X α : Type) (raise : Bool) (ending : GuardEnd) (body : Action (Recognizer S X) α)
      (r r₁ : Recognizer S X) (outcome : Except Fault α), r.input = s →
      body (begun raise r) = some (outcome, r₁) → Sparing (Cursor.mark s).2 r₁.input →
      ∃ result u, GuardOutcome s r₁.input ending result u ∧
        speculating raise ending body r =
          some ((result.mapError .misuse).bind fun _ => outcome, ended raise u r₁) ∧
        (r₁.state.backtracking = (begun raise r).state.backtracking →
          (ended raise u r₁).state.backtracking = r.state.backtracking) := by
  refine ⟨fun t ending ht => (ht.guarded hs).settled ending, ?_⟩
  rintro X α raise ending body r r₁ outcome rfl hbody hsparing
  refine ⟨_, _, (hsparing.guarded hs).settled ending, ?_, fun hdepth => ?_⟩
  · rw [speculating_apply, hbody]
    rfl
  · show r₁.state.backtracking - raise.toNat = r.state.backtracking
    rw [hdepth]
    exact Nat.add_sub_cancel _ _

/-- A recognizer at the start of a text. -/
def atLetters : Recognizer CharacterStream Unit :=
  ofInput (.ofString "abc" "text") () .standard .characters

/-- A body that moves on, and leaves a mark open. -/
def leaving : Action (Recognizer CharacterStream Unit) Unit := do
  consume
  discard mark

/-- A guard over such a body goes back with both marks popped.  It cannot be kept, and then both
marks stay open. -/
theorem guard_settles_leaving :
    GuardOutcome atLetters.input (operated (Cursor.mark atLetters.input).2 [.consume, .mark]).2
        .restore (.ok ()) (operated atLetters.input [.mark, .consume, .mark, .rewind ⟨0, 0⟩]).2 ∧
      ∃ r, speculating true .keep leaving atLetters =
          some (.error (.misuse (.releaseOutOfOrder 0 2)), r) ∧
        Cursor.markDepth atLetters.input = 0 ∧ Cursor.markDepth r.input = 2 := by
  have hs : Reached atLetters.input := ⟨_, ⟨rfl, rfl⟩, Reaches.refl _⟩
  have hspares : ∀ c ∈ [Call.consume, Call.mark], c.Spares (Cursor.mark atLetters.input).2 := by
    simp [Call.Spares]
  have hsparing : Sparing (Cursor.mark atLetters.input).2 _ := ⟨_, hspares, rfl⟩
  refine ⟨(guard_settles hs).1 _ .restore hsparing, ?_⟩
  obtain ⟨result, u, hsettled, hspec, -⟩ :=
    (guard_settles hs).2 Unit Unit true .keep leaving atLetters _ (.ok ()) rfl rfl hsparing
  cases hsettled with
  | back hending => exact absurd rfl hending
  | kept hone => exact absurd hone (by decide +kernel)
  | stuck => exact ⟨_, hspec, rfl, rfl⟩

end Recognizer

end Lookahead
