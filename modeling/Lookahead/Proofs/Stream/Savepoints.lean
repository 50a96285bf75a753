import Lookahead.Proofs.Stream.Characters
import Lookahead.Proofs.Stream.Laziness
import Lookahead.Proofs.Stream.Nodes

/-!
# Marks are savepoints

A client keeps the marks it was given for as long as it likes, and may hand any of them back at any
time.  The stream has to tell the open ones from the others by itself: depths are used again, and
nobody tells a client which of its marks a rewind has popped.

`operate` is one call and what it adds to the log of the marks taken, rewound and released;
`operated` is a sequence of calls.  Which marks are open is read off the log alone (`Open`).  The
stream agrees with the log (`Ledger`): serial numbers increase along the log and along the stack, so
a mark is on the stack at its depth and with its number if and only if the log has it open, and what
it pops is what was taken after it.
-/

namespace Lookahead

namespace MarkStack

variable {P : Type} {s t : MarkStack P} {m : Mark} {p : P}

lemma rewind_eq_ok : s.rewind m = .ok (p, t) ↔
    s.entries[m.depth]? = some (m.serial, p) ∧
      t = { s with entries := s.entries.take m.depth } := by
  have hlookup : s.lookup m = .ok p ↔ s.entries[m.depth]? = some (m.serial, p) := by
    unfold lookup
    split
    · rename_i serial q hget
      rw [hget]
      split <;> simp_all
    · rename_i hget
      simp [hget]
  rw [← hlookup, rewind]
  cases s.lookup m with
  | error cause => simp
  | ok q =>
    simp only [Except.ok.injEq, Prod.mk.injEq]
    exact and_congr_right fun _ => eq_comm

lemma release_eq_ok : s.release m = .ok t ↔
    (∃ p, s.rewind m = .ok (p, t)) ∧ m.depth + 1 = s.depth := by
  unfold release rewind
  cases s.lookup m with
  | error cause => simp
  | ok q =>
    simp only
    split <;> simp_all

end MarkStack

namespace Cursor

open View

/-! ## Calls and their log -/

/-- What a client can call, with any mark that it has kept or made up. -/
inductive Call where
  | mark
  | rewind (m : Mark)
  | release (m : Mark)
  | consume
  | seek (i : Nat)
  | lookahead (k : Int)
  | symbol
  deriving DecidableEq, Repr

/-- What happened to marks; what is refused is no entry. -/
inductive Entry (S : Type) where
  /-- A mark was taken, and left the stream as it is in `s`. -/
  | took (m : Mark) (s : S)
  | rewound (m : Mark)
  | released (m : Mark)

section

variable {S : Type} [Cursor S]

/-- One call.  A stream that refuses stays as it is, and nothing is logged. -/
def operate (s : S) : Call → List (Entry S) × S
  | .mark => ([.took (mark s).1 (mark s).2], (mark s).2)
  | .rewind m =>
    match rewind s m with
    | .ok s' => ([.rewound m], s')
    | .error _ => ([], s)
  | .release m =>
    match release s m with
    | .ok s' => ([.released m], s')
    | .error _ => ([], s)
  | .consume => ([], consume s)
  | .seek i => ([], seek s i)
  | .lookahead k => ([], (lookahead s k).2)
  | .symbol => ([], (symbol s).2)

/-- Some calls in a row, with the log of all of them, and the stream at the end. -/
def operated (s : S) : List Call → List (Entry S) × S
  | [] => ([], s)
  | c :: rest =>
    let (entries, s) := operate s c
    let (log, s) := operated s rest
    (entries ++ log, s)

lemma reaches_operate (s : S) (c : Call) : Reaches s (operate s c).2 := by
  cases c with
  | mark => exact (Step.mark s).reaches
  | rewind m =>
    rw [operate]
    cases h : rewind s m with
    | error cause => exact Reaches.refl s
    | ok s' => exact (Step.rewind h).reaches
  | release m =>
    rw [operate]
    cases h : release s m with
    | error cause => exact Reaches.refl s
    | ok s' => exact (Step.release h).reaches
  | consume => exact (Step.consume s).reaches
  | seek i => exact (Step.seek s i).reaches
  | lookahead k => exact (Step.lookahead s k).reaches
  | symbol => exact (Step.symbol s).reaches

lemma reaches_operated (s : S) (calls : List Call) : Reaches s (operated s calls).2 := by
  induction calls generalizing s with
  | nil => exact Reaches.refl s
  | cons c rest ih => exact (reaches_operate s c).trans (ih (operate s c).2)

end

/-! ## Open marks -/

section

variable {S : Type}

/-- Does the entry take away mark `m`, which was taken when the log was `older`?  Its own rewind
does, that of an older mark, and its release. -/
def Entry.Pops (older : List (Entry S)) (m : Mark) : Entry S → Prop
  | .took _ _ => False
  | .rewound m' => m' = m ∨ ∃ s, .took m' s ∈ older
  | .released m' => m' = m

/-- The log has the mark taken at the end of `older`, and not popped since. -/
def OpenedAt (log older : List (Entry S)) (m : Mark) (s : S) : Prop :=
  ∃ newer, log = older ++ .took m s :: newer ∧ ∀ e ∈ newer, ¬ e.Pops older m

/-- The mark was taken and has not been popped since. -/
def Open (log : List (Entry S)) (m : Mark) : Prop := ∃ older s, OpenedAt log older m s

/-- The mark is open, and no other open mark is newer. -/
def Innermost (log : List (Entry S)) (m : Mark) : Prop :=
  ∃ older s, OpenedAt log older m s ∧ ∀ m', Open log m' → m' = m ∨ ∃ s', .took m' s' ∈ older

/-- The serial numbers of the marks that were taken. -/
def serials (log : List (Entry S)) : List Nat :=
  log.filterMap fun
    | .took m _ => some m.serial
    | _ => none

variable {log older : List (Entry S)} {m m' : Mark} {s s' : S} {e : Entry S}

lemma mem_serials (h : .took m s ∈ log) : m.serial ∈ serials log :=
  List.mem_filterMap.2 ⟨_, h, rfl⟩

lemma serials_append (log log' : List (Entry S)) :
    serials (log ++ log') = serials log ++ serials log' :=
  List.filterMap_append

lemma OpenedAt.mem (h : OpenedAt log older m s) : .took m s ∈ log := by
  obtain ⟨newer, rfl, -⟩ := h
  simp

lemma OpenedAt.serials_eq (h : OpenedAt log older m s) :
    ∃ newer, log = older ++ .took m s :: newer ∧
      serials log = serials older ++ m.serial :: serials newer := by
  obtain ⟨newer, hlog, -⟩ := h
  refine ⟨newer, hlog, ?_⟩
  rw [hlog, serials_append]
  rfl

lemma OpenedAt.lt_of_mem (hlog : (serials log).Pairwise (· < ·)) (h : OpenedAt log older m s)
    (hm' : .took m' s' ∈ older) : m'.serial < m.serial := by
  obtain ⟨newer, -, hserials⟩ := h.serials_eq
  rw [hserials, List.pairwise_append] at hlog
  exact hlog.2.2 _ (mem_serials hm') _ List.mem_cons_self

/-- Another mark of the log is older, with a smaller number, or newer, with a larger one. -/
lemma OpenedAt.compare (hlog : (serials log).Pairwise (· < ·)) (h : OpenedAt log older m s)
    (hm' : .took m' s' ∈ log) :
    m' = m ∨ .took m' s' ∈ older ∧ m'.serial < m.serial ∨ m.serial < m'.serial := by
  obtain ⟨newer, rfl, hserials⟩ := h.serials_eq
  rcases List.mem_append.1 hm' with hmem | hmem
  · exact .inr (.inl ⟨hmem, h.lt_of_mem hlog hmem⟩)
  rcases List.mem_cons.1 hmem with heq | hmem
  · exact .inl (Entry.took.inj heq).1
  · rw [hserials, List.pairwise_append, List.pairwise_cons] at hlog
    exact .inr (.inr (hlog.2.1.1 _ (mem_serials hmem)))

/-- An entry that takes no mark leaves the marks open that it does not pop. -/
lemma open_append (he : ∀ m s, e ≠ .took m s) :
    Open (log ++ [e]) m ↔ ∃ older s, OpenedAt log older m s ∧ ¬ e.Pops older m := by
  constructor
  · rintro ⟨older, s, newer, hlog, hkept⟩
    rcases List.eq_nil_or_concat newer with rfl | ⟨newer, e', rfl⟩
    · obtain ⟨-, heq⟩ := List.append_inj' hlog rfl
      exact absurd (List.cons.inj heq).1 (he m s)
    · rw [List.concat_eq_append, ← List.cons_append, ← List.append_assoc] at hlog
      obtain ⟨rfl, heq⟩ := List.append_inj' hlog rfl
      obtain ⟨rfl, -⟩ := List.cons.inj heq
      exact ⟨older, s, ⟨newer, rfl, fun e' he' => hkept e' (by simp [he'])⟩, hkept e (by simp)⟩
  · rintro ⟨older, s, ⟨newer, rfl, hkept⟩, hpops⟩
    refine ⟨older, s, newer ++ [e], by simp, fun e' he' => ?_⟩
    rcases List.mem_append.1 he' with he' | he'
    · exact hkept e' he'
    · obtain rfl := List.mem_singleton.1 he'
      exact hpops

lemma open_append_took : Open (log ++ [.took m s]) m' ↔ m' = m ∨ Open log m' := by
  constructor
  · rintro ⟨older, u, newer, hlog, hkept⟩
    rcases List.eq_nil_or_concat newer with rfl | ⟨newer, e', rfl⟩
    · obtain ⟨-, heq⟩ := List.append_inj' hlog rfl
      obtain ⟨rfl, -⟩ := Entry.took.inj (List.cons.inj heq).1
      exact .inl rfl
    · rw [List.concat_eq_append, ← List.cons_append, ← List.append_assoc] at hlog
      obtain ⟨rfl, -⟩ := List.append_inj' hlog rfl
      exact .inr ⟨older, u, newer, rfl, fun e' he' => hkept e' (by simp [he'])⟩
  · rintro (rfl | ⟨older, u, newer, rfl, hkept⟩)
    · exact ⟨log, s, [], rfl, by simp⟩
    · refine ⟨older, u, newer ++ [.took m s], by simp, fun e' he' => ?_⟩
      rcases List.mem_append.1 he' with he' | he'
      · exact hkept e' he'
      · obtain rfl := List.mem_singleton.1 he'
        exact id

/-- A rewind pops its own mark and all newer ones. -/
lemma open_append_rewound (hlog : (serials log).Pairwise (· < ·)) (hm : Open log m) :
    Open (log ++ [.rewound m]) m' ↔ Open log m' ∧ m'.serial < m.serial := by
  obtain ⟨older, s, hopened⟩ := hm
  rw [open_append (by simp)]
  constructor
  · rintro ⟨older', s', hopened', hpops⟩
    have hne : m ≠ m' := fun h => hpops (.inl h)
    have hnot : .took m s ∉ older' := fun h => hpops (.inr ⟨s, h⟩)
    refine ⟨⟨older', s', hopened'⟩, ?_⟩
    rcases hopened'.compare hlog hopened.mem with heq | ⟨hmem, -⟩ | hlt
    · exact absurd heq hne
    · exact absurd hmem hnot
    · exact hlt
  · rintro ⟨⟨older', s', hopened'⟩, hlt⟩
    refine ⟨older', s', hopened', ?_⟩
    rintro (rfl | ⟨u, hu⟩)
    · exact Nat.lt_irrefl _ hlt
    · exact Nat.lt_asymm hlt (hopened'.lt_of_mem hlog hu)

lemma open_append_released :
    Open (log ++ [.released m]) m' ↔ Open log m' ∧ m' ≠ m := by
  rw [open_append (by simp)]
  constructor
  · rintro ⟨older, s, hopened, hpops⟩
    exact ⟨⟨older, s, hopened⟩, fun h => hpops h.symm⟩
  · rintro ⟨⟨older, s, hopened⟩, hne⟩
    exact ⟨older, s, hopened, fun h => hne h.symm⟩

/-! ## The stack agrees with the log -/

/-- The marks of a stack, with the positions that they save. -/
def holds {P : Type} (ms : MarkStack P) (m : Mark) (p : P) : Prop :=
  ms.entries[m.depth]? = some (m.serial, p)

/-- The marks on the stack are those that the log has open, and serial numbers go up. -/
structure Ledger {P : Type} (log : List (Entry S)) (ms : MarkStack P) : Prop where
  increasing : (serials log).Pairwise (· < ·)
  bounded : ∀ n ∈ serials log, n < ms.nextSerial
  ascending : (ms.entries.map Prod.fst).Pairwise (· < ·)
  open_iff : ∀ m, Open log m ↔ ∃ p, holds ms m p

lemma Open.mem (h : Open log m) : ∃ s, .took m s ∈ log := by
  obtain ⟨older, s, hopened⟩ := h
  exact ⟨s, hopened.mem⟩

variable {P : Type} {ms : MarkStack P} {p q : P}

lemma ledger_empty : Ledger ([] : List (Entry S)) (.empty : MarkStack P) := by
  refine ⟨List.Pairwise.nil, by simp [serials], List.Pairwise.nil, fun m => ?_⟩
  constructor
  · intro h
    obtain ⟨s, hs⟩ := h.mem
    cases hs
  · rintro ⟨p, hp⟩
    simp [holds, MarkStack.empty] at hp

lemma Ledger.lt_next (h : Ledger log ms) (hm : holds ms m p) : m.serial < ms.nextSerial := by
  obtain ⟨s, hs⟩ := ((h.open_iff m).2 ⟨p, hm⟩).mem
  exact h.bounded _ (mem_serials hs)

lemma depth_lt_of_holds (hm : holds ms m p) : m.depth < ms.depth :=
  (List.getElem?_eq_some_iff.1 hm).1

lemma eq_of_holds (hm : holds ms m p) (hm' : holds ms m' q) (hdepth : m'.depth = m.depth) :
    m' = m := by
  rw [holds, hdepth, hm] at hm'
  obtain ⟨hserial, -⟩ := Prod.mk.inj (Option.some.inj hm')
  cases m
  cases m'
  simp_all

lemma holds_take {n serial : Nat} :
    holds (⟨ms.entries.take n, serial⟩ : MarkStack P) m p ↔ holds ms m p ∧ m.depth < n := by
  simp only [holds, List.getElem?_take]
  split
  · simp [*]
  · simp [*]

lemma holds_push : holds (ms.push p).2 m q ↔ holds ms m q ∨ m = (ms.push p).1 ∧ q = p := by
  have hnew : m = (ms.push p).1 ↔ m.depth = ms.depth ∧ m.serial = ms.nextSerial := by
    cases m
    simp [MarkStack.push]
  rw [hnew]
  simp only [holds, MarkStack.push, List.getElem?_append]
  split
  · rename_i hlt
    have hne : m.depth ≠ ms.depth := Nat.ne_of_lt hlt
    simp [hne]
  · rename_i hge
    have hnone : ms.entries[m.depth]? = none := List.getElem?_eq_none (Nat.le_of_not_lt hge)
    rw [hnone]
    by_cases hdepth : m.depth = ms.depth
    · rw [hdepth, MarkStack.depth]
      simp [eq_comm]
    · have hpast : m.depth - ms.entries.length ≠ 0 := by
        rw [MarkStack.depth] at hdepth
        omega
      simp [hdepth, hpast]

lemma Ledger.serial_lt (h : Ledger log ms) (hm : holds ms m p) (hm' : holds ms m' q)
    (hlt : m.depth < m'.depth) : m.serial < m'.serial := by
  obtain ⟨hi, hget⟩ := List.getElem?_eq_some_iff.1 hm
  obtain ⟨hj, hget'⟩ := List.getElem?_eq_some_iff.1 hm'
  have hascending := List.pairwise_iff_getElem.1 h.ascending m.depth m'.depth (by simpa using hi)
    (by simpa using hj) hlt
  simpa [hget, hget'] using hascending

/-- Along the stack, depths and numbers are in the same order. -/
lemma Ledger.depth_lt_iff (h : Ledger log ms) (hm : holds ms m p) (hm' : holds ms m' q) :
    m'.depth < m.depth ↔ m'.serial < m.serial := by
  constructor
  · exact h.serial_lt hm' hm
  · intro hlt
    by_contra hge
    rcases Nat.lt_or_eq_of_le (Nat.le_of_not_lt hge) with hdepth | hdepth
    · exact Nat.lt_asymm hlt (h.serial_lt hm hm' hdepth)
    · obtain rfl := eq_of_holds hm hm' hdepth.symm
      exact Nat.lt_irrefl _ hlt

/-- Popping part of the stack. -/
lemma Ledger.popped (h : Ledger log ms) {n : Nat} (he : ∀ m s, e ≠ .took m s)
    (hopen : ∀ m, Open (log ++ [e]) m ↔ ∃ p, holds ms m p ∧ m.depth < n) :
    Ledger (log ++ [e]) { ms with entries := ms.entries.take n } := by
  have hserials : serials (log ++ [e]) = serials log := by
    rw [serials_append]
    cases e with
    | took m s => exact absurd rfl (he m s)
    | rewound | released => exact List.append_nil _
  refine ⟨by rw [hserials]; exact h.increasing, by rw [hserials]; exact h.bounded, ?_, fun m => ?_⟩
  · simp only [List.map_take]
    exact h.ascending.sublist (List.take_sublist _ _)
  · simp only [hopen, holds_take]

lemma Ledger.took (h : Ledger log ms) (p : P) (s : S) :
    Ledger (log ++ [.took (ms.push p).1 s]) (ms.push p).2 := by
  have hserials : serials (log ++ [.took (ms.push p).1 s]) = serials log ++ [ms.nextSerial] := by
    rw [serials_append]
    rfl
  have hbelow : ∀ e ∈ ms.entries.map Prod.fst, e < ms.nextSerial := by
    intro serial hserial
    obtain ⟨e, he, rfl⟩ := List.mem_map.1 hserial
    obtain ⟨i, hi⟩ := List.mem_iff_getElem?.1 he
    exact h.lt_next (m := ⟨i, e.1⟩) (p := e.2) hi
  constructor
  · rw [hserials]
    exact List.pairwise_append.2 ⟨h.increasing, List.pairwise_singleton _ _,
      fun n hn _ hm => List.mem_singleton.1 hm ▸ h.bounded n hn⟩
  · rw [hserials]
    intro n hn
    rcases List.mem_append.1 hn with hn | hn
    · exact Nat.lt_succ_of_lt (h.bounded n hn)
    · exact List.mem_singleton.1 hn ▸ Nat.lt_succ_self _
  · have hentries : (ms.push p).2.entries.map Prod.fst =
        ms.entries.map Prod.fst ++ [ms.nextSerial] := by simp [MarkStack.push]
    rw [hentries]
    exact List.pairwise_append.2 ⟨h.ascending, List.pairwise_singleton _ _,
      fun n hn _ hm => List.mem_singleton.1 hm ▸ hbelow n hn⟩
  · intro m
    rw [open_append_took, h.open_iff m]
    simp only [holds_push]
    constructor
    · rintro (hnew | ⟨q, hq⟩)
      · exact ⟨p, .inr ⟨hnew, rfl⟩⟩
      · exact ⟨q, .inl hq⟩
    · rintro ⟨q, hq | ⟨hnew, -⟩⟩
      · exact .inr ⟨q, hq⟩
      · exact .inl hnew

lemma Ledger.rewound (h : Ledger log ms) {t : MarkStack P} (hm : ms.rewind m = .ok (p, t)) :
    Ledger (log ++ [.rewound m]) t := by
  obtain ⟨hholds, rfl⟩ := MarkStack.rewind_eq_ok.1 hm
  refine h.popped (by simp) fun m' => ?_
  rw [open_append_rewound h.increasing ((h.open_iff m).2 ⟨p, hholds⟩), h.open_iff m']
  constructor
  · rintro ⟨⟨q, hq⟩, hlt⟩
    exact ⟨q, hq, (h.depth_lt_iff hholds hq).2 hlt⟩
  · rintro ⟨q, hq, hlt⟩
    exact ⟨⟨q, hq⟩, (h.depth_lt_iff hholds hq).1 hlt⟩

lemma Ledger.released (h : Ledger log ms) {t : MarkStack P} (hm : ms.release m = .ok t) :
    Ledger (log ++ [.released m]) t := by
  obtain ⟨⟨p, hrewind⟩, hdepth⟩ := MarkStack.release_eq_ok.1 hm
  obtain ⟨hholds, rfl⟩ := MarkStack.rewind_eq_ok.1 hrewind
  refine h.popped (by simp) fun m' => ?_
  rw [open_append_released, h.open_iff m']
  constructor
  · rintro ⟨⟨q, hq⟩, hne⟩
    have hle : m'.depth ≤ m.depth := by
      have hlt := depth_lt_of_holds hq
      omega
    refine ⟨q, hq, Nat.lt_of_le_of_ne hle fun hsame => hne ?_⟩
    exact eq_of_holds hholds hq hsame
  · rintro ⟨q, hq, hlt⟩
    refine ⟨⟨q, hq⟩, ?_⟩
    rintro rfl
    exact Nat.lt_irrefl _ hlt

lemma eq_of_took (hlog : (serials log).Pairwise (· < ·))
    {older older' newer newer' : List (Entry S)}
    (h : log = older ++ .took m s :: newer) (h' : log = older' ++ .took m s' :: newer') :
    older' = older ∧ newer' = newer := by
  have hsplit {a b c d : List (Entry S)} {x y : S} (h : log = a ++ .took m x :: b)
      (h' : log = (a ++ .took m x :: c) ++ .took m y :: d) : False := by
    have hserials : serials log =
        serials (a ++ .took m x :: c) ++ serials (.took m y :: d) := by
      rw [h', serials_append]
    rw [hserials, List.pairwise_append] at hlog
    exact Nat.lt_irrefl _ (hlog.2.2 _ (mem_serials (m := m) (s := x) (by simp)) _
      (mem_serials (m := m) (s := y) (by simp)))
  rcases List.append_eq_append_iff.1 (h.symm.trans h') with ⟨gap, hgap, hrest⟩ | ⟨gap, hgap, hrest⟩
  · cases gap with
    | nil =>
      obtain ⟨-, rfl⟩ := List.cons.inj hrest
      exact ⟨by simp [hgap], rfl⟩
    | cons e gap =>
      obtain ⟨rfl, rfl⟩ := List.cons.inj hrest
      exact (hsplit h (hgap ▸ h')).elim
  · cases gap with
    | nil =>
      obtain ⟨-, rfl⟩ := List.cons.inj hrest
      exact ⟨by simp [hgap], rfl⟩
    | cons e gap =>
      obtain ⟨rfl, rfl⟩ := List.cons.inj hrest
      exact (hsplit h' (hgap ▸ h)).elim

/-- The marks that a rewind leaves open are those that were open when its mark was taken. -/
lemma OpenedAt.open_older (hlog : (serials log).Pairwise (· < ·)) (h : OpenedAt log older m s) :
    Open (log ++ [.rewound m]) m' ↔ Open older m' ∧ Open log m' := by
  rw [open_append_rewound hlog ⟨older, s, h⟩, and_comm]
  refine and_congr_left fun hopen => ?_
  constructor
  · intro hlt
    obtain ⟨older', s', newer', hlog', hkept⟩ := hopen
    have htook : .took m' s' ∈ log := by simp [hlog']
    rcases h.compare hlog htook with rfl | ⟨hmem, -⟩ | hgt
    · exact absurd hlt (Nat.lt_irrefl _)
    · obtain ⟨a, b, hab⟩ := List.append_of_mem hmem
      obtain ⟨newer, hnewer, -⟩ := h
      have hwhole : log = a ++ .took m' s' :: (b ++ .took m s :: newer) := by
        rw [hnewer, hab]
        simp
      obtain ⟨rfl, rfl⟩ := eq_of_took hlog hwhole hlog'
      exact ⟨_, s', b, hab, fun e he => hkept e (by simp [he])⟩
    · exact absurd hlt (Nat.lt_asymm hgt)
  · intro hopen'
    obtain ⟨s', hs'⟩ := hopen'.mem
    exact h.lt_of_mem hlog hs'

/-- The innermost open mark is the one at the end of the stack. -/
lemma Ledger.innermost_iff (h : Ledger log ms) :
    Innermost log m ↔ (∃ p, holds ms m p) ∧ m.depth + 1 = ms.depth := by
  constructor
  · rintro ⟨older, s, hopened, hnewest⟩
    obtain ⟨p, hp⟩ := (h.open_iff m).1 ⟨older, s, hopened⟩
    refine ⟨⟨p, hp⟩, ?_⟩
    by_contra hne
    have hlt : m.depth + 1 < ms.entries.length :=
      Nat.lt_of_le_of_ne (depth_lt_of_holds hp) hne
    -- the mark above is open as well
    obtain ⟨above, habove⟩ : ∃ above : Mark, above.depth = m.depth + 1 ∧
        holds ms above ms.entries[m.depth + 1].2 :=
      ⟨⟨m.depth + 1, ms.entries[m.depth + 1].1⟩, rfl, List.getElem?_eq_getElem hlt⟩
    have hserial := h.serial_lt hp habove.2 (habove.1 ▸ Nat.lt_succ_self _)
    rcases hnewest above ((h.open_iff above).2 ⟨_, habove.2⟩) with rfl | ⟨u, hu⟩
    · exact Nat.lt_irrefl _ hserial
    · exact Nat.lt_asymm hserial (hopened.lt_of_mem h.increasing hu)
  · rintro ⟨⟨p, hp⟩, hdepth⟩
    obtain ⟨older, s, hopened⟩ := (h.open_iff m).2 ⟨p, hp⟩
    refine ⟨older, s, hopened, fun m' hm' => ?_⟩
    obtain ⟨q, hq⟩ := (h.open_iff m').1 hm'
    obtain ⟨s', hs'⟩ := hm'.mem
    rcases hopened.compare h.increasing hs' with heq | ⟨hmem, -⟩ | hgt
    · exact .inl heq
    · exact .inr ⟨s', hmem⟩
    · have habove := (h.depth_lt_iff hq hp).2 hgt
      have hbelow := depth_lt_of_holds hq
      omega

end

/-! ## Going back -/

/-- What marks do to a stream in any state, and what a ready one shows at a spot. -/
class Savable (S : Type) [Cursor S] [View S] : Prop extends Lawful S where
  marks_fresh {s : S} : Fresh s → marks s = .empty
  marks_lookahead (s : S) (k : Int) : marks (Cursor.lookahead s k).2 = marks s
  marks_symbol (s : S) : marks (Cursor.symbol s).2 = marks s
  marks_consume (s : S) : marks (Cursor.consume s) = marks s
  marks_seek (s : S) (i : Nat) : marks (Cursor.seek s i) = marks s
  mark_eq (s : S) : (Cursor.mark s).1 = ((marks s).push (spot (Cursor.mark s).2)).1
  marks_mark (s : S) :
    marks (Cursor.mark s).2 = ((marks s).push (spot (Cursor.mark s).2)).2
  started_mark (s : S) : Started (Cursor.mark s).2
  marks_rewind (s : S) (m : Mark) : ∃ back, Cursor.rewind s m = ((marks s).rewind m).map back ∧
    ∀ p ms, marks (back (p, ms)) = ms
  marks_release (s : S) (m : Mark) : ∃ kept, Cursor.release s m = ((marks s).release m).map kept ∧
    ∀ ms, marks (kept ms) = ms
  lookahead_congr {s s' : S} (k : Int) : Ready s → Ready s' → input s' = input s →
    spot s' = spot s → (Cursor.lookahead s' k).1 = (Cursor.lookahead s k).1
  symbol_congr {s s' : S} : Ready s → Ready s' → input s' = input s →
    spot s' = spot s → (Cursor.symbol s').1 = (Cursor.symbol s).1

variable {S : Type} [Cursor S] [View S]

/-- A client that looks around cannot tell the streams apart, wherever it looks from the cursor. -/
structure Alike (s s' : S) : Prop where
  spot_eq : spot s' = spot s
  index_eq : index s' = index s
  lookahead_eq : ∀ k, (lookahead s' k).1 = (lookahead s k).1
  symbol_eq : (symbol s').1 = (symbol s).1

/-- The marks of the log are savepoints of the stream: those that are open can be gone back to, and
that restores the stream; the innermost one can be released, and that moves nothing; and what is
refused changes nothing. -/
structure Savepoints (log : List (Entry S)) (s : S) : Prop where
  rewind_iff : ∀ m, (∃ s', rewind s m = .ok s') ↔ Open log m
  restored : ∀ m s', rewind s m = .ok s' → ∃ older u, OpenedAt log older m u ∧ Alike u s' ∧
    ∀ m', (∃ s'', rewind s' m' = .ok s'') ↔ Open older m' ∧ Open log m'
  release_iff : ∀ m, (∃ s', release s m = .ok s') ↔ Innermost log m
  unmoved : ∀ m s', release s m = .ok s' → Alike s s' ∧
    ∀ m', (∃ s'', rewind s' m' = .ok s'') ↔ Open log m' ∧ m' ≠ m
  refused : ∀ m cause, (rewind s m = .error cause → operate s (.rewind m) = ([], s)) ∧
    (release s m = .error cause → operate s (.release m) = ([], s))

variable [Savable S] {log : List (Entry S)} {s s' : S} {m : Mark}

/-- The invariant of all calls: the stack agrees with the log, and what a mark saves is the spot
where the log has it taken. -/
structure Recorded (log : List (Entry S)) (s : S) : Prop where
  ledger : Ledger log (marks s)
  reached : ∃ s₀, Fresh s₀ ∧ Reaches s₀ s
  saved : ∀ m u p, .took m u ∈ log → holds (marks s) m p → spot u = p
  ready : ∀ m u, .took m u ∈ log → Ready u ∧ Ready s ∧ input s = input u

lemma recorded_fresh (h : Fresh s) : Recorded [] s :=
  ⟨Savable.marks_fresh h ▸ ledger_empty, ⟨s, h, Reaches.refl s⟩,
    fun _ _ _ hmem => absurd hmem List.not_mem_nil, fun _ _ hmem => absurd hmem List.not_mem_nil⟩

omit [Savable S] in
lemma reached_step (h : Step s s') (hs : ∃ s₀, Fresh s₀ ∧ Reaches s₀ s) :
    ∃ s₀, Fresh s₀ ∧ Reaches s₀ s' :=
  hs.imp fun _ hs₀ => ⟨hs₀.1, hs₀.2.trans h.reaches⟩

lemma Recorded.ready_step (hs : Recorded log s) (h : Step s s') :
    ∀ m u, .took m u ∈ log → Ready u ∧ Ready s' ∧ input s' = input u := by
  intro m u hu
  obtain ⟨hu, hready, hinput⟩ := hs.ready m u hu
  obtain ⟨hready', hinput'⟩ := h.ready hready
  exact ⟨hu, hready', hinput'.trans hinput⟩

/-- A call that leaves the marks as they are. -/
lemma Recorded.kept (hs : Recorded log s) (h : Step s s') (hmarks : marks s' = marks s) :
    Recorded log s' :=
  ⟨hmarks ▸ hs.ledger, reached_step h hs.reached, hmarks ▸ hs.saved, hs.ready_step h⟩

/-- A call that pops marks. -/
lemma Recorded.popped (hs : Recorded log s) (h : Step s s') {e : Entry S}
    (he : ∀ m s, e ≠ .took m s) (hledger : Ledger (log ++ [e]) (marks s'))
    (hmarks : ∀ m p, holds (marks s') m p → holds (marks s) m p) : Recorded (log ++ [e]) s' := by
  have hmem {m : Mark} {u : S} (hu : .took m u ∈ log ++ [e]) : .took m u ∈ log := by
    rcases List.mem_append.1 hu with hu | hu
    · exact hu
    · exact absurd (List.mem_singleton.1 hu).symm (he m u)
  exact ⟨hledger, reached_step h hs.reached,
    fun m u p hu hp => hs.saved m u p (hmem hu) (hmarks m p hp),
    fun m u hu => hs.ready_step h m u (hmem hu)⟩

lemma Recorded.took (hs : Recorded log s) :
    Recorded (log ++ [.took (mark s).1 (mark s).2]) (mark s).2 := by
  have hstep := Step.mark s
  have hreached := reached_step hstep hs.reached
  obtain ⟨s₀, hfresh, hreach⟩ := hreached
  have hready : Ready (mark s).2 :=
    Lawful.ready_of_reaches hfresh hreach (Savable.started_mark s)
  have hmark := Savable.mark_eq s
  have hmarks := Savable.marks_mark s
  refine ⟨?_, ⟨s₀, hfresh, hreach⟩, fun m u p hu hp => ?_, fun m u hu => ?_⟩
  · rw [hmark, hmarks]
    exact hs.ledger.took _ _
  · rw [hmarks, holds_push] at hp
    rcases List.mem_append.1 hu with hu | hu
    · rcases hp with hp | ⟨rfl, -⟩
      · exact hs.saved m u p hu hp
      · -- the new mark's number was not used before
        exact absurd (hs.ledger.bounded _ (mem_serials hu)) (Nat.lt_irrefl _)
    · obtain ⟨rfl, rfl⟩ := Entry.took.inj (List.mem_singleton.1 hu)
      rcases hp with hp | ⟨-, rfl⟩
      · rw [hmark] at hp
        exact absurd (hs.ledger.lt_next hp) (Nat.lt_irrefl _)
      · rfl
  · rcases List.mem_append.1 hu with hu | hu
    · exact hs.ready_step hstep m u hu
    · obtain ⟨-, rfl⟩ := Entry.took.inj (List.mem_singleton.1 hu)
      exact ⟨hready, hready, rfl⟩

lemma marks_of_rewind (h : rewind s m = .ok s') : ∃ p, (marks s).rewind m = .ok (p, marks s') := by
  obtain ⟨back, heq, hmarks⟩ := Savable.marks_rewind s m
  rw [heq] at h
  obtain ⟨⟨p, ms⟩, hm, rfl⟩ := map_eq_ok.1 h
  exact ⟨p, by rw [hm, hmarks]⟩

lemma marks_of_release (h : release s m = .ok s') : (marks s).release m = .ok (marks s') := by
  obtain ⟨kept, heq, hmarks⟩ := Savable.marks_release s m
  rw [heq] at h
  obtain ⟨ms, hm, rfl⟩ := map_eq_ok.1 h
  rw [hm, hmarks]

lemma Recorded.rewound (hs : Recorded log s) (h : rewind s m = .ok s') :
    Recorded (log ++ [.rewound m]) s' := by
  obtain ⟨p, hm⟩ := marks_of_rewind h
  refine hs.popped (.rewind h) (by simp) (hs.ledger.rewound hm) fun m' q hq => ?_
  rw [(MarkStack.rewind_eq_ok.1 hm).2] at hq
  exact (holds_take.1 hq).1

lemma Recorded.released (hs : Recorded log s) (h : release s m = .ok s') :
    Recorded (log ++ [.released m]) s' := by
  have hm := marks_of_release h
  refine hs.popped (.release h) (by simp) (hs.ledger.released hm) fun m' q hq => ?_
  obtain ⟨⟨p, hrewind⟩, -⟩ := MarkStack.release_eq_ok.1 hm
  rw [(MarkStack.rewind_eq_ok.1 hrewind).2] at hq
  exact (holds_take.1 hq).1

lemma recorded_operate (hs : Recorded log s) (c : Call) :
    Recorded (log ++ (operate s c).1) (operate s c).2 := by
  cases c with
  | mark => exact hs.took
  | rewind m =>
    rw [operate]
    cases h : rewind s m with
    | error cause => exact (List.append_nil log).symm ▸ hs
    | ok s' => exact hs.rewound h
  | release m =>
    rw [operate]
    cases h : release s m with
    | error cause => exact (List.append_nil log).symm ▸ hs
    | ok s' => exact hs.released h
  | consume =>
    exact (List.append_nil log).symm ▸ hs.kept (.consume s) (Savable.marks_consume s)
  | seek i => exact (List.append_nil log).symm ▸ hs.kept (.seek s i) (Savable.marks_seek s i)
  | lookahead k =>
    exact (List.append_nil log).symm ▸ hs.kept (.lookahead s k) (Savable.marks_lookahead s k)
  | symbol => exact (List.append_nil log).symm ▸ hs.kept (.symbol s) (Savable.marks_symbol s)

lemma recorded_operated (hs : Recorded log s) (calls : List Call) :
    Recorded (log ++ (operated s calls).1) (operated s calls).2 := by
  induction calls generalizing log s with
  | nil => exact (List.append_nil log).symm ▸ hs
  | cons c rest ih =>
    have h := ih (recorded_operate hs c)
    rw [List.append_assoc] at h
    exact h

lemma alike_of_lands (hs : Ready s) (hs' : Ready s') (hinput : input s' = input s)
    (hspot : spot s' = spot s) : Alike s s' :=
  ⟨hspot, by rw [Lawful.index_eq, Lawful.index_eq, hspot],
    fun k => Savable.lookahead_congr k hs hs' hinput hspot,
    Savable.symbol_congr hs hs' hinput hspot⟩

lemma Recorded.rewind_iff (hs : Recorded log s) (m : Mark) :
    (∃ s', rewind s m = .ok s') ↔ Open log m := by
  rw [hs.ledger.open_iff]
  constructor
  · rintro ⟨s', h⟩
    obtain ⟨p, hm⟩ := marks_of_rewind h
    exact ⟨p, (MarkStack.rewind_eq_ok.1 hm).1⟩
  · rintro ⟨p, hp⟩
    obtain ⟨back, heq, -⟩ := Savable.marks_rewind s m
    rw [heq, MarkStack.rewind_eq_ok.2 ⟨hp, rfl⟩]
    exact ⟨_, rfl⟩

lemma Recorded.release_iff (hs : Recorded log s) (m : Mark) :
    (∃ s', release s m = .ok s') ↔ Innermost log m := by
  rw [hs.ledger.innermost_iff]
  constructor
  · rintro ⟨s', h⟩
    obtain ⟨⟨p, hrewind⟩, hdepth⟩ := MarkStack.release_eq_ok.1 (marks_of_release h)
    exact ⟨⟨p, (MarkStack.rewind_eq_ok.1 hrewind).1⟩, hdepth⟩
  · rintro ⟨⟨p, hp⟩, hdepth⟩
    obtain ⟨kept, heq, -⟩ := Savable.marks_release s m
    rw [heq, MarkStack.release_eq_ok.2 ⟨⟨p, MarkStack.rewind_eq_ok.2 ⟨hp, rfl⟩⟩, hdepth⟩]
    exact ⟨_, rfl⟩

lemma Recorded.restored (hs : Recorded log s) (h : rewind s m = .ok s') :
    ∃ older u, OpenedAt log older m u ∧ Alike u s' ∧
      ∀ m', (∃ s'', rewind s' m' = .ok s'') ↔ Open older m' ∧ Open log m' := by
  obtain ⟨older, u, hopened⟩ := (hs.rewind_iff m).1 ⟨s', h⟩
  obtain ⟨hu, hready, hinput⟩ := hs.ready m u hopened.mem
  obtain ⟨p, ms, hm, hland⟩ := rewind_eq_ok hready h
  have hspot : spot s' = spot u := by
    rw [hland.spot_eq]
    exact (hs.saved m u p hopened.mem (MarkStack.rewind_eq_ok.1 hm).1).symm
  refine ⟨older, u, hopened,
    alike_of_lands hu hland.ready (hland.input_eq.trans hinput) hspot, fun m' => ?_⟩
  rw [(hs.rewound h).rewind_iff, hopened.open_older hs.ledger.increasing]

lemma Recorded.unmoved (hs : Recorded log s) (h : release s m = .ok s') : Alike s s' ∧
    ∀ m', (∃ s'', rewind s' m' = .ok s'') ↔ Open log m' ∧ m' ≠ m := by
  obtain ⟨older, u, hopened, -⟩ := (hs.release_iff m).1 ⟨s', h⟩
  obtain ⟨-, hready, -⟩ := hs.ready m u hopened.mem
  obtain ⟨ms, -, hland⟩ := release_eq_ok hready h
  refine ⟨alike_of_lands hready hland.ready hland.input_eq hland.spot_eq, fun m' => ?_⟩
  rw [(hs.released h).rewind_iff, open_append_released]

lemma savepoints_of_fresh {s₀ : S} (h : Fresh s₀) (calls : List Call) :
    Savepoints (operated s₀ calls).1 (operated s₀ calls).2 := by
  have hs : Recorded (operated s₀ calls).1 (operated s₀ calls).2 :=
    recorded_operated (recorded_fresh h) calls
  refine ⟨hs.rewind_iff, fun m s' => hs.restored, hs.release_iff, fun m s' => hs.unmoved,
    fun m cause => ⟨fun hrefused => ?_, fun hrefused => ?_⟩⟩
  · rw [operate, hrefused]
  · rw [operate, hrefused]

/-! ## The streams -/

instance : Savable CharacterStream where
  marks_fresh h := h.2
  marks_lookahead _ _ := rfl
  marks_symbol _ := rfl
  marks_consume _ := rfl
  marks_seek _ _ := rfl
  mark_eq _ := rfl
  marks_mark _ := rfl
  started_mark _ := trivial
  marks_rewind s _ := ⟨fun (place, marks) => { s with place, marks }, rfl, fun _ _ => rfl⟩
  marks_release s _ := ⟨fun marks => { s with marks }, rfl, fun _ => rfl⟩
  lookahead_congr {s s'} k _ _ hsource hplace := by
    have hsource : s'.source = s.source := hsource
    have hplace : s'.place = s.place := hplace
    show s'.lookahead k = s.lookahead k
    simp only [CharacterStream.lookahead, CharacterStream.codeAt, hsource, hplace]
  symbol_congr {s s'} _ _ hsource hplace := by
    have hsource : s'.source = s.source := hsource
    have hplace : s'.place = s.place := hplace
    show s'.symbol = s.symbol
    simp only [CharacterStream.symbol, hsource, hplace]

instance : Savable NodeStream where
  marks_fresh h := h.2
  marks_lookahead _ _ := rfl
  marks_symbol _ := rfl
  marks_consume s := by
    simp only [Cursor.consume]
    split <;> rfl
  marks_seek _ _ := rfl
  mark_eq _ := rfl
  marks_mark _ := rfl
  started_mark _ := trivial
  marks_rewind s _ := ⟨fun (place, marks) => { s with place, marks }, rfl, fun _ _ => rfl⟩
  marks_release s _ := ⟨fun marks => { s with marks }, rfl, fun _ => rfl⟩
  lookahead_congr {s s'} k _ _ hunits hplace := by
    have hunits : s'.units = s.units := hunits
    have hplace : s'.place = s.place := hplace
    show s'.lookahead k = s.lookahead k
    simp only [NodeStream.lookahead, NodeStream.unitAt, hunits, hplace]
  symbol_congr {s s'} _ _ hunits hplace := by
    have hunits : s'.units = s.units := hunits
    have hplace : s'.place = s.place := hplace
    show s'.symbol = s.symbol
    simp only [NodeStream.symbol, NodeStream.anchor, hunits, hplace]

section

variable {σ : Type} [TokenSource σ]

lemma TokenStream.marks_seek (s : TokenStream σ) (i : Nat) : (s.seek i).marks = s.marks :=
  (s.movesTo_seek i).marks_eq

lemma TokenStream.marks_start (s : TokenStream σ) : s.start.marks = s.marks := by
  rw [TokenStream.start_eq]
  split
  · rfl
  · exact marks_seek s 0

lemma TokenStream.marks_tokenAt (s : TokenStream σ) (k : Int) : (s.tokenAt k).2.marks = s.marks :=
  (TokenStream.keeps_of_fill (s.extends_tokenAt k).fill_eq).2.2.2.trans (marks_start s)

instance : Savable (TokenStream σ) where
  marks_fresh := by
    rintro _ ⟨source, channel, name, rfl⟩
    rfl
  marks_lookahead s k := TokenStream.marks_tokenAt s k
  marks_symbol s := TokenStream.marks_tokenAt s 1
  marks_consume s := by
    show s.consume.marks = s.marks
    rw [← TokenStream.consume_start, TokenStream.consume_eq s.started_start]
    split
    · exact (TokenStream.marks_seek _ _).trans (TokenStream.marks_start s)
    · exact TokenStream.marks_start s
  marks_seek s i := TokenStream.marks_seek s i
  mark_eq s :=
    congrArg (fun ms : MarkStack Nat => (ms.push s.start.place).1) (TokenStream.marks_start s)
  marks_mark s := congrArg (fun ms : MarkStack Nat => (ms.push s.start.place).2)
    (TokenStream.marks_start s)
  started_mark s := s.started_start
  marks_rewind s m := ⟨_, s.rewind_eq m, fun p ms => TokenStream.marks_seek _ p⟩
  marks_release s m := ⟨_, s.release_eq m, fun _ => rfl⟩
  lookahead_congr k hs hs' hinput hplace := by
    obtain ⟨hbuffer, hchannel⟩ := Prod.mk.inj hinput
    exact congrArg (fun t : Option Token => (t.map Token.type).getD .invalid)
      (TokenStream.tokenAt_congr hs hs' hbuffer hchannel hplace k)
  symbol_congr {s s'} hs hs' hinput hplace := by
    obtain ⟨hbuffer, -⟩ := Prod.mk.inj hinput
    have hplace : s'.place = s.place := hplace
    obtain ⟨t, ht, hget⟩ := TokenStream.symbol_eq hs
    obtain ⟨t', ht', hget'⟩ := TokenStream.symbol_eq hs'
    rw [hbuffer, hplace, hget] at hget'
    show s'.symbol.1 = s.symbol.1
    rw [ht, ht', Option.some.inj hget']

end

/-! ## Main result -/

/-- **Marks are savepoints on every stream**, be it of characters, of tokens or of the nodes of
a tree, whatever calls were made of it since it was fresh, refused ones included.  The log of
the calls is computed along with them (`operated`).

A rewind succeeds if and only if its mark was taken and not popped since; it shows the client
what it saw when the mark was taken, and leaves open what was open then and still is.  A release
succeeds if and only if its mark is the innermost open one; it shows the client what it saw just
before.  A refused call changes nothing. -/
theorem savepoints_of_calls :
    (∀ (text name : String) (calls : List Call),
      Savepoints (operated (CharacterStream.ofString text name) calls).1
        (operated (CharacterStream.ofString text name) calls).2) ∧
    (∀ (σ : Type) [TokenSource σ] (source : σ) (channel : Channel) (name : String)
      (calls : List Call),
      Savepoints (operated (TokenStream.ofSource source channel name) calls).1
        (operated (TokenStream.ofSource source channel name) calls).2) ∧
    (∀ (tree : Tree) (root : NodeId) (name : String) (calls : List Call),
      Savepoints (operated (NodeStream.ofTree tree root name) calls).1
        (operated (NodeStream.ofTree tree root name) calls).2) := by
  refine ⟨fun text name calls => ?_, fun σ _ source channel name calls => ?_,
    fun tree root name calls => ?_⟩
  · have hfresh : Fresh (CharacterStream.ofString text name) := ⟨rfl, rfl⟩
    exact savepoints_of_fresh hfresh calls
  · have hfresh : Fresh (TokenStream.ofSource source channel name) :=
      ⟨source, channel, name, rfl⟩
    exact savepoints_of_fresh hfresh calls
  · have hfresh : Fresh (NodeStream.ofTree tree root name) := ⟨rfl, rfl⟩
    exact savepoints_of_fresh hfresh calls

/-- A popped mark stays rejected, although a newer one has its depth. -/
example : (rewind (operated (CharacterStream.ofString "ab" "text")
    [.mark, .consume, .rewind ⟨0, 0⟩, .mark]).2 ⟨0, 0⟩).isOk = false := by
  decide +kernel

end Cursor

end Lookahead
