import Lookahead.Lexer.Source
import Lookahead.Proofs.Logged
import Lookahead.Proofs.Recognizer.Ending
import Lookahead.Proofs.Recognizer.Speculation
import Lookahead.Proofs.Stream.Characters

/-!
# The work of a token rule

A rule may do with a lexer whatever the operations allow.  What can be said of the token that it
makes depends on three of them: `beginToken` puts the start of the draft at the cursor, `setText`
gives the token another text than what was matched, and `emit` makes a token of what lies between
the start and the cursor.  These are the *milestones* of the work.  All that is done between two of
them is done *aside*, and a log of milestones tells how one lexer comes from another (`Drafts`).
Going through the log again gives a *sketch* of the draft: the text that was set, and the lexer that
made the token if one was made ahead of time (`Drafts.sketched`).

Work that is called at one place and ends at another *climbs* if the places at which it begins and
makes tokens lie between the two, in order (`Climbs`).  In between it may move the cursor as it
likes, and take back what it likes.  Then the draft of every token that is made on the way starts
between the place of the call and the cursor (`Drafting.drafts`), so that the token covers some
characters of the text (`Drafting.covers`).
-/

namespace Lookahead

open Text

/-- The token covers some characters of a text, and is where the text in front of them leads. -/
def Token.Covers (t : Token) (text chars : List Char) : Prop :=
  ∃ before, before ++ chars <+: text ∧
    t.span = ⟨byteLength before, byteLength before + byteLength chars⟩ ∧
    t.position = Position.start.past before

namespace Lexer

open Cursor

/-! ## Milestones -/

/-- A token is begun or made, or its text set, by the lexer as it is just before. -/
inductive Milestone where
  | begins (l : Lexer)
  | sets (l : Lexer) (text : String)
  | makes (l : Lexer)

namespace Milestone

/-- The lexer in front of the milestone. -/
def lexer : Milestone → Lexer
  | begins l | sets l _ | makes l => l

/-- The lexer just after the milestone. -/
def next : Milestone → Lexer
  | begins l => l.begun
  | sets l text => { l with own := { l.own with text := some text } }
  | makes l => { l with own := { l.own with emitted := some l.token } }

end Milestone

/-- Work that neither begins nor makes a token, sets no text, and reports nothing. -/
structure Aside (l l' : Lexer) : Prop where
  reaches : Reaches l.input l'.input
  hushed : l.state.Hushed l'.state
  start_eq : l'.own.start = l.own.start
  text_eq : l'.own.text = l.own.text
  emitted_eq : l'.own.emitted = l.own.emitted

instance : IsPreorder Lexer Aside where
  refl l := ⟨Reaches.refl l.input, .refl l.state, rfl, rfl, rfl⟩
  trans _ _ _ h h' := ⟨h.reaches.trans h'.reaches, h.hushed.trans h'.hushed,
    h'.start_eq.trans h.start_eq, h'.text_eq.trans h.text_eq, h'.emitted_eq.trans h.emitted_eq⟩

/-- One lexer comes from another by these milestones, and work aside around them. -/
def Drafts : Lexer → List Milestone → Lexer → Prop
  | l, [], l' => Aside l l'
  | l, m :: rest, l' => Aside l m.lexer ∧ Drafts m.next rest l'

lemma Aside.drafts {l m l' : Lexer} {log : List Milestone} (h : Aside l m) (h' : Drafts m log l') :
    Drafts l log l' := by
  cases log with
  | nil => exact trans_of Aside h h'
  | cons n rest => exact ⟨trans_of Aside h h'.1, h'.2⟩

lemma Drafts.trans {l m l' : Lexer} {log log' : List Milestone} (h : Drafts l log m)
    (h' : Drafts m log' l') : Drafts l (log ++ log') l' := by
  induction log generalizing l with
  | nil => exact h.drafts h'
  | cons n rest ih => exact ⟨h.1, ih h.2⟩

instance : Logged.Composes Drafts where
  refl l := refl_of Aside l
  trans := Drafts.trans

/-- A milestone by itself. -/
lemma drafts_milestone (m : Milestone) : Drafts m.lexer [m] m.next :=
  ⟨refl_of Aside m.lexer, refl_of Aside m.next⟩

lemma Drafts.hushed {l l' : Lexer} {log : List Milestone} (h : Drafts l log l') :
    l.state.Hushed l'.state := by
  induction log generalizing l with
  | nil => exact Aside.hushed h
  | cons m rest ih =>
    have hnext : m.next.state = m.lexer.state := by cases m <;> rfl
    exact h.1.hushed.trans (hnext ▸ ih h.2)

/-! ## Sketches -/

/-- A lexer that makes a token, and the text that was set for the token, if any was. -/
structure Maker where
  lexer : Lexer
  text : Option String

/-- What a log tells of the draft: the text that was set since the token was begun, and what has
made the token ahead of time. -/
structure Sketch where
  text : Option String
  made : Option Maker

namespace Sketch

/-- The draft of a token that has just been begun. -/
def blank : Sketch := ⟨none, none⟩

/-- The sketch after a milestone. A beginning forgets what was said before it. -/
def add (d : Sketch) : Milestone → Sketch
  | .begins _ => blank
  | .sets _ text => { d with text := some text }
  | .makes l => { d with made := some ⟨l, d.text⟩ }

/-- What makes the token if the work ends with this lexer: the last making of a token ahead of time,
or else the end. -/
def maker (d : Sketch) (l : Lexer) : Maker := d.made.getD ⟨l, d.text⟩

/-- The lexer has the draft that is sketched: its text, and the token that was made ahead of
time. -/
structure Shows (d : Sketch) (l : Lexer) : Prop where
  text_eq : l.own.text = d.text
  emitted_eq : l.own.emitted = d.made.map fun m => m.lexer.token
  made_text : ∀ m ∈ d.made, m.lexer.own.text = m.text

lemma shows_blank (l : Lexer) : blank.Shows l.begun := ⟨rfl, rfl, by simp [blank]⟩

lemma Shows.aside {d : Sketch} {l l' : Lexer} (hd : d.Shows l) (h : Aside l l') : d.Shows l' where
  text_eq := h.text_eq.trans hd.text_eq
  emitted_eq := h.emitted_eq.trans hd.emitted_eq
  made_text := hd.made_text

lemma Shows.add {d : Sketch} {m : Milestone} (hd : d.Shows m.lexer) : (d.add m).Shows m.next := by
  obtain ⟨htext, hemitted, hmade⟩ := hd
  cases m with
  | begins l => exact shows_blank l
  | sets l text => exact ⟨rfl, hemitted, hmade⟩
  | makes l =>
    refine ⟨htext, rfl, fun m hm => ?_⟩
    obtain rfl : Maker.mk l d.text = m := Option.some.inj hm
    exact htext

variable {d : Sketch} {l : Lexer}

lemma Shows.maker_text (hd : d.Shows l) : (d.maker l).lexer.own.text = (d.maker l).text := by
  unfold maker
  cases hmade : d.made with
  | none => exact hd.text_eq
  | some m => exact hd.made_text m hmade

lemma Shows.finished {t : Token} (hd : d.Shows l) (ht : l.finished = some t) :
    t = (d.maker l).lexer.token := by
  unfold Lexer.finished at ht
  split at ht
  · cases ht
  · rw [← Option.some.inj ht, hd.emitted_eq, maker]
    cases d.made <;> rfl

end Sketch

/-- **The log of the work sketches the draft.** -/
lemma Drafts.sketched {l l' : Lexer} {log : List Milestone} {d : Sketch} (h : Drafts l log l')
    (hd : d.Shows l) : (log.foldl Sketch.add d).Shows l' := by
  induction log generalizing l d with
  | nil => exact hd.aside h
  | cons m rest ih => exact ih h.2 (hd.aside h.1).add

/-- What a log says has made the token did so at one of the milestones. -/
lemma Sketch.made_mem {d : Sketch} {log : List Milestone} {m : Maker}
    (h : m ∈ (log.foldl Sketch.add d).made) : m ∈ d.made ∨ .makes m.lexer ∈ log := by
  induction log generalizing d with
  | nil => exact .inl h
  | cons n rest ih =>
    rcases ih h with hadded | hrest
    · cases n with
      | begins l => cases hadded
      | sets l text => exact .inl hadded
      | makes l =>
        obtain rfl : Maker.mk l d.text = m := Option.some.inj hadded
        exact .inr List.mem_cons_self
    · exact .inr (List.mem_cons_of_mem _ hrest)

lemma Sketch.maker_blank (log : List Milestone) (l : Lexer) :
    ((log.foldl Sketch.add .blank).maker l).lexer = l ∨
      .makes ((log.foldl Sketch.add .blank).maker l).lexer ∈ log := by
  unfold maker
  cases hmade : (log.foldl Sketch.add .blank).made with
  | none => exact .inl rfl
  | some m => exact .inr ((made_mem (Option.mem_def.2 hmade)).resolve_left (by simp [blank]))

/-! ## The draft -/

/-- From one place to another, the places at which tokens are begun and made do not go back. -/
def Climbs : Nat → List Milestone → Nat → Prop
  | i, [], j => i ≤ j
  | i, .sets _ _ :: rest, j => Climbs i rest j
  | i, .begins l :: rest, j => i ≤ l.input.place.index ∧ Climbs l.input.place.index rest j
  | i, .makes l :: rest, j => i ≤ l.input.place.index ∧ Climbs l.input.place.index rest j

lemma Climbs.le {i j : Nat} {log : List Milestone} (h : Climbs i log j) : i ≤ j := by
  induction log generalizing i with
  | nil => exact h
  | cons m rest ih =>
    cases m with
    | sets l text => exact ih h
    | begins l => exact Nat.le_trans h.1 (ih h.2)
    | makes l => exact Nat.le_trans h.1 (ih h.2)

/-- A token is made on the way. -/
lemma Climbs.made_le {i j : Nat} {l : Lexer} {log : List Milestone} (h : Climbs i log j)
    (hl : .makes l ∈ log) : l.input.place.index ≤ j := by
  induction log generalizing i with
  | nil => cases hl
  | cons m rest ih =>
    rcases List.mem_cons.1 hl with rfl | hrest
    · exact h.2.le
    · cases m with
      | sets k text => exact ih h hrest
      | begins k => exact ih h.2 hrest
      | makes k => exact ih h.2 hrest

/-- A lexer at work on a text, with a draft that starts between two places. -/
structure Drafting (source : Source) (i j : Nat) (l : Lexer) : Prop where
  source_eq : l.input.source = source
  accurate : l.input.Accurate
  start : CharacterStream.Exact source l.own.start
  le_start : i ≤ l.own.start.index
  start_le : l.own.start.index ≤ j

variable {source : Source} {i j : Nat} {l l' : Lexer} {log : List Milestone}

lemma Drafting.place_le (h : Drafting source i j l) : l.input.place.index ≤ source.length :=
  h.source_eq ▸ h.accurate.place.index_le

lemma Drafting.mono {k : Nat} (h : Drafting source i j l) (hle : j ≤ k) : Drafting source i k l :=
  { h with start_le := Nat.le_trans h.start_le hle }

lemma Drafting.aside (hl : Drafting source i j l) (h : Aside l l') : Drafting source i j l' := by
  obtain ⟨haccurate, hsource⟩ := hl.accurate.reaches h.reaches
  constructor
  case source_eq => exact hsource.trans hl.source_eq
  case accurate => exact haccurate
  case start => exact h.start_eq ▸ hl.start
  case le_start => exact h.start_eq ▸ hl.le_start
  case start_le => exact h.start_eq ▸ hl.start_le

/-- A draft that is begun here starts at the cursor. -/
lemma Drafting.begun (hl : Drafting source i j l) (hle : i ≤ l.input.place.index) :
    Drafting source i l.input.place.index l.begun where
  source_eq := hl.source_eq
  accurate := hl.accurate
  start := hl.source_eq ▸ hl.accurate.place
  le_start := hle
  start_le := Nat.le_refl _

/-- **Work that climbs keeps the draft between the place of the call and the cursor**, wherever a
token is made, and at its end. -/
lemma Drafting.drafts {k : Nat} (hl : Drafting source i j l) (h : Drafts l log l')
    (hclimbs : Climbs j log k) : Drafting source i k l' ∧
      ∀ m, .makes m ∈ log → Drafting source i m.input.place.index m := by
  induction log generalizing j l with
  | nil => exact ⟨(hl.aside h).mono hclimbs, by simp⟩
  | cons m rest ih =>
    have hm : Drafting source i j m.lexer := hl.aside h.1
    cases m with
    | begins m =>
      have hle : i ≤ m.input.place.index :=
        Nat.le_trans hm.le_start (Nat.le_trans hm.start_le hclimbs.1)
      obtain ⟨hl', hrest⟩ := ih (hm.begun hle) h.2 hclimbs.2
      exact ⟨hl', by simpa using hrest⟩
    | sets m text =>
      have hnext : Drafting source i j (Milestone.sets m text).next := { hm with }
      obtain ⟨hl', hrest⟩ := ih hnext h.2 hclimbs
      exact ⟨hl', by simpa using hrest⟩
    | makes m =>
      have hmade : Drafting source i m.input.place.index m := hm.mono hclimbs.1
      have hnext : Drafting source i m.input.place.index (Milestone.makes m).next :=
        { hmade with }
      obtain ⟨hl', hrest⟩ := ih hnext h.2 hclimbs.2
      exact ⟨hl', by simpa using ⟨hmade, hrest⟩⟩

/-! ## The token -/

lemma matchedText_eq (l : Lexer) :
    l.matchedText = String.ofList ((l.input.source.chars.toList.drop l.own.start.index).take
      (l.input.place.index - l.own.start.index)) := by
  unfold matchedText
  split
  · rename_i hle
    rw [Nat.sub_eq_zero_of_le hle, List.take_zero]
  · rename_i hlt
    rw [Source.slice_eq, Nat.sub_add_cancel (by omega)]

/-- The token of a draft covers the characters from its start to the cursor, and has them as its
text unless another one was set. -/
lemma Drafting.covers (hl : Drafting source i l.input.place.index l) :
    ∃ chars, l.token.Covers source.chars.toList chars ∧
      l.token.text = l.own.text.getD (String.ofList chars) := by
  obtain ⟨chars, hchars⟩ : ∃ chars, chars = (source.chars.toList.drop l.own.start.index).take
      (l.input.place.index - l.own.start.index) := ⟨_, rfl⟩
  have htake : source.chars.toList.take l.own.start.index ++ chars =
      source.chars.toList.take l.input.place.index := by
    rw [hchars, ← List.take_add, Nat.add_sub_cancel' hl.start_le]
  refine ⟨chars, ⟨source.chars.toList.take l.own.start.index, ?_, ?_, ?_⟩, ?_⟩
  · rw [htake]
    exact List.take_prefix _ _
  · rw [← byteLength_append, htake, ← Source.byteOffset_eq hl.start.index_le,
      ← Source.byteOffset_eq hl.place_le, ← hl.source_eq]
    rfl
  · show l.own.start.position = _
    rw [hl.start.position_eq, Source.positionAt_eq hl.start.index_le]
  · show l.text = _
    rw [text, matchedText_eq, hl.source_eq, hchars]

end Lexer

end Lookahead
