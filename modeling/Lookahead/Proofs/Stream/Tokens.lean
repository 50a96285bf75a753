import Lookahead.Proofs.Stream.Lawful
import Lookahead.Stream.Tokens

/-!
# Token streams are lawful

A token stream has read only a part of its input, and how large a part depends on everything that
was asked of it so far.  What it is about to read does not: `fill` pulls the rest, and no operation
changes what `fill` comes to, but for the place of the cursor and the marks (`fill_skipFrom`,
`fill_seek`).  So the view of a token stream is that of the filled one.

All moves are seeks (`start_eq`, `consume_eq`), and a seek goes to the first token from its target
on that the stream is tuned to, which `firstFrom` finds in the filled buffer.
-/

namespace Lookahead.TokenStream

open Cursor

variable {σ : Type} [TokenSource σ] {s s' : TokenStream σ}

/-! ## What is still to be read -/

lemma fill_of_exhausted (h : s.exhausted = true) : s.fill = s := by
  rw [fill, if_neg (by simp [h])]

lemma fill_pull (s : TokenStream σ) : s.pull.fill = s.fill := by
  cases h : s.exhausted with
  | true => rw [pull, if_pos h]
  | false => rw [fill.eq_def s, if_pos h]

lemma fill_fillTo (s : TokenStream σ) (i : Nat) : (s.fillTo i).fill = s.fill := by
  fun_induction fillTo s i with
  | case1 s _ ih => rw [ih, fill_pull]
  | case2 s _ => rfl

lemma exhausted_fill (s : TokenStream σ) : s.fill.exhausted = true := by
  fun_induction fill s with
  | case1 s _ ih => exact ih
  | case2 s h => simpa using h

lemma fill_fill (s : TokenStream σ) : s.fill.fill = s.fill :=
  fill_of_exhausted (exhausted_fill s)

/-- Pulling looks neither at the cursor nor at the marks. -/
lemma pull_with (s : TokenStream σ) (place : Nat) (started : Bool) (marks : MarkStack Nat) :
    ({ s with place, started, marks } : TokenStream σ).pull =
      { s.pull with place, started, marks } := by
  simp only [pull, closingToken, receive]
  split
  · rfl
  · split <;> rfl

lemma fill_with (s : TokenStream σ) (place : Nat) (started : Bool) (marks : MarkStack Nat) :
    ({ s with place, started, marks } : TokenStream σ).fill =
      { s.fill with place, started, marks } := by
  fun_induction fill s with
  | case1 s h ih =>
    rw [fill, if_pos h, pull_with, ih]
  | case2 s h => rw [fill, if_neg h]

lemma fill_keeps (s : TokenStream σ) :
    s.fill.place = s.place ∧ s.fill.channel = s.channel ∧ s.fill.started = s.started ∧
      s.fill.marks = s.marks := by
  fun_induction fill s with
  | case1 s _ ih =>
    obtain ⟨hplace, hchannel, hstarted, hmarks⟩ := ih
    have hpull : s.pull.place = s.place ∧ s.pull.channel = s.channel ∧
        s.pull.started = s.started ∧ s.pull.marks = s.marks := by
      simp only [pull, receive]
      split
      · simp
      · split <;> simp
    exact ⟨hplace.trans hpull.1, hchannel.trans hpull.2.1, hstarted.trans hpull.2.2.1,
      hmarks.trans hpull.2.2.2⟩
  | case2 s _ => simp

/-- Streams that come to the same are at the same place, with the same marks. -/
lemma keeps_of_fill (h : s'.fill = s.fill) :
    s'.place = s.place ∧ s'.channel = s.channel ∧ s'.started = s.started ∧ s'.marks = s.marks := by
  obtain ⟨hplace, hchannel, hstarted, hmarks⟩ := fill_keeps s
  obtain ⟨hplace', hchannel', hstarted', hmarks'⟩ := fill_keeps s'
  rw [h] at hplace' hchannel' hstarted' hmarks'
  exact ⟨hplace'.symm.trans hplace, hchannel'.symm.trans hchannel,
    hstarted'.symm.trans hstarted, hmarks'.symm.trans hmarks⟩

/-! ## What reading pulls

Whatever is read, the stream does nothing but pull. -/

section

variable {R : TokenStream σ → TokenStream σ → Prop} [IsPreorder (TokenStream σ) R]
  (hpull : ∀ s : TokenStream σ, s.exhausted = false → R s s.pull)

include hpull

lemma fillTo_within (s : TokenStream σ) (i : Nat) : R s (s.fillTo i) := by
  fun_induction fillTo s i with
  | case1 s h ih => exact trans_of R (hpull s h.2) ih
  | case2 s _ => exact refl_of R s

lemma fill_within (s : TokenStream σ) : R s s.fill := by
  fun_induction fill s with
  | case1 s h ih => exact trans_of R (hpull s h) ih
  | case2 s _ => exact refl_of R s

lemma skipFrom_within (s : TokenStream σ) (i : Nat) : R s (s.skipFrom i).2 := by
  fun_induction skipFrom s i with
  | case1 s i filled t _ _ ih => exact trans_of R (fillTo_within hpull s i) ih
  | case2 s i filled t _ _ => exact fillTo_within hpull s i
  | case3 s i filled _ => exact fillTo_within hpull s i

lemma ahead_within (s : TokenStream σ) (steps i : Nat) : R s (s.ahead steps i).2 := by
  induction steps generalizing s i with
  | zero => exact refl_of R s
  | succ steps ih =>
    rw [ahead]
    split
    · exact refl_of R s
    · exact trans_of R (skipFrom_within hpull s (i + 1)) (ih _ _)

end

/-! ## The buffer -/

/-- The end of input is buffered last and ends the buffer. -/
structure Sound (s : TokenStream σ) : Prop where
  last_of_isEof : ∀ i t, s.buffer[i]? = some t → t.isEof = true →
    i + 1 = s.buffer.size ∧ s.exhausted = true
  isEof_of_exhausted : s.exhausted = true → ∃ t, s.buffer.back? = some t ∧ t.isEof = true

/-- More of the same input is buffered. -/
structure Extends (s s' : TokenStream σ) : Prop where
  fill_eq : s'.fill = s.fill
  size_le : s.buffer.size ≤ s'.buffer.size
  sound : s.Sound → s'.Sound

omit [TokenSource σ] in
lemma receive_buffer (s : TokenStream σ) (t : Token) :
    ∃ t' : Token, t'.isEof = t.isEof ∧ (s.receive t).buffer = s.buffer.push t' ∧
      (s.receive t).exhausted = (s.exhausted || t.isEof) :=
  ⟨{ t with
      channel := if t.isEof then s.channel else t.channel
      index := some s.buffer.size }, rfl, rfl, rfl⟩

/-- A pull puts one token at the end, and the buffer is complete if and only if that was the end of
input. -/
lemma pull_buffer (h : s.exhausted = false) :
    ∃ t, s.pull.buffer = s.buffer.push t ∧ s.pull.exhausted = t.isEof := by
  have hreceive (source : σ) (u : Token) : ∃ t : Token,
      (({ s with source } : TokenStream σ).receive u).buffer = s.buffer.push t ∧
        (({ s with source } : TokenStream σ).receive u).exhausted = t.isEof := by
    obtain ⟨t, heof, hbuffer, hexhausted⟩ := receive_buffer { s with source } u
    exact ⟨t, hbuffer, by rw [hexhausted, heof]; simp [h]⟩
  rw [pull, if_neg (by simp [h])]
  split
  · exact hreceive _ _
  · exact hreceive _ _

lemma sound_pull (h : s.exhausted = false) (hs : s.Sound) : s.pull.Sound := by
  obtain ⟨t, hbuffer, hexhausted⟩ := pull_buffer h
  constructor
  · intro i u hu heof
    rw [hbuffer, Array.getElem?_push] at hu
    split at hu
    · obtain rfl := Option.some.inj hu
      rename_i hi
      rw [hbuffer, hexhausted]
      exact ⟨by simp [hi], heof⟩
    · have hstop := (hs.last_of_isEof i u hu heof).2
      rw [h] at hstop
      cases hstop
  · intro hdone
    rw [hexhausted] at hdone
    exact ⟨t, by rw [hbuffer]; simp, hdone⟩

namespace Extends

lemma refl (s : TokenStream σ) : s.Extends s := ⟨rfl, Nat.le_refl _, id⟩

lemma trans {t : TokenStream σ} (h : s.Extends s') (h' : s'.Extends t) : s.Extends t :=
  ⟨h'.fill_eq.trans h.fill_eq, Nat.le_trans h.size_le h'.size_le, h'.sound ∘ h.sound⟩

lemma pull (h : s.exhausted = false) : s.Extends s.pull := by
  obtain ⟨t, hbuffer, -⟩ := pull_buffer h
  exact ⟨fill_pull s, by rw [hbuffer]; simp, sound_pull h⟩

instance : IsPreorder (TokenStream σ) Extends where
  refl := refl
  trans _ _ _ := trans

lemma fillTo (s : TokenStream σ) (i : Nat) : s.Extends (s.fillTo i) :=
  fillTo_within (fun _ => pull) s i

lemma fill (s : TokenStream σ) : s.Extends s.fill := fill_within (fun _ => pull) s

lemma skipFrom (s : TokenStream σ) (i : Nat) : s.Extends (s.skipFrom i).2 :=
  skipFrom_within (fun _ => pull) s i

lemma ahead (s : TokenStream σ) (steps i : Nat) : s.Extends (s.ahead steps i).2 :=
  ahead_within (fun _ => pull) s steps i

end Extends

/-- What is buffered stays as it is. -/
lemma getElem?_fill {i : Nat} (h : i < s.buffer.size) : s.fill.buffer[i]? = s.buffer[i]? := by
  fun_induction fill s with
  | case1 s hmore ih =>
    obtain ⟨t, hbuffer, -⟩ := pull_buffer hmore
    have hlt : i < s.pull.buffer.size := by
      rw [hbuffer, Array.size_push]
      omega
    rw [ih hlt, hbuffer, Array.getElem?_push_lt h, Array.getElem?_eq_getElem h]
  | case2 s _ => rfl

/-- A place that was asked for is buffered as soon as the whole input has it. -/
lemma fillTo_buffered (s : TokenStream σ) (i : Nat) :
    i < (s.fillTo i).buffer.size ∨ (s.fillTo i).exhausted = true := by
  fun_induction fillTo s i with
  | case1 s _ ih => exact ih
  | case2 s h =>
    by_cases hsize : s.buffer.size ≤ i
    · right
      simpa [hsize] using h
    · left
      exact Nat.lt_of_not_le hsize

lemma getElem?_fillTo (s : TokenStream σ) (i : Nat) :
    (s.fillTo i).buffer[i]? = s.fill.buffer[i]? := by
  rw [← fill_fillTo s i]
  rcases fillTo_buffered s i with h | h
  · rw [getElem?_fill h]
  · rw [fill_of_exhausted h]

/-! ## Tuning -/

/-- The first place from `i` on that holds a token of the channel or the end of input; past the end
it is the last place. -/
def firstFrom (tokens : Array Token) (channel : Channel) (i : Nat) : Nat :=
  match _h : tokens[i]? with
  | some t => if t.channel ≠ channel ∧ t.isEof = false then firstFrom tokens channel (i + 1) else i
  | none => tokens.size - 1
termination_by tokens.size - i
decreasing_by
  have hi : i < tokens.size := (Array.getElem?_eq_some_iff.1 _h).1
  omega

/-- A token that the cursor can stand on: one of the channel, or the end of input. -/
def Stands (tokens : Array Token) (channel : Channel) (i : Nat) : Prop :=
  ∃ t, tokens[i]? = some t ∧ (t.channel = channel ∨ t.isEof = true)

lemma firstFrom_of_stands {tokens : Array Token} {channel : Channel} {i : Nat}
    (h : Stands tokens channel i) : firstFrom tokens channel i = i := by
  obtain ⟨t, ht, hfits⟩ := h
  rw [firstFrom]
  split
  · rename_i u hu
    obtain rfl := Option.some.inj (ht.symm.trans hu)
    rw [if_neg]
    rintro ⟨hchannel, heof⟩
    rcases hfits with hfits | hfits
    · exact hchannel hfits
    · rw [hfits] at heof
      cases heof
  · rename_i hnone
    rw [ht] at hnone
    cases hnone

/-- In a complete buffer the search finds something, if only the end of input. -/
lemma stands_firstFrom {tokens : Array Token} {channel : Channel}
    (hend : ∃ t, tokens.back? = some t ∧ t.isEof = true) (i : Nat) :
    Stands tokens channel (firstFrom tokens channel i) := by
  fun_induction firstFrom tokens channel i with
  | case1 i t _ _ ih => exact ih
  | case2 i t ht hfits =>
    refine ⟨t, ht, ?_⟩
    by_cases hchannel : t.channel = channel
    · exact .inl hchannel
    · exact .inr (by simpa [hchannel] using hfits)
  | case3 i hnone =>
    obtain ⟨t, ht, heof⟩ := hend
    exact ⟨t, by rw [← ht, Array.back?_eq_getElem?], .inr heof⟩

lemma fill_skipFrom (s : TokenStream σ) (i : Nat) : (s.skipFrom i).2.fill = s.fill :=
  (Extends.skipFrom s i).fill_eq

lemma skipFrom_fst (s : TokenStream σ) (i : Nat) :
    (s.skipFrom i).1 = firstFrom s.fill.buffer s.channel i := by
  fun_induction skipFrom s i with
  | case1 s i filled t ht hoff ih =>
    have hfill : filled.fill = s.fill := fill_fillTo s i
    have hchannel : filled.channel = s.channel := (keeps_of_fill hfill).2.1
    have hget : s.fill.buffer[i]? = some t := by rw [← getElem?_fillTo]; exact ht
    rw [ih, hfill, hchannel, firstFrom.eq_def _ _ i]
    split
    · rename_i u hu
      obtain rfl := Option.some.inj (hget.symm.trans hu)
      rw [if_pos (hchannel ▸ hoff)]
    · rename_i hnone
      rw [hget] at hnone
      cases hnone
  | case2 s i filled t ht hon =>
    have hchannel : filled.channel = s.channel := (keeps_of_fill (fill_fillTo s i)).2.1
    have hget : s.fill.buffer[i]? = some t := by rw [← getElem?_fillTo]; exact ht
    refine (firstFrom_of_stands ⟨t, hget, ?_⟩).symm
    by_cases hc : t.channel = s.channel
    · exact .inl hc
    · exact .inr (by simpa [hchannel, hc] using hon)
  | case3 s i filled hnone =>
    -- a place that the filled stream lacks is past the end of input
    have hexhausted : filled.exhausted = true := by
      rcases fillTo_buffered s i with h | h
      · exact absurd (Array.getElem?_eq_none_iff.1 hnone) (Nat.not_le.2 h)
      · exact h
    have hfill : s.fill = filled := by
      rw [← fill_fillTo s i]
      exact fill_of_exhausted hexhausted
    rw [hfill, firstFrom]
    split
    · rename_i u hu
      rw [hnone] at hu
      cases hu
    · rfl

lemma skipFrom_lt (hs : s.Sound) (i : Nat) : (s.skipFrom i).1 < (s.skipFrom i).2.buffer.size := by
  fun_induction skipFrom s i with
  | case1 s i filled t _ _ ih => exact ih ((Extends.fillTo s i).sound hs)
  | case2 s i filled t ht _ => exact (Array.getElem?_eq_some_iff.1 ht).1
  | case3 s i filled hnone =>
    have hsound : filled.Sound := (Extends.fillTo s i).sound hs
    have hexhausted : filled.exhausted = true := by
      rcases fillTo_buffered s i with h | h
      · exact absurd (Array.getElem?_eq_none_iff.1 hnone) (Nat.not_le.2 h)
      · exact h
    obtain ⟨t, ht, -⟩ := hsound.isEof_of_exhausted hexhausted
    rw [Array.back?_eq_getElem?] at ht
    exact (Array.getElem?_eq_some_iff.1 ht).1

/-! ## Moving -/

/-- The stream reads what `s` reads, from the first token from place `i` on. -/
structure MovesTo (s s' : TokenStream σ) (i : Nat) : Prop where
  fill_buffer : s'.fill.buffer = s.fill.buffer
  channel_eq : s'.channel = s.channel
  place_eq : s'.place = firstFrom s.fill.buffer s.channel i
  started : s'.started = true
  marks_eq : s'.marks = s.marks
  sound : s.Sound → s'.Sound
  buffered : s.Sound → s'.place < s'.buffer.size

lemma movesTo_seek (s : TokenStream σ) (i : Nat) : s.MovesTo (s.seek i) i := by
  obtain ⟨u, hu⟩ : ∃ u : TokenStream σ, u = { s with started := true } := ⟨_, rfl⟩
  have hseek : s.seek i = { (u.skipFrom i).2 with place := (u.skipFrom i).1 } := by rw [hu]; rfl
  have hbuffer : u.fill.buffer = s.fill.buffer := by
    have h := congrArg buffer (fill_with s s.place true s.marks)
    rw [hu]
    exact h
  have hsound (hs : s.Sound) : u.Sound := by
    rw [hu]
    exact ⟨hs.last_of_isEof, hs.isEof_of_exhausted⟩
  have hext := Extends.skipFrom u i
  obtain ⟨-, hchannel, hstarted, hmarks⟩ := keeps_of_fill hext.fill_eq
  rw [hseek]
  constructor
  · have h := congrArg buffer (fill_with (u.skipFrom i).2 (u.skipFrom i).1
      (u.skipFrom i).2.started (u.skipFrom i).2.marks)
    exact h.trans ((congrArg buffer hext.fill_eq).trans hbuffer)
  · exact hchannel.trans (by rw [hu])
  · have h := skipFrom_fst u i
    rw [hbuffer, show u.channel = s.channel by rw [hu]] at h
    exact h
  · exact hstarted.trans (by rw [hu])
  · exact hmarks.trans (by rw [hu])
  · intro hs
    have h := hext.sound (hsound hs)
    exact ⟨h.last_of_isEof, h.isEof_of_exhausted⟩
  · intro hs
    exact skipFrom_lt (hsound hs) i

/-- The cursor of a fresh stream is put where a move to its front would put it. -/
lemma start_eq (s : TokenStream σ) : s.start = if s.started then s else s.seek 0 := rfl

lemma start_of_started (h : s.started = true) : s.start = s := by rw [start_eq, if_pos h]

lemma started_start (s : TokenStream σ) : s.start.started = true := by
  rw [start_eq]
  split
  · assumption
  · exact (movesTo_seek s 0).started

lemma start_start (s : TokenStream σ) : s.start.start = s.start :=
  start_of_started (started_start s)

lemma consume_start (s : TokenStream σ) : s.start.consume = s.consume := by
  rw [consume, consume, start_start]

/-- A step is a move to the next place, and none at the end of input. -/
lemma consume_eq (h : s.started = true) :
    s.consume =
      if (s.buffer[s.place]?.map fun t => !t.isEof).getD false then s.seek (s.place + 1)
      else s := by
  have hs : ({ s with started := true } : TokenStream σ) = s := by rw [← h]
  rw [consume, start_of_started h, seek, hs]

/-! ## The view -/

/-- The place behind a token: that of the next token of the channel, or its own if it is the end of
input. -/
def following (tokens : Array Token) (channel : Channel) (i : Nat) : Nat :=
  if (tokens[i]?.map fun t => !t.isEof).getD false then firstFrom tokens channel (i + 1) else i

/-- The buffer is in order, and all saved places can be returned to. -/
structure Coherent (s : TokenStream σ) : Prop where
  sound : s.Sound
  saved : s.marks.Saves (Stands s.fill.buffer s.channel)

/-- The cursor is on a token. -/
structure OnToken (s : TokenStream σ) : Prop extends s.Coherent where
  started : s.started = true
  buffered : s.place < s.buffer.size
  stands : Stands s.fill.buffer s.channel s.place

instance : View (TokenStream σ) where
  Input := Array Token × Channel
  Spot := Nat
  input s := (s.fill.buffer, s.channel)
  spot s := s.place
  marks s := s.marks
  place i := i
  Fresh s := ∃ source channel name, s = ofSource source channel name
  Started s := s.started = true
  Ready s := s.OnToken
  Stands input i := Stands input.1 input.2 i
  typeAt input i := (input.1[i]?.map Token.type).getD .invalid
  after input i := following input.1 input.2 i

lemma Sound.isEof_fill (h : s.Sound) : ∃ t, s.fill.buffer.back? = some t ∧ t.isEof = true :=
  ((Extends.fill s).sound h).isEof_of_exhausted (exhausted_fill s)

lemma Extends.coherent (h : s.Extends s') (hs : s.Coherent) : s'.Coherent := by
  obtain ⟨-, hchannel, -, hmarks⟩ := keeps_of_fill h.fill_eq
  refine ⟨h.sound hs.sound, ?_⟩
  rw [h.fill_eq, hchannel, hmarks]
  exact hs.saved

/-- More of the input is buffered, and nothing else happens. -/
lemma Extends.lands (h : s.Extends s') (hs : s.OnToken) : Lands s s' s.place s.marks := by
  obtain ⟨hplace, hchannel, hstarted, hmarks⟩ := keeps_of_fill h.fill_eq
  have hready : s'.OnToken := by
    refine ⟨h.coherent hs.toCoherent, hstarted.trans hs.started, ?_, ?_⟩
    · rw [hplace]
      exact Nat.lt_of_lt_of_le hs.buffered h.size_le
    · rw [h.fill_eq, hchannel, hplace]
      exact hs.stands
  exact ⟨hready, Prod.ext (congrArg buffer h.fill_eq) hchannel, hplace, hmarks⟩

lemma MovesTo.lands {i : Nat} (h : s.MovesTo s' i) (hs : s.Coherent) :
    Lands s s' (firstFrom s.fill.buffer s.channel i) s.marks := by
  have hready : s'.OnToken := by
    refine ⟨⟨h.sound hs.sound, ?_⟩, h.started, h.buffered hs.sound, ?_⟩
    · rw [h.fill_buffer, h.channel_eq, h.marks_eq]
      exact hs.saved
    · rw [h.fill_buffer, h.channel_eq, h.place_eq]
      exact stands_firstFrom hs.sound.isEof_fill i
  exact ⟨hready, Prod.ext h.fill_buffer h.channel_eq, h.place_eq, h.marks_eq⟩

/-- Reading starts a fresh stream, and then only buffers. -/
lemma extends_tokenAt (s : TokenStream σ) (k : Int) : s.start.Extends (s.tokenAt k).2 := by
  rw [tokenAt]
  split
  · exact Extends.refl _
  · split
    · rw [lookBehind, start_start]
      exact Extends.refl _
    · exact Extends.ahead _ _ _

lemma extends_symbol (s : TokenStream σ) : s.start.Extends s.symbol.2 := extends_tokenAt s 1

lemma fill_marked (s : TokenStream σ) (ms : MarkStack Nat) :
    ({ s with marks := ms } : TokenStream σ).fill.buffer = s.fill.buffer := by
  have h := congrArg buffer (fill_with s s.place s.started ms)
  exact h

lemma Coherent.marked (hs : s.Coherent) {ms : MarkStack Nat}
    (hms : ms.Saves (Stands s.fill.buffer s.channel)) :
    ({ s with marks := ms } : TokenStream σ).Coherent := by
  refine ⟨⟨hs.sound.last_of_isEof, hs.sound.isEof_of_exhausted⟩, ?_⟩
  rw [fill_marked]
  exact hms

/-- Nothing but the marks differs. -/
lemma OnToken.marked (hs : s.OnToken) {ms : MarkStack Nat}
    (hms : ms.Saves (Stands s.fill.buffer s.channel)) :
    Lands s ({ s with marks := ms } : TokenStream σ) s.place ms := by
  refine ⟨⟨hs.toCoherent.marked hms, hs.started, hs.buffered, ?_⟩, ?_, rfl, rfl⟩
  · rw [fill_marked]
    exact hs.stands
  · exact Prod.ext (fill_marked s ms) rfl

lemma coherent_ofSource (source : σ) (channel : Channel) (name : String) :
    (ofSource source channel name).Coherent := by
  refine ⟨⟨?_, ?_⟩, MarkStack.saves_empty⟩
  · intro i t h
    simp [ofSource] at h
  · intro h
    simp [ofSource] at h

lemma Coherent.start (hs : s.Coherent) (hon : s.started = true → s.OnToken) : s.start.OnToken := by
  rw [start_eq]
  split
  · rename_i h
    exact hon h
  · exact ((movesTo_seek s 0).lands hs).ready

/-- The invariant of a stream in use: once its cursor is put on a token, it stays on tokens. -/
lemma coherent_step {s s' : TokenStream σ} (h : Step s s')
    (hs : s.Coherent ∧ (s.started = true → s.OnToken)) :
    s'.Coherent ∧ (s'.started = true → s'.OnToken) := by
  obtain ⟨hcoherent, hon⟩ := hs
  have hstart : s.start.OnToken := hcoherent.start hon
  have hready {t : TokenStream σ} (ht : t.OnToken) : t.Coherent ∧ (t.started = true → t.OnToken) :=
    ⟨ht.toCoherent, fun _ => ht⟩
  cases h with
  | lookahead k => exact hready ((extends_tokenAt s k).lands hstart).ready
  | symbol => exact hready ((extends_symbol s).lands hstart).ready
  | consume =>
    refine hready ?_
    show (TokenStream.consume s).OnToken
    rw [← consume_start, consume_eq hstart.started]
    split
    · exact ((movesTo_seek _ _).lands hstart.toCoherent).ready
    · exact hstart
  | seek i => exact hready ((movesTo_seek s i).lands hcoherent).ready
  | mark => exact hready (hstart.marked (hstart.saved.push hstart.stands)).ready
  | rewind h =>
    obtain ⟨⟨p, ms⟩, hm, rfl⟩ := map_eq_ok.1 h
    have hmarked := hcoherent.marked (hcoherent.saved.rewind hm).2
    exact hready ((movesTo_seek _ p).lands hmarked).ready
  | release h =>
    obtain ⟨ms, hm, rfl⟩ := map_eq_ok.1 h
    have hsaves := hcoherent.saved.release hm
    exact ⟨hcoherent.marked hsaves, fun h => ((hon h).marked hsaves).ready⟩

instance : Lawful (TokenStream σ) where
  ready_of_reaches := by
    rintro s₀ s ⟨source, channel, name, rfl⟩ hreach hstarted
    have hinv : s.Coherent ∧ (s.started = true → s.OnToken) := by
      clear hstarted
      induction hreach with
      | refl => exact ⟨coherent_ofSource source channel name, fun h => by cases h⟩
      | tail _ hstep ih => exact coherent_step hstep ih
    exact hinv.2 hstarted
  index_eq _ := rfl
  markDepth_eq _ := rfl
  stands hs := hs.stands
  lookahead {s} k hs := by
    have h := extends_tokenAt s k
    rw [start_of_started hs.started] at h
    exact h.lands hs
  lookahead_one {s} hs := by
    show ((s.tokenAt 1).1.map Token.type).getD .invalid =
      (s.fill.buffer[s.place]?.map Token.type).getD .invalid
    rw [getElem?_fill hs.buffered]
    simp [tokenAt, start_of_started hs.started, ahead]
  symbol {s} hs := by
    have h := extends_symbol s
    rw [start_of_started hs.started] at h
    exact h.lands hs
  consume {s} hs := by
    show ∃ p, Lands s s.consume p s.marks ∧ p = following s.fill.buffer s.channel s.place
    rw [consume_eq hs.started, following, getElem?_fill hs.buffered]
    split
    · exact ⟨_, (movesTo_seek s _).lands hs.toCoherent, rfl⟩
    · exact ⟨s.place, (Extends.refl s).lands hs, rfl⟩
  seek {s} i hs :=
    ⟨firstFrom s.fill.buffer s.channel i, (movesTo_seek s i).lands hs.toCoherent,
      firstFrom_of_stands⟩
  mark {s} hs := by
    have h : Cursor.mark s = ((s.marks.push s.place).1,
        { s with marks := (s.marks.push s.place).2 }) := by
      simp only [Cursor.mark, start_of_started hs.started]
    rw [h]
    exact hs.marked (hs.saved.push hs.stands)
  mark_fst {s} hs := by
    simp only [Cursor.mark, start_of_started hs.started]
    rfl
  rewind {s} m hs := by
    refine ⟨fun (place, marks) => ({ s with marks } : TokenStream σ).seek place, rfl, ?_⟩
    intro p ms hm
    obtain ⟨hp, hsaves⟩ := hs.saved.rewind hm
    have h := (movesTo_seek { s with marks := ms } p).lands (hs.toCoherent.marked hsaves)
    rw [fill_marked, firstFrom_of_stands hp] at h
    exact ⟨h.ready, h.input_eq.trans (hs.marked hsaves).input_eq, h.spot_eq, h.marks_eq⟩
  release {s} m hs := by
    refine ⟨fun marks => { s with marks }, rfl, fun ms hm => ?_⟩
    exact hs.marked (hs.saved.release hm)

end Lookahead.TokenStream
