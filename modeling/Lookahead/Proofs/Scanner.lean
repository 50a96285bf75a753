import Lookahead.Proofs.Stream.Characters
import Lookahead.Proofs.Stream.Laziness
import Lookahead.Scanner

/-!
# Scanned text is kept

A scanner whose finds tile a text loses nothing of it.  Read through a token stream, the tokens put
together are the text, their spans cover it byte by byte up to the end of input, and each token is
where a character stream over the same text says that its first character is
(`fullText_of_tiles`).

Three counts of lines meet here: the scanner's, which goes on from token to token; that of the
closing token, which goes over the last token only; and the character stream's table.  Each of them
is compared with `Position.past` over all the text in front: `Counted` says it of the scanner,
`Laid.closing` of the closing token, and `Accurate` of the character stream.
-/

namespace Lookahead

open Text

/-! ## Tilings -/

/-- The finds tile the characters from left to right, the first of which is at a byte offset. -/
def Tiles : (offset : Nat) → List Char → List Find → Prop
  | _, chars, [] => chars = []
  | offset, chars, f :: finds =>
    f.span.start = offset ∧ ∃ piece rest, chars = piece ++ rest ∧
      f.span.stop = offset + byteLength piece ∧ Tiles f.span.stop rest finds

/-- Spans that follow each other without a gap, from one offset to another. -/
def Contiguous : (start stop : Nat) → List Span → Prop
  | start, stop, [] => start = stop
  | start, stop, span :: spans =>
    span.start = start ∧ start ≤ span.stop ∧ Contiguous span.stop stop spans

lemma Contiguous.append {start middle stop : Nat} {a b : List Span} (ha : Contiguous start middle a)
    (hb : Contiguous middle stop b) : Contiguous start stop (a ++ b) := by
  induction a generalizing start with
  | nil =>
    obtain rfl : start = middle := ha
    exact hb
  | cons span spans ih =>
    obtain ⟨hstart, hle, hspans⟩ := ha
    exact ⟨hstart, hle, ih hspans⟩

/-- The type of a find is not the one that is reserved for the end of input. -/
def Find.IsOrdinary (f : Find) : Prop := ∀ kind ∈ f.kind, kind.1 ≠ TokenType.eof

/-! ## Counting lines -/

namespace Scanner

/-- A line of a text starts at a byte offset, and the rest of the text is on that line. -/
def StartsLine (front : List Char) (lineStart : Nat) : Prop :=
  ∃ before onLine, front = before ++ onLine ∧ lineStart = byteLength before ∧
    onLine.length = (Position.start.past front).column

/-- The lines in front of what is left were counted: `front` is behind the scanner, and `back`
ahead. -/
structure Counted (s : Scanner) (front back : List Char) : Prop where
  text_eq : s.text = front ++ back
  scanned_eq : s.scanned = byteLength front
  line_eq : s.line = (Position.start.past front).line
  startsLine : StartsLine front s.lineStart

lemma counted_ofText (text : String) (finds : List Find) :
    (ofText text finds).Counted [] text.toList :=
  ⟨rfl, rfl, rfl, [], [], rfl, rfl, rfl⟩

/-- A line break starts a line, and any other character goes on with one. -/
lemma countLines_spec {front : List Char} {line lineStart : Nat} (chunk : List Char)
    (hline : line = (Position.start.past front).line) (hstart : StartsLine front lineStart) :
    (countLines (byteLength front) chunk line lineStart).1 =
        (Position.start.past (front ++ chunk)).line ∧
      StartsLine (front ++ chunk) (countLines (byteLength front) chunk line lineStart).2 := by
  induction chunk generalizing front line lineStart with
  | nil => simpa [countLines] using ⟨hline, hstart⟩
  | cons c rest ih =>
    have hfront : front ++ c :: rest = front ++ [c] ++ rest := by simp
    have hoffset : byteLength front + c.utf8Size = byteLength (front ++ [c]) := by
      simp [byteLength]
    have hpast : Position.start.past (front ++ [c]) = (Position.start.past front).next c :=
      Position.past_append _ _ _
    rw [countLines, hfront]
    split
    · rename_i hc
      rw [hoffset]
      refine ih ?_ ⟨front ++ [c], [], by simp, ?_, ?_⟩
      · rw [hpast, hline, Position.next, if_pos hc]
      · rw [← hoffset, hc]
        rfl
      · rw [hpast, Position.next, if_pos hc]
        rfl
    · rename_i hc
      obtain ⟨before, onLine, rfl, rfl, hcolumn⟩ := hstart
      rw [hoffset]
      refine ih ?_ ⟨before, onLine ++ [c], by simp, rfl, ?_⟩
      · rw [hpast, hline, Position.next, if_neg hc]
      · rw [hpast, Position.next, if_neg hc, List.length_append, hcolumn]
        rfl

lemma Counted.scanTo {s : Scanner} {front chunk back : List Char}
    (h : s.Counted front (chunk ++ back)) :
    (s.scanTo (byteLength front + byteLength chunk)).Counted (front ++ chunk) back := by
  have hbetween : between s.text (byteLength front) (byteLength front + byteLength chunk) =
      some chunk := by
    rw [h.text_eq, ← List.append_assoc, between_append]
  obtain ⟨hline, hstart⟩ := countLines_spec chunk h.line_eq h.startsLine
  simp only [Scanner.scanTo, h.scanned_eq, hbetween]
  exact ⟨by rw [h.text_eq, List.append_assoc], (byteLength_append front chunk).symm, hline, hstart⟩

/-- The token of a find is the text that was found, where the text in front of it leads. -/
lemma Counted.token {s : Scanner} {f : Find} {front piece back : List Char}
    (h : s.Counted front (piece ++ back))
    (hspan : f.span = ⟨byteLength front, byteLength front + byteLength piece⟩) :
    (s.token f).text = String.ofList piece ∧ (s.token f).span = f.span ∧
      (s.token f).position = Position.start.past front ∧
      (f.IsOrdinary → (s.token f).isEof = false) := by
  have htext : between s.text f.span.start f.span.stop = some piece := by
    rw [h.text_eq, ← List.append_assoc, hspan, between_append]
  obtain ⟨before, onLine, hfront, hstart, hcolumn⟩ := h.startsLine
  have hline : between s.text s.lineStart f.span.start = some onLine := by
    rw [h.text_eq, hspan, hstart, hfront, byteLength_append, between_append]
  refine ⟨?_, rfl, ?_, fun hkind => ?_⟩
  · simp [Scanner.token, htext]
  · simp [Scanner.token, hline, hcolumn, h.line_eq]
  · cases hk : f.kind with
    | none => simp [Scanner.token, hk, Token.isEof, TokenType.invalid, TokenType.eof]
    | some kind =>
      have hne := hkind kind (by simp [hk])
      simpa [Scanner.token, hk, Token.isEof] using hne

/-- The next token, and the scanner behind it. -/
lemma Counted.next {s : Scanner} {f : Find} {finds : List Find} {front piece back : List Char}
    (h : s.Counted front (piece ++ back)) (hfinds : s.finds = f :: finds)
    (hspan : f.span = ⟨byteLength front, byteLength front + byteLength piece⟩) :
    ∃ t s', TokenSource.next s = (some t, s') ∧ s'.Counted (front ++ piece) back ∧
      s'.finds = finds ∧ t.text = String.ofList piece ∧ t.span = f.span ∧
      t.position = Position.start.past front ∧ (f.IsOrdinary → t.isEof = false) := by
  have hbegin : ({ s with finds }.scanTo f.span.start).Counted front (piece ++ back) := by
    have hfront : ({ s with finds } : Scanner).Counted front ([] ++ (piece ++ back)) :=
      ⟨h.text_eq, h.scanned_eq, h.line_eq, h.startsLine⟩
    simpa [hspan, byteLength] using hfront.scanTo
  have hnext : TokenSource.next s = (some (({ s with finds }.scanTo f.span.start).token f),
      ({ s with finds }.scanTo f.span.start).scanTo f.span.stop) := by
    simp only [TokenSource.next, Scanner.next, hfinds]
  refine ⟨_, _, hnext, ?_, by simp, hbegin.token hspan⟩
  rw [hspan] at hbegin ⊢
  exact hbegin.scanTo

end Scanner

/-! ## Tokens that cover a text -/

/-- Tokens one behind the other, which cover some characters without a gap, each with its own piece
as its text and at its place. -/
inductive Laid : List Char → List Token → Prop
  | nil : Laid [] []
  | push {front piece : List Char} {tokens : List Token} {t : Token} (h : Laid front tokens)
    (htext : t.text = String.ofList piece)
    (hspan : t.span = ⟨byteLength front, byteLength front + byteLength piece⟩)
    (hposition : t.position = Position.start.past front) (hordinary : t.isEof = false) :
    Laid (front ++ piece) (tokens ++ [t])

lemma TokenStream.textOf_append (a b : List Token) :
    TokenStream.textOf (a ++ b) = TokenStream.textOf a ++ TokenStream.textOf b := by
  simp [TokenStream.textOf, String.join_append]

namespace Laid

variable {front : List Char} {tokens : List Token}

lemma textOf_eq (h : Laid front tokens) : TokenStream.textOf tokens = String.ofList front := by
  induction h with
  | nil => rfl
  | push h htext _ _ hordinary ih =>
    rw [TokenStream.textOf_append, ih, String.ofList_append]
    simp [TokenStream.textOf, hordinary, htext]

lemma contiguous (h : Laid front tokens) :
    Contiguous 0 (byteLength front) (tokens.map Token.span) := by
  induction h with
  | nil => rfl
  | push h htext hspan _ _ ih =>
    rw [List.map_append, byteLength_append]
    refine ih.append ?_
    rw [List.map_singleton, hspan]
    exact ⟨rfl, Nat.le_add_right _ _, rfl⟩

/-- Each token is where the text in front of it leads. -/
lemma mem (h : Laid front tokens) {t : Token} (ht : t ∈ tokens) :
    ∃ before, before <+: front ∧ t.span.start = byteLength before ∧
      t.position = Position.start.past before := by
  induction h with
  | nil => cases ht
  | @push front piece tokens u h htext hspan hposition hordinary ih =>
    rcases List.mem_append.1 ht with ht | ht
    · obtain ⟨before, hbefore, hstart, hpos⟩ := ih ht
      exact ⟨before, hbefore.trans (List.prefix_append _ _), hstart, hpos⟩
    · obtain rfl := List.mem_singleton.1 ht
      exact ⟨front, List.prefix_append _ _, by rw [hspan], hposition⟩

end Laid

namespace TokenStream

/-- The closing token is at the end of the covered text. -/
lemma closingToken_of_laid {σ : Type} {s : TokenStream σ} {front : List Char}
    (h : Laid front s.buffer.toList) :
    s.closingToken = .endOfInput (byteLength front) (Position.start.past front) := by
  rw [closingToken, ← Array.getLast?_toList]
  generalize s.buffer.toList = tokens at h
  cases h with
  | nil => rfl
  | push h htext hspan hposition hordinary =>
    simp [Token.endPosition, htext, hspan, hposition, Position.past_append]

/-! ## Reading a scanner -/

/-- The buffered token is the one that came, but for its channel and index. -/
lemma toList_receive {σ : Type} (s : TokenStream σ) (t : Token) :
    ∃ t' : Token, (s.receive t).buffer.toList = s.buffer.toList ++ [t'] ∧ t'.text = t.text ∧
      t'.span = t.span ∧ t'.position = t.position ∧ t'.isEof = t.isEof :=
  ⟨{ t with
      channel := if t.isEof then s.channel else t.channel
      index := some s.buffer.size }, Array.toList_push, rfl, rfl, rfl, rfl⟩

/-- The buffered tokens cover the text in front of what the scanner is still to find. -/
structure Covers (chars : List Char) (s : TokenStream Scanner) : Prop where
  exhausted_eq : s.exhausted = false
  ordinary : ∀ f ∈ s.source.finds, f.IsOrdinary
  covered : ∃ front back, chars = front ++ back ∧ Laid front s.buffer.toList ∧
    s.source.Counted front back ∧ Tiles (byteLength front) back s.source.finds

/-- The buffered tokens cover the text, and the end of input is behind them. -/
def Complete (chars : List Char) (s : TokenStream Scanner) : Prop :=
  ∃ tokens last, s.buffer.toList = tokens ++ [last] ∧ Laid chars tokens ∧ last.isEof = true ∧
    last.span = .emptyAt (byteLength chars) ∧ last.position = Position.start.past chars

variable {chars : List Char} {s : TokenStream Scanner}

/-- A pull covers one more find, or closes the buffer behind the last one. -/
lemma Covers.pull (hs : s.Covers chars) :
    s.pull.Covers chars ∨ (s.pull.exhausted = true ∧ s.pull.Complete chars) := by
  obtain ⟨hmore, hordinary, front, back, rfl, hlaid, hcounted, htiles⟩ := hs
  rw [TokenStream.pull, if_neg (by simp [hmore])]
  cases hfinds : s.source.finds with
  | nil =>
    have hnext : TokenSource.next s.source = (none, s.source) := by
      simp only [TokenSource.next, Scanner.next, hfinds]
    rw [hfinds] at htiles
    obtain rfl : back = [] := htiles
    obtain ⟨last, hbuffer, -, hspan, hposition, heof⟩ := toList_receive s s.closingToken
    rw [closingToken_of_laid hlaid] at hspan hposition
    rw [hnext, List.append_nil]
    refine .inr ⟨by simp [receive, isEof_closingToken], _, last, hbuffer, hlaid, ?_, hspan,
      hposition⟩
    rw [heof, isEof_closingToken]
  | cons f finds =>
    rw [hfinds] at htiles
    obtain ⟨hstart, piece, rest, rfl, hstop, htiles⟩ := htiles
    have hfound : f.span = ⟨byteLength front, byteLength front + byteLength piece⟩ := by
      rw [← hstop, ← hstart]
    obtain ⟨t, source, hnext, hcounted, hrest, htext, hspan, hposition, hkind⟩ :=
      hcounted.next hfinds hfound
    have hnoEof : t.isEof = false := hkind (hordinary f (by simp [hfinds]))
    obtain ⟨t', hbuffer, htext', hspan', hposition', heof'⟩ := toList_receive { s with source } t
    rw [hnext]
    refine .inl ⟨by simp [receive, hmore, hnoEof], fun g hg => ?_, front ++ piece, rest, by simp,
      ?_, hcounted, ?_⟩
    · have hg : g ∈ source.finds := hg
      rw [hrest] at hg
      exact hordinary g (by rw [hfinds]; exact List.mem_cons_of_mem f hg)
    · rw [hbuffer]
      exact hlaid.push (htext'.trans htext) (hspan'.trans (hspan.trans hfound))
        (hposition'.trans hposition) (heof'.trans hnoEof)
    · have hfinds' : ({ s with source }.receive t).source.finds = finds := hrest
      rw [hfinds', byteLength_append, ← hstop]
      exact htiles

lemma Covers.fill (hs : s.Covers chars) : s.fill.Complete chars := by
  fun_induction TokenStream.fill s with
  | case1 s _ ih =>
    rcases hs.pull with hs | ⟨hdone, hs⟩
    · exact ih hs
    · rwa [fill_of_exhausted hdone]
  | case2 s h => exact absurd hs.exhausted_eq h

lemma covers_ofSource (text : String) (finds : List Find) (channel : Channel) (name : String)
    (htiles : Tiles 0 text.toList finds) (hordinary : ∀ f ∈ finds, f.IsOrdinary) :
    (ofSource (Scanner.ofText text finds) channel name).Covers text.toList :=
  ⟨rfl, hordinary, [], text.toList, rfl, .nil, Scanner.counted_ofText text finds, htiles⟩

lemma fullText_eq {σ : Type} [TokenSource σ] (s : TokenStream σ) :
    s.fullText.1 = textOf s.fill.buffer.toList := by
  simp only [fullText, text, fillTo_fill, List.drop_zero]
  rw [List.take_of_length_le]
  simp
  omega

lemma fill_converse {σ : Type} [TokenSource σ] (s : TokenStream σ) (requests : List Request) :
    (s.converse requests).2.fill.buffer = s.fill.buffer :=
  converse_keeps (P := fun t => t.fill.buffer = s.fill.buffer)
    (fun t _ ht => (congrArg buffer (fill_pull t)).trans ht)
    (fun t place started marks ht => (congrArg buffer (fill_with t place started marks)).trans ht)
    rfl requests

end TokenStream

/-! ## Main result -/

/-- A character stream over the text, after any use, whose cursor is at the byte offset. -/
def CharacterStream.StandsAt (text : String) (offset : Nat) (c : CharacterStream) : Prop :=
  (∃ name, Cursor.Reaches (ofString text name) c) ∧ c.source.byteOffset c.place.index = offset

/-- Where some text in front leads is where a character stream stands behind that text. -/
lemma CharacterStream.standsAt_prefix {text : String} {front : List Char}
    (h : front <+: text.toList) :
    (∃ c, StandsAt text (byteLength front) c) ∧
      ∀ c, StandsAt text (byteLength front) c →
        c.place.position = Position.start.past front := by
  have hle : front.length ≤ (Source.ofString text).length := by
    simpa [Source.ofString, Source.length] using h.length_le
  have htake : (Source.ofString text).chars.toList.take front.length = front :=
    (List.prefix_iff_eq_take.1 h).symm
  have hoffset : (Source.ofString text).byteOffset front.length = byteLength front := by
    rw [Source.byteOffset_eq hle, htake]
  constructor
  · refine ⟨Cursor.seek (ofString text "") front.length, ⟨"", (Cursor.Step.seek _ _).reaches⟩, ?_⟩
    show (Source.ofString text).byteOffset (min front.length (Source.ofString text).length) = _
    rw [Nat.min_eq_left hle, hoffset]
  · rintro c ⟨⟨name, hreach⟩, hc⟩
    obtain ⟨haccurate, hsource⟩ := (accurate_ofString text name).reaches hreach
    obtain ⟨hindex, hposition⟩ := haccurate.place
    have hsource : c.source = .ofString text := hsource
    rw [hsource] at hc hindex hposition
    have hat : c.place.index = front.length :=
      Source.byteOffset_inj hindex hle (hc.trans hoffset.symm)
    rw [hposition, hat, Source.positionAt_eq hle, htake]

/-- **A token stream over a scanner keeps the whole text.**  The finds of the scanner tile the
text, each beginning where the last one has ended, and none of them is of the type that is
reserved for the end of input.  The stream may be tuned to any channel, and whatever was asked
of it before has no influence.

Then the full text is the text; the spans of the tokens go without a gap from its first byte to
its last; the end of input is behind them, and is empty.  Every token, the end of input
included, has the line and the column that every character stream over the text gives for the
character at that byte. -/
theorem fullText_of_tiles (text : String) (finds : List Find) (channel : Channel) (name : String)
    (requests : List TokenStream.Request) (htiles : Tiles 0 text.toList finds)
    (hordinary : ∀ f ∈ finds, f.IsOrdinary) :
    let s := ((TokenStream.ofSource (Scanner.ofText text finds) channel name).converse requests).2
    s.fullText.1 = text ∧
      Contiguous 0 text.utf8ByteSize (s.fill.buffer.toList.map Token.span) ∧
      (∃ closing, s.fill.buffer.back? = some closing ∧ closing.isEof = true ∧
        closing.span = .emptyAt text.utf8ByteSize) ∧
      ∀ t ∈ s.fill.buffer,
        (∃ c, CharacterStream.StandsAt text t.span.start c) ∧
          ∀ c, CharacterStream.StandsAt text t.span.start c → c.place.position = t.position := by
  intro s
  have hsize : text.utf8ByteSize = byteLength text.toList := by
    rw [← utf8ByteSize_ofList, String.ofList_toList]
  obtain ⟨tokens, closing, hbuffer, hlaid, heof, hspan, hposition⟩ :=
    (TokenStream.covers_ofSource text finds channel name htiles hordinary).fill
  rw [← TokenStream.fill_converse _ requests] at hbuffer
  refine ⟨?_, ?_, ⟨closing, ?_, heof, hsize ▸ hspan⟩, fun t ht => ?_⟩
  · rw [TokenStream.fullText_eq, hbuffer, TokenStream.textOf_append, hlaid.textOf_eq]
    simp [TokenStream.textOf, heof]
  · rw [hbuffer, List.map_append, hsize]
    refine hlaid.contiguous.append ?_
    rw [List.map_singleton, hspan]
    exact ⟨rfl, Nat.le_refl _, rfl⟩
  · rw [← Array.getLast?_toList, hbuffer, List.getLast?_concat]
  · rw [← Array.mem_toList_iff, hbuffer, List.mem_append, List.mem_singleton] at ht
    obtain ⟨front, hfront, hstart, hpast⟩ : ∃ front, front <+: text.toList ∧
        t.span.start = byteLength front ∧ t.position = Position.start.past front := by
      rcases ht with ht | rfl
      · exact hlaid.mem ht
      · exact ⟨text.toList, List.prefix_refl _, by rw [hspan]; rfl, hposition⟩
    rw [hstart, hpast]
    exact CharacterStream.standsAt_prefix hfront

/-- A token over two lines, a hidden one, and a piece where nothing fits. -/
def twoLines : List Find :=
  [⟨⟨0, 4⟩, some (4, .default)⟩, ⟨⟨4, 5⟩, some (11, .hidden)⟩, ⟨⟨5, 6⟩, none⟩]

theorem fullText_of_tiles_twoLines :
    Tiles 0 "a\nλ b".toList twoLines ∧ (∀ f ∈ twoLines, f.IsOrdinary) ∧
      let s := TokenStream.ofSource (Scanner.ofText "a\nλ b" twoLines) .default "<scanner>"
      s.fullText.1 = "a\nλ b" ∧ ∃ closing, s.fill.buffer.back? = some closing ∧
        closing.span = ⟨6, 6⟩ ∧ closing.position = ⟨2, 3⟩ := by
  have htiles : Tiles 0 "a\nλ b".toList twoLines :=
    ⟨rfl, "a\nλ".toList, _, rfl, rfl, rfl, [' '], _, rfl, rfl, rfl, ['b'], _, rfl, rfl, rfl⟩
  have hordinary : ∀ f ∈ twoLines, f.IsOrdinary := by
    simp [twoLines, Find.IsOrdinary, TokenType.eof]
  obtain ⟨htext, -, ⟨closing, hback, -, hspan⟩, hplaces⟩ :=
    fullText_of_tiles "a\nλ b" twoLines .default "<scanner>" [] htiles hordinary
  have hend : CharacterStream.StandsAt "a\nλ b" closing.span.start
      (Cursor.seek (.ofString "a\nλ b" "") 5) :=
    ⟨⟨"", (Cursor.Step.seek _ _).reaches⟩, by rw [hspan]; rfl⟩
  have hposition := (hplaces closing (Array.mem_of_back? hback)).2 _ hend
  exact ⟨htiles, hordinary, htext, closing, hback, hspan, hposition.symm⟩

/-! ## Token classes -/

lemma Lexeme.tiles_finds (offset : Nat) (lexemes : List Lexeme) :
    Tiles offset (lexemes.map Lexeme.chars).flatten (Lexeme.finds offset lexemes) := by
  induction lexemes generalizing offset with
  | nil => rfl
  | cons lexeme rest ih => exact ⟨rfl, lexeme.chars, _, rfl, rfl, ih _⟩

/-- What token classes find in a text tiles it: each find begins where the one before has ended, and
the last ends with the text. -/
theorem TokenClass.tiles_finds (classes : List TokenClass) (text : String) :
    Tiles 0 text.toList (finds classes text) := by
  have h := Lexeme.tiles_finds 0 (scan classes text.toList)
  rwa [flatten_scan] at h

end Lookahead
