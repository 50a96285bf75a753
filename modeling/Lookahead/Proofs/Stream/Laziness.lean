import Lookahead.Proofs.Stream.Tokens
import Mathlib.Logic.Function.Iterate

/-!
# Lazy streams answer as filled ones

A token stream pulls as little as it can, and how much that is depends on what it was asked.  What
it answers does not: whatever a client asks, in whatever order, it gets the answers of a stream that
was filled before the first request.

`respond` is one request, `converse` a sequence of them.  One request commutes with filling
(`respond_fill`), and it keeps the stream orderly, which is what the next one needs; sequences
follow by induction.

What is pulled is accounted for by `Tally`: the tokens are numbered as they come in, and the source
was called once for each of them.
-/

namespace Lookahead.TokenStream

open Cursor

variable {σ : Type} [TokenSource σ] {s s' : TokenStream σ}

/-! ## Reading a filled stream -/

lemma fillTo_of_exhausted (h : s.exhausted = true) (i : Nat) : s.fillTo i = s := by
  rw [fillTo, if_neg (by simp [h])]

instance : IsPreorder (TokenStream σ) fun s s' => s.exhausted = true → s' = s where
  refl _ _ := rfl
  trans _ _ _ h h' hs := by
    obtain rfl := h hs
    exact h' hs

lemma skipFrom_of_exhausted (h : s.exhausted = true) (i : Nat) : (s.skipFrom i).2 = s :=
  skipFrom_within (R := fun s s' => s.exhausted = true → s' = s)
    (fun s hmore hdone => by rw [hmore] at hdone; cases hdone) s i h

lemma ahead_of_exhausted (h : s.exhausted = true) (steps i : Nat) : (s.ahead steps i).2 = s :=
  ahead_within (R := fun s s' => s.exhausted = true → s' = s)
    (fun s hmore hdone => by rw [hmore] at hdone; cases hdone) s steps i h

lemma channel_fill (s : TokenStream σ) : s.fill.channel = s.channel := (fill_keeps s).2.1

lemma place_fill (s : TokenStream σ) : s.fill.place = s.place := (fill_keeps s).1

lemma started_fill (s : TokenStream σ) : s.fill.started = s.started := (fill_keeps s).2.2.1

lemma marks_fill (s : TokenStream σ) : s.fill.marks = s.marks := (fill_keeps s).2.2.2

lemma fillTo_fill (s : TokenStream σ) (i : Nat) : s.fill.fillTo i = s.fill :=
  fillTo_of_exhausted (exhausted_fill s) i

lemma skipFrom_fill (s : TokenStream σ) (i : Nat) :
    s.fill.skipFrom i = ((s.skipFrom i).1, s.fill) :=
  Prod.ext (by rw [skipFrom_fst, skipFrom_fst, fill_fill, channel_fill])
    (skipFrom_of_exhausted (exhausted_fill s) i)

/-! ## Where lookahead ends up -/

/-- In a buffer without gaps every step of a lookahead is a step of the cursor. -/
lemma ahead_fst (hs : s.Sound) (steps : Nat) {i : Nat} (hi : i < s.buffer.size) :
    (s.ahead steps i).1 = (following s.fill.buffer s.channel)^[steps] i ∧
      (s.ahead steps i).1 < (s.ahead steps i).2.buffer.size := by
  induction steps generalizing s i with
  | zero => exact ⟨rfl, hi⟩
  | succ steps ih =>
    obtain ⟨t, ht⟩ : ∃ t, s.buffer[i]? = some t := ⟨_, Array.getElem?_eq_getElem hi⟩
    have hfollowing : following s.fill.buffer s.channel i =
        if t.isEof then i else (s.skipFrom (i + 1)).1 := by
      rw [following, getElem?_fill hi, ht, skipFrom_fst]
      cases h : t.isEof <;> simp [h]
    rw [ahead, ht, Function.iterate_succ_apply, hfollowing]
    cases heof : t.isEof with
    | true =>
      -- at the end of input neither the lookahead nor the cursor goes on
      have hstay : following s.fill.buffer s.channel i = i := by rw [hfollowing, heof]; rfl
      simp only [Option.map_some, heof, Option.getD_some, if_true]
      exact ⟨(Function.iterate_fixed hstay steps).symm, hi⟩
    | false =>
      have hext := Extends.skipFrom s (i + 1)
      obtain ⟨hfst, hlt⟩ := ih (hext.sound hs) (skipFrom_lt hs (i + 1))
      rw [hext.fill_eq, (keeps_of_fill hext.fill_eq).2.1] at hfst
      simp only [Option.map_some, heof, Option.getD_some, Bool.false_eq_true, if_false]
      exact ⟨hfst, hlt⟩

lemma behind_congr (hbuffer : s'.fill.buffer = s.fill.buffer) (hchannel : s'.channel = s.channel)
    (k : Nat) {i : Nat} (hi : i < s.buffer.size) (hi' : i < s'.buffer.size) :
    s'.behind k i = s.behind k i := by
  have hget {j : Nat} (hj : j ≤ i) : s'.buffer[j]? = s.buffer[j]? := by
    rw [← getElem?_fill (Nat.lt_of_le_of_lt hj hi), ← hbuffer,
      getElem?_fill (Nat.lt_of_le_of_lt hj hi')]
  induction i generalizing k with
  | zero =>
    cases k with
    | zero => exact hget (Nat.le_refl 0)
    | succ k => rfl
  | succ i ih =>
    have hbelow (k : Nat) : s'.behind k i = s.behind k i :=
      ih k (Nat.lt_of_succ_lt hi) (Nat.lt_of_succ_lt hi') fun hj => hget (Nat.le_succ_of_le hj)
    cases k with
    | zero => exact hget (Nat.le_refl _)
    | succ k =>
      simp only [behind, hget (Nat.le_succ i), hchannel, hbelow]

/-- What is read at a place of an input is the same, however much of it is buffered. -/
lemma tokenAt_congr (hs : s.OnToken) (hs' : s'.OnToken) (hbuffer : s'.fill.buffer = s.fill.buffer)
    (hchannel : s'.channel = s.channel) (hplace : s'.place = s.place) (k : Int) :
    (s'.tokenAt k).1 = (s.tokenAt k).1 := by
  simp only [tokenAt, lookBehind, start_of_started hs.started, start_of_started hs'.started]
  split
  · rfl
  split
  · rw [hplace]
    exact behind_congr hbuffer hchannel _ hs.buffered (hplace ▸ hs'.buffered)
  · obtain ⟨hfst, hlt⟩ := ahead_fst hs.sound (k - 1).toNat hs.buffered
    obtain ⟨hfst', hlt'⟩ := ahead_fst hs'.sound (k - 1).toNat hs'.buffered
    have hsame : (s'.ahead (k - 1).toNat s'.place).1 = (s.ahead (k - 1).toNat s.place).1 := by
      rw [hfst, hfst', hbuffer, hchannel, hplace]
    rw [← getElem?_fill hlt, ← getElem?_fill hlt', (Extends.ahead _ _ _).fill_eq,
      (Extends.ahead _ _ _).fill_eq, hbuffer, hsame]

/-- There is always a current token. -/
lemma tokenAt_one (hs : s.OnToken) : ∃ t, s.tokenAt 1 = (some t, s) ∧
    s.fill.buffer[s.place]? = some t := by
  obtain ⟨t, ht⟩ : ∃ t, s.buffer[s.place]? = some t := ⟨_, Array.getElem?_eq_getElem hs.buffered⟩
  refine ⟨t, ?_, (getElem?_fill hs.buffered).trans ht⟩
  simp [tokenAt, start_of_started hs.started, ahead, ht]

lemma symbol_eq (hs : s.OnToken) :
    ∃ t, s.symbol = (t, s) ∧ s.fill.buffer[s.place]? = some t := by
  obtain ⟨t, ht, hget⟩ := tokenAt_one hs
  exact ⟨t, by simp [symbol, ht], hget⟩

/-! ## Filling commutes with every operation -/

lemma seek_fill (s : TokenStream σ) (i : Nat) : s.fill.seek i = (s.seek i).fill := by
  obtain ⟨u, hu⟩ : ∃ u : TokenStream σ, u = { s with started := true } := ⟨_, rfl⟩
  have hfill : ({ s.fill with started := true } : TokenStream σ) = u.fill := by
    have h := fill_with s s.place true s.marks
    rw [hu, h, ← place_fill s, ← marks_fill s]
  have hright : (s.seek i).fill = { u.fill with place := (u.skipFrom i).1 } := by
    have h := fill_with (u.skipFrom i).2 (u.skipFrom i).1 (u.skipFrom i).2.started
      (u.skipFrom i).2.marks
    have hseek : s.seek i = { (u.skipFrom i).2 with place := (u.skipFrom i).1 } := by rw [hu]; rfl
    obtain ⟨-, -, hstarted, hmarks⟩ := keeps_of_fill (fill_skipFrom u i)
    rw [hseek, h, fill_skipFrom, hstarted, hmarks, ← started_fill u, ← marks_fill u]
  rw [hright, seek, hfill, skipFrom_fill]

lemma start_fill (s : TokenStream σ) : s.fill.start = s.start.fill := by
  rw [start_eq, start_eq, started_fill, seek_fill]
  split <;> rfl

lemma OnToken.fill (hs : s.OnToken) : s.fill.OnToken := ((Extends.fill s).lands hs).ready

lemma consume_fill (hs : s.start.OnToken) : s.fill.consume = s.consume.fill := by
  rw [← consume_start, ← consume_start s, start_fill, consume_eq hs.started,
    consume_eq hs.fill.started, place_fill, getElem?_fill hs.buffered, seek_fill]
  split <;> rfl

/-- A filled stream has nothing to pull. -/
lemma tokenAt_of_exhausted (hs : s.OnToken) (h : s.exhausted = true) (k : Int) :
    (s.tokenAt k).2 = s := by
  simp only [tokenAt, lookBehind, start_of_started hs.started]
  split
  · rfl
  split
  · rfl
  · exact ahead_of_exhausted h _ _

lemma tokenAt_start (s : TokenStream σ) (k : Int) : s.start.tokenAt k = s.tokenAt k := by
  simp only [tokenAt, start_start]

lemma tokenAt_fill (hs : s.start.OnToken) (k : Int) :
    s.fill.tokenAt k = ((s.tokenAt k).1, (s.tokenAt k).2.fill) := by
  rw [← tokenAt_start, ← tokenAt_start s, start_fill]
  refine Prod.ext ?_ ?_
  · exact tokenAt_congr hs hs.fill (by rw [fill_fill]) (channel_fill _) (place_fill _) k
  · have hfill := (extends_tokenAt s.start k).fill_eq
    rw [start_of_started hs.started] at hfill
    exact (tokenAt_of_exhausted hs.fill (exhausted_fill _) k).trans hfill.symm

lemma behind_fill (hs : s.OnToken) (k : Nat) :
    s.fill.behind k s.fill.place = s.behind k s.place := by
  rw [place_fill]
  exact behind_congr (by rw [fill_fill]) (channel_fill s) k hs.buffered
    (place_fill s ▸ hs.fill.buffered)

lemma symbol_fill (hs : s.start.OnToken) : s.fill.symbol = (s.symbol.1, s.symbol.2.fill) := by
  obtain ⟨t, ht, -⟩ := tokenAt_one hs
  rw [tokenAt_start] at ht
  simp only [symbol, tokenAt_fill hs, ht, Option.getD_some]

lemma fill_setMarks (s : TokenStream σ) (ms : MarkStack Nat) :
    ({ s with marks := ms } : TokenStream σ).fill = { s.fill with marks := ms } :=
  calc ({ s with marks := ms } : TokenStream σ).fill
      = { s.fill with place := s.place, started := s.started, marks := ms } :=
        fill_with s s.place s.started ms
    _ = { s.fill with marks := ms } := by simp only [place_fill, started_fill]

lemma mark_eq (s : TokenStream σ) :
    Cursor.mark s = ((s.start.marks.push s.start.place).1,
      { s.start with marks := (s.start.marks.push s.start.place).2 }) := rfl

lemma mark_fill (s : TokenStream σ) :
    Cursor.mark s.fill = ((Cursor.mark s).1, (Cursor.mark s).2.fill) := by
  rw [mark_eq, mark_eq, fill_setMarks s.start (s.start.marks.push s.start.place).2, start_fill,
    marks_fill, place_fill]

lemma rewind_eq (s : TokenStream σ) (m : Mark) :
    Cursor.rewind s m = (s.marks.rewind m).map fun (place, marks) => { s with marks }.seek place :=
  rfl

lemma rewind_fill (s : TokenStream σ) (m : Mark) :
    Cursor.rewind s.fill m = (Cursor.rewind s m).map fill := by
  rw [rewind_eq, rewind_eq, marks_fill]
  rcases s.marks.rewind m with cause | ⟨place, marks⟩
  · rfl
  · simp only [Except.map, ← fill_setMarks, seek_fill]

lemma release_eq (s : TokenStream σ) (m : Mark) :
    Cursor.release s m = (s.marks.release m).map fun marks => { s with marks } := rfl

lemma release_fill (s : TokenStream σ) (m : Mark) :
    Cursor.release s.fill m = (Cursor.release s m).map fill := by
  rw [release_eq, release_eq, marks_fill]
  rcases s.marks.release m with cause | marks
  · rfl
  · simp only [Except.map, fill_setMarks]

/-- The tokens up to a place are all there once the place was asked for. -/
lemma text_fill (s : TokenStream σ) (first last : Nat) :
    s.fill.text first last = ((s.text first last).1, (s.text first last).2.fill) := by
  have hprefix : (s.fillTo last).buffer.toList.take (last + 1) =
      s.fill.buffer.toList.take (last + 1) := by
    refine List.ext_getElem? fun i => ?_
    rw [List.getElem?_take, List.getElem?_take, Array.getElem?_toList, Array.getElem?_toList]
    split
    · rename_i hi
      have hfill : (s.fillTo last).fill = s.fill := fill_fillTo s last
      rcases fillTo_buffered s last with hsize | hdone
      · rw [← hfill, getElem?_fill (Nat.lt_of_lt_of_le hi hsize)]
      · rw [← hfill, fill_of_exhausted hdone]
    · rfl
  have hslice (tokens : List Token) : (tokens.drop first).take (last + 1 - first) =
      (tokens.take (last + 1)).drop first := by rw [List.drop_take]
  simp only [text, fillTo_fill, hslice, hprefix, fill_fillTo]

lemma fullText_fill (s : TokenStream σ) : s.fill.fullText = (s.fullText.1, s.fullText.2.fill) := by
  simp only [fullText, fill_fill]
  rw [text_fill, fill_fill]

/-! ## Requests -/

/-- What a client can ask of a token stream: units, places, moves, marks and texts. -/
inductive Request where
  | type (k : Int)
  | token (k : Int)
  | behind (k : Nat)
  | symbol
  | index
  | consume
  | seek (i : Nat)
  | mark
  | rewind (m : Mark)
  | release (m : Mark)
  | text (first last : Nat)
  | fullText
  | fill
  deriving DecidableEq, Repr

/-- What a client is told, in answer to a request. -/
inductive Answer where
  | type (t : TokenType)
  | token (t : Option Token)
  | symbol (t : Token)
  | index (i : Nat)
  | mark (m : Mark)
  | text (characters : String)
  | done
  | refused (cause : Misuse)
  deriving DecidableEq, Repr

/-- The answer to a request that the stream may refuse, and the stream, which stays if it does. -/
def settle (s : TokenStream σ) : Except Misuse (TokenStream σ) → Answer × TokenStream σ
  | .ok s' => (.done, s')
  | .error cause => (.refused cause, s)

/-- Answer one request, and return the stream as it is afterwards. -/
def respond (s : TokenStream σ) : Request → Answer × TokenStream σ
  | .type k => let (t, s) := lookahead s k; (.type t, s)
  | .token k => let (t, s) := s.tokenAt k; (.token t, s)
  | .behind k => let (t, s) := s.lookBehind k; (.token t, s)
  | .symbol => let (t, s) := s.symbol; (.symbol t, s)
  | .index => (.index (index s), s)
  | .consume => (.done, s.consume)
  | .seek i => (.done, s.seek i)
  | .mark => let (m, s) := Cursor.mark s; (.mark m, s)
  | .rewind m => s.settle (Cursor.rewind s m)
  | .release m => s.settle (Cursor.release s m)
  | .text first last => let (x, s) := s.text first last; (.text x, s)
  | .fullText => let (x, s) := s.fullText; (.text x, s)
  | .fill => (.done, s.fill)

/-- Answer some requests in a row, each on the stream that the one before has left. -/
def converse (s : TokenStream σ) : List Request → List Answer × TokenStream σ
  | [] => ([], s)
  | q :: rest =>
    let (a, s) := s.respond q
    let (answers, s) := s.converse rest
    (a :: answers, s)

/-- The buffer is in order, and the cursor, once it is put on a token, stays on tokens. -/
structure Orderly (s : TokenStream σ) : Prop where
  coherent : s.Coherent
  onToken : s.started = true → s.OnToken

lemma orderly_ofSource (source : σ) (channel : Channel) (name : String) :
    (ofSource source channel name).Orderly :=
  ⟨coherent_ofSource source channel name, fun h => by cases h⟩

lemma Orderly.start (hs : s.Orderly) : s.start.OnToken := hs.coherent.start hs.onToken

lemma OnToken.orderly (hs : s.OnToken) : s.Orderly := ⟨hs.toCoherent, fun _ => hs⟩

lemma Orderly.step (hs : s.Orderly) (h : Step s s') : s'.Orderly :=
  have h := coherent_step h ⟨hs.coherent, hs.onToken⟩
  ⟨h.1, h.2⟩

lemma Orderly.extends (hs : s.Orderly) (h : s.Extends s') : s'.Orderly :=
  ⟨h.coherent hs.coherent, fun hstarted =>
    (h.lands (hs.onToken ((keeps_of_fill h.fill_eq).2.2.1 ▸ hstarted))).ready⟩

lemma Extends.text (s : TokenStream σ) (first last : Nat) : s.Extends (s.text first last).2 :=
  Extends.fillTo s last

lemma Extends.fullText (s : TokenStream σ) : s.Extends s.fullText.2 :=
  (Extends.fill s).trans (Extends.text s.fill 0 _)

lemma respond_orderly (hs : s.Orderly) (q : Request) : (s.respond q).2.Orderly := by
  cases q with
  | type k => exact hs.step (.lookahead s k)
  | token k => exact hs.start.orderly.extends (extends_tokenAt s k)
  | behind k => exact hs.start.orderly
  | symbol => exact hs.step (.symbol s)
  | index => exact hs
  | consume => exact hs.step (.consume s)
  | seek i => exact hs.step (.seek s i)
  | mark => exact hs.step (.mark s)
  | rewind m =>
    rw [respond]
    cases h : Cursor.rewind s m with
    | error cause => exact hs
    | ok s' => exact hs.step (.rewind h)
  | release m =>
    rw [respond]
    cases h : Cursor.release s m with
    | error cause => exact hs
    | ok s' => exact hs.step (.release h)
  | text first last => exact hs.extends (.text s first last)
  | fullText => exact hs.extends (.fullText s)
  | fill => exact hs.extends (.fill s)

lemma settle_fill (s : TokenStream σ) (outcome : Except Misuse (TokenStream σ)) :
    s.fill.settle (outcome.map fill) = ((s.settle outcome).1, (s.settle outcome).2.fill) := by
  cases outcome <;> rfl

/-- A filled stream gives the answer of the lazy one, and is what that one comes to when filled. -/
lemma respond_fill (hs : s.Orderly) (q : Request) :
    s.fill.respond q = ((s.respond q).1, (s.respond q).2.fill) := by
  cases q with
  | type k => simp only [respond, lookahead, tokenAt_fill hs.start]
  | token k => simp only [respond, tokenAt_fill hs.start]
  | behind k => simp only [respond, lookBehind, start_fill, behind_fill hs.start]
  | symbol => simp only [respond, symbol_fill hs.start]
  | index => simp only [respond, index, place_fill]
  | consume => simp only [respond, consume_fill hs.start]
  | seek i => simp only [respond, seek_fill]
  | mark => simp only [respond, mark_fill]
  | rewind m => simp only [respond, rewind_fill, settle_fill]
  | release m => simp only [respond, release_fill, settle_fill]
  | text first last => simp only [respond, text_fill]
  | fullText => simp only [respond, fullText_fill]
  | fill => simp only [respond]

lemma converse_fill (hs : s.Orderly) (requests : List Request) :
    s.fill.converse requests = ((s.converse requests).1, (s.converse requests).2.fill) := by
  induction requests generalizing s with
  | nil => rfl
  | cons q rest ih => simp only [converse, respond_fill hs q, ih (respond_orderly hs q)]

lemma converse_orderly (hs : s.Orderly) (requests : List Request) :
    (s.converse requests).2.Orderly := by
  induction requests generalizing s with
  | nil => exact hs
  | cons q rest ih => exact ih (respond_orderly hs q)

/-! ## What was pulled -/

section

variable {P : TokenStream σ → Prop} (hpull : ∀ s, s.exhausted = false → P s → P s.pull)
  (hmoved : ∀ (s : TokenStream σ) (place : Nat) (started : Bool) (marks : MarkStack Nat),
    P s → P { s with place, started, marks })

instance : IsPreorder (TokenStream σ) fun s s' => P s → P s' where
  refl _ := id
  trans _ _ _ h h' := h' ∘ h

include hpull hmoved

lemma seek_keeps (hs : P s) (i : Nat) : P (s.seek i) :=
  hmoved _ _ _ _ (skipFrom_within (R := fun s s' => P s → P s') hpull _ i (hmoved s _ _ _ hs))

lemma start_keeps (hs : P s) : P s.start := by
  rw [start_eq]
  split
  · exact hs
  · exact seek_keeps hpull hmoved hs 0

lemma consume_keeps (hs : P s) : P s.consume := by
  rw [← consume_start, consume_eq (started_start s)]
  split
  · exact seek_keeps hpull hmoved (start_keeps hpull hmoved hs) _
  · exact start_keeps hpull hmoved hs

lemma tokenAt_keeps (hs : P s) (k : Int) : P (s.tokenAt k).2 := by
  have hstart := start_keeps hpull hmoved hs
  rw [tokenAt]
  split
  · exact hstart
  split
  · rw [lookBehind, start_start]
    exact hstart
  · exact ahead_within (R := fun s s' => P s → P s') hpull _ _ _ hstart

/-- No request does more to the buffer than to pull some tokens. -/
lemma respond_keeps (hs : P s) (q : Request) : P (s.respond q).2 := by
  have hfill (s : TokenStream σ) : P s → P s.fill :=
    fill_within (R := fun s s' => P s → P s') hpull s
  have hfillTo (s : TokenStream σ) (i : Nat) : P s → P (s.fillTo i) :=
    fillTo_within (R := fun s s' => P s → P s') hpull s i
  cases q with
  | type k => exact tokenAt_keeps hpull hmoved hs k
  | token k => exact tokenAt_keeps hpull hmoved hs k
  | behind k => exact start_keeps hpull hmoved hs
  | symbol => exact tokenAt_keeps hpull hmoved hs 1
  | index => exact hs
  | consume => exact consume_keeps hpull hmoved hs
  | seek i => exact seek_keeps hpull hmoved hs i
  | mark => exact hmoved _ _ _ _ (start_keeps hpull hmoved hs)
  | rewind m =>
    rw [respond, rewind_eq]
    rcases s.marks.rewind m with cause | ⟨place, marks⟩
    · exact hs
    · exact seek_keeps hpull hmoved (hmoved s _ _ marks hs) place
  | release m =>
    rw [respond, release_eq]
    rcases s.marks.release m with cause | marks
    · exact hs
    · exact hmoved s _ _ marks hs
  | text first last => exact hfillTo s last hs
  | fullText => exact hfillTo _ _ (hfill s hs)
  | fill => exact hfill s hs

lemma converse_keeps (hs : P s) (requests : List Request) : P (s.converse requests).2 := by
  induction requests generalizing s with
  | nil => exact hs
  | cons q rest ih => exact ih (respond_keeps hpull hmoved hs q)

end

/-- The tokens pulled since the source was as it is in `source`: numbered as they came, and one for
each call of the source. -/
structure Tally (source : σ) (s : TokenStream σ) : Prop where
  index_eq : ∀ (i : Nat) (t : Token), s.buffer[i]? = some t → t.index = some i
  calls_eq : ∀ calls : σ → Nat, (∀ x, calls (TokenSource.next x).2 = calls x + 1) →
    calls s.source = calls source + s.buffer.size

variable {source : σ}

lemma tally_ofSource (source : σ) (channel : Channel) (name : String) :
    Tally source (ofSource source channel name) :=
  ⟨fun i t h => by simp [ofSource] at h, fun calls _ => by simp [ofSource]⟩

omit [TokenSource σ] in
lemma index_receive (s : TokenStream σ) (t : Token) :
    ∃ t' : Token, t'.index = some s.buffer.size ∧ (s.receive t).buffer = s.buffer.push t' ∧
      (s.receive t).source = s.source :=
  ⟨{ t with
      channel := if t.isEof then s.channel else t.channel
      index := some s.buffer.size }, rfl, rfl, rfl⟩

/-- A pull is one call of the source and one token. -/
lemma pull_source (h : s.exhausted = false) :
    ∃ t : Token, t.index = some s.buffer.size ∧ s.pull.buffer = s.buffer.push t ∧
      s.pull.source = (TokenSource.next s.source).2 := by
  rw [pull, if_neg (by simp [h])]
  split
  · rename_i t source hnext
    obtain ⟨t', hindex, hbuffer, hsource⟩ := index_receive { s with source } t
    exact ⟨t', hindex, hbuffer, by rw [hsource, hnext]⟩
  · rename_i source hnext
    obtain ⟨t', hindex, hbuffer, hsource⟩ := index_receive { s with source } s.closingToken
    exact ⟨t', hindex, hbuffer, by rw [hsource, hnext]⟩

lemma Tally.pull (hs : Tally source s) (h : s.exhausted = false) : Tally source s.pull := by
  obtain ⟨t, hindex, hbuffer, hsource⟩ := pull_source h
  constructor
  · intro i u hu
    rw [hbuffer, Array.getElem?_push] at hu
    split at hu
    · rename_i hi
      obtain rfl := Option.some.inj hu
      rw [hindex, hi]
    · exact hs.index_eq i u hu
  · intro calls hcalls
    rw [hsource, hcalls, hs.calls_eq calls hcalls, hbuffer, Array.size_push]
    omega

lemma Tally.moved (hs : Tally source s) (place : Nat) (started : Bool) (marks : MarkStack Nat) :
    Tally source { s with place, started, marks } :=
  ⟨hs.index_eq, hs.calls_eq⟩

/-! ## Main result -/

/-- **A lazy stream answers as a filled one does.**  The requests are any that can be made of a
stream, in any order and number, on any source and channel; the second stream has pulled all
tokens before the first request is made.

Both give the same answers.  Moreover, whatever was asked, the source was called once for each
buffered token, so never for a token that nobody has needed; the tokens carry their places as
indices; the end of input is the last of them, and is there if and only if the source is
exhausted; and a cursor that was put on a token is on one of the channel or on the end of input. -/
theorem converse_lazy (source : σ) (channel : Channel) (name : String) (requests : List Request) :
    ((ofSource source channel name).converse requests).1 =
        ((ofSource source channel name).fill.converse requests).1 ∧
      let s := ((ofSource source channel name).converse requests).2
      (∀ calls : σ → Nat, (∀ x, calls (TokenSource.next x).2 = calls x + 1) →
        calls s.source = calls source + s.buffer.size) ∧
      (∀ (i : Nat) (t : Token), s.buffer[i]? = some t →
        t.index = some i ∧ (t.isEof = true → i + 1 = s.buffer.size)) ∧
      ((∃ t ∈ s.buffer, t.isEof = true) ↔ s.exhausted = true) ∧
      (s.started = true → ∃ t, s.buffer[s.place]? = some t ∧
        (t.channel = channel ∨ t.isEof = true)) := by
  have hfresh := orderly_ofSource source channel name
  have horderly := converse_orderly hfresh requests
  have htally : Tally source ((ofSource source channel name).converse requests).2 :=
    converse_keeps (fun _ hmore hs => hs.pull hmore) (fun _ place started marks hs =>
      hs.moved place started marks) (tally_ofSource source channel name) requests
  have hchannel : ((ofSource source channel name).converse requests).2.channel = channel :=
    converse_keeps (P := fun s => s.channel = channel)
      (fun s _ hs => (keeps_of_fill (fill_pull s)).2.1.trans hs) (fun _ _ _ _ hs => hs) rfl requests
  have hsound := horderly.coherent.sound
  refine ⟨by rw [converse_fill hfresh], htally.calls_eq, fun i t ht => ?_, ?_, fun hstarted => ?_⟩
  · exact ⟨htally.index_eq i t ht, fun heof => (hsound.last_of_isEof i t ht heof).1⟩
  · constructor
    · rintro ⟨t, ht, heof⟩
      obtain ⟨i, hi⟩ := Array.mem_iff_getElem?.1 ht
      exact (hsound.last_of_isEof i t hi heof).2
    · intro hdone
      obtain ⟨t, ht, heof⟩ := hsound.isEof_of_exhausted hdone
      exact ⟨t, Array.mem_of_back? ht, heof⟩
  · have hon := horderly.onToken hstarted
    obtain ⟨t, ht, hstands⟩ := hon.stands
    rw [getElem?_fill hon.buffered] at ht
    exact ⟨t, ht, hchannel ▸ hstands⟩

/-- A source that counts how often a token was asked of it. -/
structure Counted (σ : Type) where
  source : σ
  calls : Nat

instance : TokenSource (Counted σ) where
  next s := ((TokenSource.next s.source).1, ⟨(TokenSource.next s.source).2, s.calls + 1⟩)
  remaining s := TokenSource.remaining s.source
  remaining_next h := by
    obtain ⟨htoken, rfl⟩ := Prod.mk.inj h
    exact TokenSource.remaining_next (Prod.ext htoken rfl)

/-- Two tokens with a hidden one between them. -/
def hiddenBetween : Counted (List Token) where
  source := [.ofText 4 "a", { Token.ofText 5 " " with channel := .hidden }, .ofText 4 "b"]
  calls := 0

/-- A client of `hiddenBetween` that reads and seeks past the end and comes back. -/
def roundTrip : List Request :=
  [.mark, .type 2, .consume, .symbol, .seek 7, .type (-1), .rewind ⟨0, 0⟩, .text 0 9]

theorem converse_lazy_roundTrip :
    let s := ((ofSource hiddenBetween .default "list").converse roundTrip).2
    s.started = true ∧ s.source.calls = 4 ∧ s.buffer.size = 4 ∧ s.source.calls = s.buffer.size ∧
      ∃ t, s.buffer[s.place]? = some t ∧ (t.channel = .default ∨ t.isEof = true) := by
  obtain ⟨-, hcalls, -, -, hstands⟩ := converse_lazy hiddenBetween .default "list" roundTrip
  have hstarted :
      ((ofSource hiddenBetween .default "list").converse roundTrip).2.started = true := by
    decide +kernel
  have hsize :
      ((ofSource hiddenBetween .default "list").converse roundTrip).2.buffer.size = 4 := by
    decide +kernel
  have hcounted := (hcalls Counted.calls fun _ => rfl).trans (Nat.zero_add _)
  exact ⟨hstarted, hcounted.trans hsize, hsize, hcounted, hstands hstarted⟩

end Lookahead.TokenStream
