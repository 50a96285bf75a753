import Lookahead.Stream.Cursor
import Lookahead.Stream.Source

/-!
# Token streams

A token stream buffers the tokens of a source.  It pulls a token only when a lookahead, a move or a
text reaches past the buffer, and keeps what it has pulled, so that saved places stay valid.  The
last token of a complete buffer is the end of input: the source's own, or else one that is put right
behind the last token.

The stream is tuned to one channel.  Tokens of other channels stay in the buffer and in the text,
but lookahead and moves step over them.

`pull` moves one token from the source to the buffer and `fillTo` repeats it; both decrease
`unread`, the number of tokens that are still to come.
-/

namespace Lookahead

/-- A buffer over a source of tokens, with a cursor and with the places that marks have saved. -/
structure TokenStream (σ : Type) where
  /-- The source, with the tokens that are not buffered yet. -/
  source : σ
  /-- The tokens that were pulled, each of which knows its place here. -/
  buffer : Array Token
  place : Nat
  /-- The channel whose tokens lookahead and moves go by. -/
  channel : Channel
  /-- Has the cursor been put on a token of the channel? -/
  started : Bool
  /-- Is the end of input in the buffer? -/
  exhausted : Bool
  marks : MarkStack Nat
  name : String

namespace TokenStream

variable {σ : Type}

/-- The stream over a source, with nothing pulled and the cursor not put on a token yet. -/
def ofSource (source : σ) (channel : Channel) (name : String) : TokenStream σ :=
  { source, buffer := #[], place := 0, channel, started := false, exhausted := false,
    marks := .empty, name }

/-! ## Pulling tokens -/

/-- The end of input right behind the last buffered token. -/
def closingToken (s : TokenStream σ) : Token :=
  match s.buffer.back? with
  | some last => .endOfInput last.span.stop last.endPosition
  | none => .endOfInput 0 .start

theorem isEof_closingToken (s : TokenStream σ) : s.closingToken.isEof = true := by
  unfold closingToken
  split <;> rfl

/-- Put a token at the end of the buffer.  The end of input is on every stream's channel, and
nothing comes behind it. -/
def receive (s : TokenStream σ) (t : Token) : TokenStream σ :=
  let token := { t with
    channel := if t.isEof then s.channel else t.channel
    index := some s.buffer.size }
  { s with buffer := s.buffer.push token, exhausted := s.exhausted || t.isEof }

variable [TokenSource σ]

/-- Pull one token, or the end of input where the source has none left. A buffer that has the end of
input is complete. -/
def pull (s : TokenStream σ) : TokenStream σ :=
  if s.exhausted then s
  else match TokenSource.next s.source with
    | (some t, source) => { s with source }.receive t
    | (none, source) => { s with source }.receive s.closingToken

/-- An upper bound on the number of tokens still to be pulled, the end of input included. -/
def unread (s : TokenStream σ) : Nat :=
  if s.exhausted then 0 else TokenSource.remaining s.source + 1

theorem unread_pull (s : TokenStream σ) (h : s.exhausted = false) : s.pull.unread < s.unread := by
  simp only [pull, h, unread, Bool.false_eq_true, if_false]
  split
  · rename_i t source hnext
    have hlt := TokenSource.remaining_next hnext
    cases ht : t.isEof <;> simp [receive, ht, hlt]
  · simp [receive, isEof_closingToken]

/-- Pull until place `i` is buffered, or the end of input. -/
def fillTo (s : TokenStream σ) (i : Nat) : TokenStream σ :=
  if s.buffer.size ≤ i ∧ s.exhausted = false then s.pull.fillTo i else s
termination_by s.unread
decreasing_by exact unread_pull s (by simp_all)

/-- Pull all that the source has left. -/
def fill (s : TokenStream σ) : TokenStream σ :=
  if s.exhausted = false then s.pull.fill else s
termination_by s.unread
decreasing_by exact unread_pull s (by simp_all)

/-- An upper bound on the length of the complete buffer. -/
def bound (s : TokenStream σ) : Nat := s.buffer.size + s.unread

theorem bound_pull (s : TokenStream σ) : s.pull.bound ≤ s.bound := by
  cases h : s.exhausted with
  | true => simp [pull, h]
  | false =>
    have hlt := unread_pull s h
    have hsize : s.pull.buffer.size = s.buffer.size + 1 := by
      simp only [pull, h, Bool.false_eq_true, if_false]
      split <;> simp [receive]
    simp only [bound]
    omega

theorem bound_fillTo (s : TokenStream σ) (i : Nat) : (s.fillTo i).bound ≤ s.bound := by
  fun_induction fillTo s i with
  | case1 s _ ih => exact Nat.le_trans ih (bound_pull s)
  | case2 s _ => exact Nat.le_refl _

/-- The first place from `i` on that holds a token of the channel or the end of input.  Past the
end of input it is the last place. -/
def skipFrom (s : TokenStream σ) (i : Nat) : Nat × TokenStream σ :=
  let filled := s.fillTo i
  match h : filled.buffer[i]? with
  | some t =>
    if t.channel ≠ filled.channel ∧ t.isEof = false then filled.skipFrom (i + 1) else (i, filled)
  | none => (filled.buffer.size - 1, filled)
termination_by s.bound - i
decreasing_by
  have hb := bound_fillTo s i
  have hi : i < (s.fillTo i).buffer.size := (Array.getElem?_eq_some_iff.1 h).1
  simp only [bound] at hb ⊢
  omega

/-- Put the cursor of a fresh stream on its first token. -/
def start (s : TokenStream σ) : TokenStream σ :=
  if s.started then s
  else
    let (place, s) := { s with started := true }.skipFrom 0
    { s with place }

/-! ## Reading -/

/-- The place of the token `steps` tokens behind the one at place `i`, but not past the end of
input. -/
def ahead (s : TokenStream σ) : Nat → Nat → Nat × TokenStream σ
  | 0, i => (i, s)
  | steps + 1, i =>
    if (s.buffer[i]?.map Token.isEof).getD false then (i, s)
    else
      let (j, s) := s.skipFrom (i + 1)
      s.ahead steps j

/-- The token `k` channel tokens in front of place `i`. -/
def behind (s : TokenStream σ) : Nat → Nat → Option Token
  | 0, i => s.buffer[i]?
  | _ + 1, 0 => none
  | k + 1, i + 1 =>
    if (s.buffer[i]?.map (·.channel == s.channel)).getD false then s.behind k i
    else s.behind (k + 1) i

/-- The token `k` channel tokens in front of the cursor. -/
def lookBehind (s : TokenStream σ) (k : Nat) : Option Token × TokenStream σ :=
  let s := s.start
  (s.behind k s.place, s)

/-- The token `k` channel tokens from the cursor: the current one at 1, the previous one at -1, none
at 0. Behind the last token there is the end of input. -/
def tokenAt (s : TokenStream σ) (k : Int) : Option Token × TokenStream σ :=
  let s := s.start
  if k = 0 then (none, s)
  else if k < 0 then s.lookBehind k.natAbs
  else
    let (i, s) := s.ahead (k - 1).toNat s.place
    (s.buffer[i]?, s)

/-- The texts of some tokens in a row, without the end of input. -/
def textOf (tokens : List Token) : String :=
  String.join ((tokens.filter fun t => !t.isEof).map Token.text)

/-- The text from place `first` to place `last`, tokens of all channels included. -/
def text (s : TokenStream σ) (first last : Nat) : String × TokenStream σ :=
  let s := s.fillTo last
  (textOf ((s.buffer.toList.drop first).take (last + 1 - first)), s)

/-- The text of the whole input, which is pulled for it. -/
def fullText (s : TokenStream σ) : String × TokenStream σ :=
  let s := s.fill
  s.text 0 (s.buffer.size - 1)

/-- The current token. -/
def symbol (s : TokenStream σ) : Token × TokenStream σ :=
  let (token, s) := s.tokenAt 1
  (token.getD s.closingToken, s)

/-! ## Moving -/

/-- Move to the first channel token from place `i` on, or to the end of input. -/
def seek (s : TokenStream σ) (i : Nat) : TokenStream σ :=
  let (place, s) := { s with started := true }.skipFrom i
  { s with place }

/-- Move to the next channel token, unless the input is at its end. -/
def consume (s : TokenStream σ) : TokenStream σ :=
  let s := s.start
  if (s.buffer[s.place]?.map fun t => !t.isEof).getD false then
    let (place, s) := s.skipFrom (s.place + 1)
    { s with place }
  else s

instance : Cursor (TokenStream σ) where
  lookahead s k :=
    let (token, s) := s.tokenAt k
    ((token.map Token.type).getD .invalid, s)
  consume := consume
  index s := s.place
  seek := seek
  mark s :=
    let s := s.start
    let (m, marks) := s.marks.push s.place
    (m, { s with marks })
  rewind s m := (s.marks.rewind m).map fun (place, marks) => { s with marks }.seek place
  release s m := (s.marks.release m).map fun marks => { s with marks }
  markDepth s := s.marks.depth
  sourceName s := s.name
  symbol := symbol

end TokenStream

end Lookahead
