import Lookahead.Misuse

/-!
# Token sets

A `TokenSet` is a set of bit positions kept in 64-bit words.  Follow sets, recovery sets and the
expected sets of failures are token sets.  Position 0 stands for the end of input, because no token
has type 0; a type `t ≥ 1` stands at position `t`.

The number of words is a matter of storage: `s.test n` is the same for every width, and `sameAs`
compares sets by it.  The small lemmas beside each operation say what the operation does to `test`.
-/

namespace Lookahead

/-- A set of bit positions, in words of 64 bits. -/
structure TokenSet where
  /-- Word `i` holds the positions from `64 * i` on. -/
  words : Array (BitVec 64)
  deriving DecidableEq, Repr, Inhabited

namespace TokenSet

/-- How many words hold `bits` positions. -/
def wordsFor (bits : Nat) : Nat := (bits + 63) / 64

/-- The set with no positions, wide enough for `bits` of them and never without a word. -/
def ofWidth (bits : Nat) : TokenSet := ⟨Array.replicate (max 1 (wordsFor bits)) 0⟩

/-- The set with no positions and no words. -/
def bare : TokenSet := ⟨#[]⟩

/-- Word `i`, which is zero past the last word. -/
def word (s : TokenSet) (i : Nat) : BitVec 64 := s.words.getD i 0

/-- Is position `n` in the set?  Positions past the last word are not. -/
def test (s : TokenSet) (n : Nat) : Bool := (s.word (n / 64)).getLsbD (n % 64)

instance : Membership Nat TokenSet := ⟨fun s n => s.test n = true⟩

instance (s : TokenSet) (n : Nat) : Decidable (n ∈ s) :=
  inferInstanceAs (Decidable (s.test n = true))

@[simp] theorem test_bare (n : Nat) : bare.test n = false := by
  simp [test, word, bare]

@[simp] theorem test_ofWidth (bits n : Nat) : (ofWidth bits).test n = false := by
  simp only [test, word, ofWidth, Array.getD_eq_getD_getElem?, Array.getElem?_replicate]
  split <;> simp

/-- The number of words. -/
def size (s : TokenSet) : Nat := s.words.size

/-- The set in at least as many words as hold `bits` positions. -/
def growTo (s : TokenSet) (bits : Nat) : TokenSet :=
  ⟨s.words ++ Array.replicate (wordsFor bits - s.words.size) 0⟩

theorem word_growTo (s : TokenSet) (bits i : Nat) : (s.growTo bits).word i = s.word i := by
  simp only [word, growTo, Array.getD_eq_getD_getElem?, Array.getElem?_append]
  split
  · rfl
  · rename_i h
    have hi : s.words.size ≤ i := by omega
    rw [Array.getElem?_eq_none hi, Array.getElem?_replicate]
    split <;> rfl

@[simp] theorem test_growTo (s : TokenSet) (bits n : Nat) : (s.growTo bits).test n = s.test n := by
  rw [test, word_growTo, test]

@[simp] theorem size_growTo (s : TokenSet) (bits : Nat) :
    (s.growTo bits).size = max s.size (wordsFor bits) := by
  simp only [size, growTo, Array.size_append, Array.size_replicate]
  omega

/-- The set with position `n`, in words enough to hold it. -/
def insert (s : TokenSet) (n : Nat) : TokenSet :=
  ⟨(s.growTo (n + 1)).words.modify (n / 64) (· ||| BitVec.twoPow 64 (n % 64))⟩

theorem test_insert (s : TokenSet) (n m : Nat) :
    (s.insert n).test m = (s.test m || decide (m = n)) := by
  have hsize : n / 64 < (s.growTo (n + 1)).words.size := by
    have h := size_growTo s (n + 1)
    simp only [size, wordsFor] at h
    omega
  have hgrow := word_growTo s (n + 1) (m / 64)
  by_cases hword : n / 64 = m / 64
  · rw [test, word, insert, Array.getD_eq_getD_getElem?, Array.getElem?_modify, if_pos hword]
    rw [word, Array.getD_eq_getD_getElem?] at hgrow
    rw [hword] at hsize
    rw [Array.getElem?_eq_getElem hsize] at hgrow ⊢
    simp only [Option.getD_some, Option.map_some] at hgrow ⊢
    rw [hgrow, BitVec.getLsbD_or, BitVec.getLsbD_twoPow, test]
    have hmod : (n % 64 = m % 64) ↔ m = n := by omega
    simp [hmod, Nat.mod_lt]
  · rw [test, word, insert, Array.getD_eq_getD_getElem?, Array.getElem?_modify, if_neg hword,
      ← Array.getD_eq_getD_getElem?, ← word, hgrow, ← test]
    have hne : m ≠ n := fun h => hword (h ▸ rfl)
    simp [hne]

/-- The set without position `n`.  It keeps its width. -/
def erase (s : TokenSet) (n : Nat) : TokenSet :=
  ⟨s.words.modify (n / 64) (· &&& ~~~(BitVec.twoPow 64 (n % 64)))⟩

theorem test_erase (s : TokenSet) (n m : Nat) :
    (s.erase n).test m = (s.test m && decide (m ≠ n)) := by
  by_cases hword : n / 64 = m / 64
  · rw [test, word, erase, Array.getD_eq_getD_getElem?, Array.getElem?_modify, if_pos hword, test,
      word, Array.getD_eq_getD_getElem?]
    cases s.words[m / 64]? with
    | none => simp
    | some w =>
      have hmod : (m % 64 = n % 64) ↔ m = n := by omega
      simp [hmod, Nat.mod_lt]
  · rw [test, word, erase, Array.getD_eq_getD_getElem?, Array.getElem?_modify, if_neg hword,
      ← Array.getD_eq_getD_getElem?, ← word, ← test]
    have hne : m ≠ n := fun h => hword (h ▸ rfl)
    simp [hne]

/-- The words up to the last one that is not zero: a form that does not depend on the width. -/
def key (s : TokenSet) : List (BitVec 64) :=
  (s.words.toList.reverse.dropWhile (· == 0)).reverse

/-- The words past the last one that is not zero are zero. -/
theorem words_eq_key_append (s : TokenSet) :
    ∃ k, s.words.toList = s.key ++ List.replicate k 0 := by
  refine ⟨(s.words.toList.reverse.takeWhile (· == 0)).length, ?_⟩
  have hzero : s.words.toList.reverse.takeWhile (· == 0)
      = List.replicate (s.words.toList.reverse.takeWhile (· == 0)).length 0 := by
    rw [List.eq_replicate_iff]
    refine ⟨rfl, fun w hw => ?_⟩
    have hmem := List.all_takeWhile (p := (· == (0 : BitVec 64))) (l := s.words.toList.reverse)
    exact eq_of_beq (List.all_eq_true.1 hmem w hw)
  have hsplit := List.takeWhile_append_dropWhile (p := (· == (0 : BitVec 64)))
    (l := s.words.toList.reverse)
  have hrev := congrArg List.reverse hsplit
  rw [List.reverse_append, List.reverse_reverse, hzero, List.reverse_replicate] at hrev
  exact hrev.symm

theorem word_eq_zero_of_key_length_le (s : TokenSet) {i : Nat} (h : s.key.length ≤ i) :
    s.word i = 0 := by
  obtain ⟨k, hk⟩ := s.words_eq_key_append
  rw [word, Array.getD_eq_getD_getElem?, ← Array.getElem?_toList, hk,
    List.getElem?_append_right h, List.getElem?_replicate]
  split <;> rfl

/-- The positions of either set.  The width grows as far as the last word of `t` that is not
zero, and no further. -/
def union (s t : TokenSet) : TokenSet :=
  ⟨(s.growTo (64 * t.key.length)).words.mapIdx fun i w => w ||| t.word i⟩

theorem test_union (s t : TokenSet) (n : Nat) : (s.union t).test n = (s.test n || t.test n) := by
  have hgrow := word_growTo s (64 * t.key.length) (n / 64)
  rw [word, Array.getD_eq_getD_getElem?] at hgrow
  rw [test, word, union, Array.getD_eq_getD_getElem?, Array.getElem?_mapIdx, test, test]
  cases hw : (s.growTo (64 * t.key.length)).words[n / 64]? with
  | some w =>
    rw [hw, Option.getD_some] at hgrow
    rw [Option.map_some, Option.getD_some, BitVec.getLsbD_or, hgrow]
  | none =>
    have hsize := size_growTo s (64 * t.key.length)
    have hle := Array.getElem?_eq_none_iff.1 hw
    simp only [size, wordsFor] at hsize
    rw [hw] at hgrow
    rw [t.word_eq_zero_of_key_length_le (by omega), ← hgrow]
    simp

/-- The positions of one word, ascending. -/
def wordMembers (w : BitVec 64) : List Nat :=
  if w == 0 then [] else (List.range 64).filter w.getLsbD

/-- The positions of the set, ascending. -/
def toList (s : TokenSet) : List Nat :=
  s.words.toList.zipIdx.flatMap fun (w, i) => (wordMembers w).map (64 * i + ·)

/-- The number of positions in the set. -/
def count (s : TokenSet) : Nat :=
  s.words.toList.foldr (fun w n => (wordMembers w).length + n) 0

/-- Has the set no positions? -/
def isNil (s : TokenSet) : Bool := s.words.all (· == 0)

/-- Do two sets have the same positions, whatever their widths? -/
def sameAs (s t : TokenSet) : Bool :=
  (List.range (max s.size t.size)).all fun i => s.word i == t.word i

def render (s : TokenSet) : String :=
  "\x7b" ++ String.intercalate ", " (s.toList.map toString) ++ "\x7d"

/-! ## Positions given as integers -/

/-- The position that an integer names; one below zero names none. -/
def position (bit : Int) : Except Misuse Nat :=
  if bit < 0 then .error (.negativeBit bit) else .ok bit.toNat

/-- The set with the position that an integer names. -/
def insertBit (s : TokenSet) (bit : Int) : Except Misuse TokenSet :=
  (position bit).map s.insert

/-- The set without position `bit`. -/
def eraseBit (s : TokenSet) (bit : Int) : Except Misuse TokenSet :=
  (position bit).map s.erase

def testBit (s : TokenSet) (bit : Int) : Except Misuse Bool :=
  (position bit).map s.test

/-! ## Token types -/

/-- The position of a token type.  The end of input has position 0, which no token type has;
type 0 and the other types below zero have none. -/
def slot (t : TokenType) : Option Nat :=
  if t = .eof then some 0 else if t ≤ 0 then none else some t.toNat

/-- The token type that stands at a position. -/
def typeAt (n : Nat) : TokenType := if n = 0 then .eof else n

/-- The set with a token type; a type without a position is not added. -/
def insertType (s : TokenSet) (t : TokenType) : TokenSet :=
  match slot t with
  | some n => s.insert n
  | none => s

/-- The set without token type `t`. -/
def eraseType (s : TokenSet) (t : TokenType) : TokenSet :=
  match slot t with
  | some n => s.erase n
  | none => s

/-- Is a token type in the set? A type without a position is not. -/
def has (s : TokenSet) (t : TokenType) : Bool :=
  match slot t with
  | some n => s.test n
  | none => false

/-- The token types of the set, in the order of their positions. -/
def types (s : TokenSet) : List TokenType := s.toList.map typeAt

/-- The set of the given token types. -/
def ofTypes (ts : List TokenType) : TokenSet := ts.foldl insertType (ofWidth 0)

end TokenSet

end Lookahead
