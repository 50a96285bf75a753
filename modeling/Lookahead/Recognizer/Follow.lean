import Lookahead.TokenSet

/-!
# Follow sets of the call stack

Every rule invocation on the stack has a follow set: the types that may stand behind it at its call
site.  Two unions of them steer error recovery.  The *recovery set* is the union over the whole
stack.  The *exact follow set* goes outwards only as long as each rule can end at the call in it,
which its follow set says by holding `endOfRule`.

Both are functions of the follow sets alone, innermost first.  `FollowCache` keeps what was computed
by the *signature* of the stack, a hash of 64 bits.  So the union that is given for a stack may be
that of another one with the same signature (`FollowCache.query_fst`).
-/

namespace Lookahead

/-- A grammar rule, by its number in the grammar and its name in messages. -/
structure Rule where
  index : Nat
  name : String
  deriving DecidableEq, Repr, Inhabited

/-- A rule invocation on the call stack. -/
structure Frame where
  rule : Rule
  /-- The types that may stand behind the invocation at its call site. -/
  follow : TokenSet
  /-- Where in the input the rule started. -/
  startIndex : Nat
  deriving DecidableEq, Repr, Inhabited

/-- Add the follow sets of a whole stack, innermost first. -/
def recoveryUnion (set : TokenSet) : List TokenSet → TokenSet
  | [] => set
  | follow :: outer => recoveryUnion (set.union follow) outer

/-- Add the follow sets of a stack, innermost first, up to the first rule that cannot end there.
The marker for the end of a rule stays only if even the outermost rule can end. -/
def exactUnion (set : TokenSet) : List TokenSet → TokenSet
  | [] => set
  | follow :: outer =>
    let set := set.union follow
    if follow.has .endOfRule then
      exactUnion (if outer.isEmpty then set else set.eraseType .endOfRule) outer
    else set

/-- The recovery set of a stack, or its exact follow set, from its follow sets, innermost first. -/
def combinedFollow (exact : Bool) (follows : List TokenSet) : TokenSet :=
  if exact then exactUnion (.ofWidth 0) follows else recoveryUnion (.ofWidth 0) follows

/-- The rules and follow sets of a stack, innermost first: what a union is computed from, and more
than it depends on. -/
abbrev StackShape := List (Nat × TokenSet)

/-- The shape of a stack, in which the places where its rules started do not count. -/
def shapeOf (frames : List Frame) : StackShape := frames.map fun f => (f.rule.index, f.follow)

/-! ## Signatures -/

/-- How stacks get signatures: the empty one has `root`, and a frame gets its own from the
signature below it, the number of its rule, and its follow set. -/
structure Signing (κ : Type) where
  root : κ
  extend : κ → Nat → TokenSet → κ

/-- The signature of a stack, built up from that of the empty one, outermost frame first. -/
def Signing.ofShape {κ : Type} (g : Signing κ) : StackShape → κ
  | [] => g.root
  | (rule, follow) :: outer => g.extend (g.ofShape outer) rule follow

/-! Signatures have 64 bits.  That of a frame is a multiplicative hash of the signature below it,
the number of its rule, and the words of its follow set up to the last one that is not zero. -/

namespace Signature

/-- Take one word into a hash: add it, and multiply by an odd constant. -/
def mix (hash word : BitVec 64) : BitVec 64 := (hash + word) * 0xf1357aea2e62a9c5#64

/-- Multiply two words to 128 bits, and take the two halves of the product together by exclusive
or. -/
def foldedProduct (a b : BitVec 64) : BitVec 64 :=
  let product := a.setWidth 128 * b.setWidth 128
  product.setWidth 64 ^^^ (product >>> 64).setWidth 64

/-- Take in words by pairs, as long as more than two are left; the two halves of the hash change
places with each pair. -/
def absorb (a b : BitVec 64) : List (BitVec 64) → BitVec 64 × BitVec 64
  | x :: y :: z :: rest =>
    absorb b (foldedProduct (a ^^^ x) (0xa4093822299f31d0#64 ^^^ y)) (z :: rest)
  | _ => (a, b)

/-- The hash of words that lie behind each other in memory.  The last two are taken in last, even
if one of them was taken in before. -/
def ofWords (words : List (BitVec 64)) : BitVec 64 :=
  let (a, b) := absorb 0x243f6a8885a308d3#64 0x13198a2e03707344#64 words
  let first := (words.drop (words.length - 2)).headD 0
  let last := words.getLastD 0
  foldedProduct (a ^^^ first) (b ^^^ last) ^^^ BitVec.ofNat 64 (8 * words.length)

/-- The hash of a frame over the stack below it, whose own hash is the first of the words that are
mixed. -/
def ofFrame (parent : BitVec 64) (index : Nat) (follow : TokenSet) : BitVec 64 :=
  let words := [parent, BitVec.ofNat 64 index, BitVec.ofNat 64 follow.key.length,
    ofWords follow.key]
  (words.foldl mix 0).rotateLeft 26

end Signature

/-- How recognizers sign their stacks. The empty one has hash 0, and every frame hashes in what is
below it. -/
def Signing.hashed : Signing (BitVec 64) := ⟨0, Signature.ofFrame⟩

/-! ## Unions that are known -/

/-- A union that was computed before, with the stack that it was computed for, so that what it is
does not have to be proved again. -/
structure KnownUnion where
  shape : StackShape
  exact : Bool
  set : TokenSet
  set_eq : set = combinedFollow exact (shape.map Prod.snd)

/-- The union for a stack, computed now. -/
def KnownUnion.of (shape : StackShape) (exact : Bool) : KnownUnion :=
  ⟨shape, exact, combinedFollow exact (shape.map Prod.snd), rfl⟩

/-- The unions that were computed before, the last one first.  They are known by signature, so that
one that was computed for a stack is also given for others that have the same. -/
structure FollowCache where
  signing : Signing (BitVec 64)
  known : List KnownUnion

namespace FollowCache

def empty : FollowCache := ⟨.hashed, []⟩

instance : Inhabited FollowCache := ⟨empty⟩

/-- The union that is known by the signature of a stack, which may have been computed for another
stack of that signature. -/
def find? (c : FollowCache) (shape : StackShape) (exact : Bool) : Option KnownUnion :=
  c.known.find? fun u => c.signing.ofShape u.shape == c.signing.ofShape shape && u.exact == exact

/-- The union for a stack, and the cache that knows it. What is known by the signature is not
computed again, nor compared with the stack. -/
def query (c : FollowCache) (shape : StackShape) (exact : Bool) : TokenSet × FollowCache :=
  match c.find? shape exact with
  | some u => (u.set, c)
  | none =>
    let u := KnownUnion.of shape exact
    (u.set, { c with known := u :: c.known })

/-- The stack for which the union was computed that is given for a stack: the stack itself, if no
union is known by its signature. -/
def taken (c : FollowCache) (shape : StackShape) (exact : Bool) : StackShape :=
  ((c.find? shape exact).map KnownUnion.shape).getD shape

theorem query_fst (c : FollowCache) (shape : StackShape) (exact : Bool) :
    (c.query shape exact).1 = combinedFollow exact ((c.taken shape exact).map Prod.snd) := by
  unfold query taken
  rcases hfind : c.find? shape exact with _ | u
  · rfl
  · have hexact : u.exact = exact := by
      have hfound := List.find?_some hfind
      simp only [Bool.and_eq_true, beq_iff_eq] at hfound
      exact hfound.2
    simp only [u.set_eq, hexact, Option.map_some, Option.getD_some]

/-- The stack whose union is given has the signature of the stack that it is given for. -/
theorem ofShape_taken (c : FollowCache) (shape : StackShape) (exact : Bool) :
    c.signing.ofShape (c.taken shape exact) = c.signing.ofShape shape := by
  unfold taken
  rcases hfind : c.find? shape exact with _ | u
  · rfl
  · have hfound := List.find?_some hfind
    simp only [Bool.and_eq_true, beq_iff_eq] at hfound
    exact hfound.1

end FollowCache

end Lookahead
