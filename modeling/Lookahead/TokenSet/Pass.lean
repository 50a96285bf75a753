import Lookahead.TokenSet

/-!
# Passes over a token set

A pass delivers the positions of a set one by one.  It holds what is left of the word that it is at,
takes off the lowest position each time, and goes to the next word when nothing is left.
-/

namespace Lookahead.TokenSet

/-- A pass over the positions of a set, as far as it has come. -/
structure Pass where
  /-- The words of the set, none of which the pass changes. -/
  words : Array (BitVec 64)
  /-- The number of the word that the pass is at. -/
  place : Nat
  /-- What is left of this word: the positions that the pass has not delivered. -/
  pending : BitVec 64
  deriving DecidableEq, Repr

/-- The pass over a set at its start, in front of the lowest position. -/
def pass (s : TokenSet) : Pass := ⟨s.words, 0, s.word 0⟩

/-- The next position, and the pass behind it; none at the end, once all positions were
delivered. -/
def Pass.next (p : Pass) : Option Nat × Pass :=
  if p.pending = 0 then
    if h : p.place + 1 < p.words.size then
      Pass.next { p with place := p.place + 1, pending := p.words[p.place + 1] }
    else (none, { p with place := p.place + 1 })
  else
    (some (64 * p.place + p.pending.ctz.toNat),
      { p with pending := p.pending &&& (p.pending - 1) })
termination_by p.words.size - p.place

end Lookahead.TokenSet
