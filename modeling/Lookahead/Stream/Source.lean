import Lookahead.Token

/-!
# Token sources

A source hands out tokens one after another until it has none left.  Nothing is known of a token
before it is asked for, so a source may be far longer than what is ever taken from it.  `remaining`
bounds the number of tokens that are left, and goes down with each of them; this is what ends every
loop over a source.

A list of tokens is a source.  So is a lexer, in `Lookahead.Lexer.Source`.
-/

namespace Lookahead

/-- Something that tokens can be taken from, of which there are only finitely many. -/
class TokenSource (σ : Type) where
  /-- Take the next token; there is none at the end. -/
  next : σ → Option Token × σ
  /-- An upper bound on the number of tokens that are left. -/
  remaining : σ → Nat
  /-- Every token that is taken lowers the bound. -/
  remaining_next : ∀ {s s' : σ} {t : Token}, next s = (some t, s') → remaining s' < remaining s

namespace TokenSource

instance : TokenSource (List Token) where
  next
    | [] => (none, [])
    | t :: rest => (some t, rest)
  remaining := List.length
  remaining_next {s s' t} h := by
    cases s with
    | nil => simp at h
    | cons head rest =>
      obtain ⟨_, rfl⟩ := Prod.mk.inj h
      simp

variable {σ : Type} [TokenSource σ]

/-- Take all tokens that are left, and return what is left of the source. -/
def drain (s : σ) : List Token × σ :=
  match _h : next s with
  | (some t, rest) =>
    let (tokens, s) := drain rest
    (t :: tokens, s)
  | (none, s) => ([], s)
termination_by remaining s
decreasing_by exact remaining_next _h

theorem drain_list (tokens : List Token) : drain tokens = (tokens, []) := by
  induction tokens with
  | nil => rw [drain]; rfl
  | cons t rest ih =>
    rw [drain]
    simp only [next, ih]

end TokenSource

end Lookahead
