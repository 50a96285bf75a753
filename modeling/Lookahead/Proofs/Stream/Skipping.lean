import Lookahead.Proofs.Stream.Abreast

/-!
# Where skipping ends

Skipping passes over tokens of the channel until it comes to one at which to stop, or to the end of
input (`skips_skipUntil`).  There is always fuel enough for that, since no step goes past the end
(`size_fill_le_bound`).

`FirstAt` says the same without the stream: of the places from some place on, this is the first that
holds a token of the channel with some property (`Skips.firstAt`).
-/

namespace Lookahead.TokenStream

open Cursor
open Cursor.View (Ready)

variable {σ : Type} [TokenSource σ] {s s' : TokenStream σ} {stopAt : TokenType → Bool}
  {input : Array Token × Channel} {i j n : Nat} {t : Token}

/-! ## Tokens between places -/

lemma mem_tokensBetween : t ∈ tokensBetween input i j ↔
    ∃ k, i ≤ k ∧ k < j ∧ input.1[k]? = some t ∧ t.channel = input.2 ∧ t.isEof = false := by
  have hmem : t ∈ tokensBetween input i j ↔
      (∃ k : Nat, ((input.1.toList.drop i).take (j - i))[k]? = some t) ∧ t.channel = input.2 ∧
        t.isEof = false := by
    rw [← List.mem_iff_getElem?, tokensBetween, List.mem_filter]
    simp
  have hget (k : Nat) : ((input.1.toList.drop i).take (j - i))[k]? =
      if k < j - i then input.1[i + k]? else none := by
    rw [List.getElem?_take, List.getElem?_drop, Array.getElem?_toList]
  rw [hmem]
  constructor
  · rintro ⟨⟨k, hk⟩, hchannel, heof⟩
    rw [hget] at hk
    split at hk
    · exact ⟨i + k, Nat.le_add_right i k, by omega, hk, hchannel, heof⟩
    · cases hk
  · rintro ⟨k, hik, hkj, hk, hchannel, heof⟩
    refine ⟨⟨k - i, ?_⟩, hchannel, heof⟩
    rw [hget, if_pos (by omega), Nat.add_sub_cancel' hik, hk]

/-- Of the places from `i` on where a cursor can stand, `j` is the first whose token has the
property `p`. -/
structure FirstAt (input : Array Token × Channel) (p : Token → Prop) (i j : Nat) : Prop where
  le : i ≤ j
  stands : Stands input.1 input.2 j
  here : ∃ t, input.1[j]? = some t ∧ p t
  before : ∀ k t, i ≤ k → k < j → Stands input.1 input.2 k → input.1[k]? = some t → ¬ p t

/-! ## Skipping -/

/-- From `s` to `s'` the cursor passed over `n` tokens up to one at which to stop, or to the end of
input. -/
structure Skips (stopAt : TokenType → Bool) (s : TokenStream σ) (n : Nat) (s' : TokenStream σ) :
    Prop where
  ready : s'.OnToken
  input_eq : View.input s' = View.input s
  le : s.place ≤ s'.place
  length_eq : (tokensBetween (View.input s) s.place s'.place).length = n
  passed : ∀ t ∈ tokensBetween (View.input s) s.place s'.place, stopAt t.type = false
  stops : ∃ t, s.fill.buffer[s'.place]? = some t ∧ (t.isEof = true ∨ stopAt t.type = true)

/-- The current token is read, and nothing is pulled for it. -/
lemma lookahead_one_eq (hs : s.OnToken) : ∃ t, Cursor.lookahead s 1 = (t.type, s) ∧
    s.fill.buffer[s.place]? = some t := by
  obtain ⟨t, ht, hhere⟩ := tokenAt_one hs
  refine ⟨t, ?_, hhere⟩
  show (((s.tokenAt 1).1.map Token.type).getD .invalid, (s.tokenAt 1).2) = _
  rw [ht]
  rfl

lemma skips_of_stop (hs : s.OnToken) (ht : s.fill.buffer[s.place]? = some t)
    (hstop : t.isEof = true ∨ stopAt t.type = true) : Skips stopAt s 0 s := by
  refine ⟨hs, rfl, Nat.le_refl _, ?_, ?_, t, ht, hstop⟩
  · rw [tokensBetween_self, List.length_nil]
  · simp [tokensBetween_self]

lemma Skips.cons {s₁ : TokenStream σ} (hcross : s.Crosses s₁ t) (heof : t.isEof = false)
    (hgo : stopAt t.type = false) (h : Skips stopAt s₁ n s') : Skips stopAt s (n + 1) s' := by
  have hlist : tokensBetween (View.input s) s.place s'.place =
      t :: tokensBetween (View.input s₁) s₁.place s'.place := by
    rw [tokensBetween_append hcross.le h.le, hcross.tokens_eq, hcross.input_eq]
    simp [heof]
  refine ⟨h.ready, h.input_eq.trans hcross.input_eq, Nat.le_trans hcross.le h.le, ?_, ?_, ?_⟩
  · rw [hlist, List.length_cons, h.length_eq]
  · rw [hlist, List.forall_mem_cons]
    exact ⟨hgo, h.passed⟩
  · have hbuffer : s₁.fill.buffer = s.fill.buffer := congrArg Prod.fst hcross.input_eq
    rw [← hbuffer]
    exact h.stops

lemma skips_skipUntil_of_le (stopAt : TokenType → Bool) {fuel : Nat} (hs : s.OnToken)
    (hfuel : s.fill.buffer.size ≤ fuel + s.place) :
    Skips stopAt s (s.skipUntil stopAt fuel).1 (s.skipUntil stopAt fuel).2 := by
  obtain ⟨t, hlook, hhere⟩ := lookahead_one_eq hs
  have hlt : s.place < s.fill.buffer.size := (Array.getElem?_eq_some_iff.1 hhere).1
  induction fuel generalizing s t with
  | zero => omega
  | succ fuel ih =>
    rw [skipUntil, hlook]
    simp only
    split
    · rename_i hstop
      exact skips_of_stop hs hhere (hstop.imp_left beq_iff_eq.2)
    · rename_i hgo
      obtain ⟨htype, hon⟩ := not_or.1 hgo
      have heof : t.isEof = false := beq_eq_false_iff_ne.2 htype
      -- a token that is not the end of input is crossed, so that less fuel is enough for the rest
      obtain ⟨u, -, hcross⟩ := crosses_consume hs
      obtain rfl : u = t := Option.some.inj (hcross.here.symm.trans hhere)
      have hnext : s.place < (Cursor.consume s).place := hcross.lt heof
      have hbuffer : (Cursor.consume s).fill.buffer = s.fill.buffer :=
        congrArg Prod.fst hcross.input_eq
      obtain ⟨v, hlook', hhere'⟩ := lookahead_one_eq hcross.ready
      refine Skips.cons hcross heof (by simpa using hon) (ih hcross.ready ?_ v hlook' hhere' ?_)
      · show (Cursor.consume s).fill.buffer.size ≤ fuel + (Cursor.consume s).place
        rw [hbuffer]
        omega
      · exact (Array.getElem?_eq_some_iff.1 hhere').1

/-- Skipping comes to a token at which to stop, or to the end of input. -/
lemma skips_skipUntil (stopAt : TokenType → Bool) (hs : s.OnToken) :
    Skips stopAt s (s.skipUntil stopAt s.bound).1 (s.skipUntil stopAt s.bound).2 :=
  skips_skipUntil_of_le stopAt hs (Nat.le_add_right_of_le (size_fill_le_bound s))

/-- No token but the last one is the end of input. -/
lemma isEof_eq_false_of_lt (hs : s.Sound) (ht : s.fill.buffer[i]? = some t) (hij : i < j)
    (hj : j < s.fill.buffer.size) : t.isEof = false := by
  have hfill : s.fill.Sound := (Extends.fill s).sound hs
  by_contra heof
  have hlast := (hfill.last_of_isEof i t ht (by simpa using heof)).1
  omega

/-- What was passed over is all that there was. -/
lemma Skips.passed_at (hs : s.OnToken) (h : Skips stopAt s n s') {k : Nat} (hk : s.place ≤ k)
    (hlt : k < s'.place) (hstands : Stands s.fill.buffer s.channel k)
    (ht : s.fill.buffer[k]? = some t) : t.isEof = false ∧ stopAt t.type = false := by
  obtain ⟨u, hu, -⟩ := h.stops
  have hsize : s'.place < s.fill.buffer.size := (Array.getElem?_eq_some_iff.1 hu).1
  have heof := isEof_eq_false_of_lt hs.sound ht hlt hsize
  obtain ⟨v, hv, hfits⟩ := hstands
  obtain rfl := Option.some.inj (hv.symm.trans ht)
  have hchannel : v.channel = s.channel := by simpa [heof] using hfits
  exact ⟨heof, h.passed v (mem_tokensBetween.2 ⟨k, hk, hlt, ht, hchannel, heof⟩)⟩

/-- If anything was passed over, then the current token was first. -/
lemma Skips.first (hs : s.OnToken) (h : Skips stopAt s n s') (hn : 0 < n)
    (ht : s.fill.buffer[s.place]? = some t) :
    ∃ rest, tokensBetween (View.input s) s.place s'.place = t :: rest := by
  have hlt : s.place < s'.place := by
    refine Nat.lt_of_le_of_ne h.le fun hsame => ?_
    have hlength := h.length_eq
    rw [hsame, tokensBetween_self, List.length_nil] at hlength
    omega
  obtain ⟨heof, -⟩ := h.passed_at hs (Nat.le_refl _) hlt hs.stands ht
  have hchannel : t.channel = s.channel := by
    obtain ⟨u, hu, hfits⟩ := hs.stands
    obtain rfl := Option.some.inj (hu.symm.trans ht)
    simpa [heof] using hfits
  have hhere : tokensBetween (View.input s) s.place (s.place + 1) = [t] := by
    rw [tokensBetween_succ ht]
    simp [heof, hchannel, View.input]
  exact ⟨_, by rw [tokensBetween_append (Nat.le_succ _) hlt, hhere]; rfl⟩

/-- Skipping that comes to a token at which to stop comes to the first one. -/
lemma Skips.firstAt (hs : s.OnToken) (h : Skips stopAt s n s')
    (ht : s.fill.buffer[s'.place]? = some t) (hstop : stopAt t.type = true) :
    FirstAt (View.input s) (fun t => stopAt t.type = true) s.place s'.place := by
  have hstands : Stands s.fill.buffer s.channel s'.place := by
    have hbuffer : s'.fill.buffer = s.fill.buffer := congrArg Prod.fst h.input_eq
    have hchannel : s'.channel = s.channel := congrArg Prod.snd h.input_eq
    rw [← hbuffer, ← hchannel]
    exact h.ready.stands
  refine ⟨h.le, hstands, ⟨t, ht, hstop⟩, fun k u hk hlt hon hu => ?_⟩
  rw [(h.passed_at hs hk hlt hon hu).2]
  exact Bool.false_ne_true

end Lookahead.TokenStream
