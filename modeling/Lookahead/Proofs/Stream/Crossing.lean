import Lookahead.Parser.Recovery
import Lookahead.Proofs.Stream.Laziness

/-!
# What the cursor crosses

A step of a token stream takes the cursor over one token of the channel, and over tokens of other
channels up to the next one (`crosses_consume`).  `tokensBetween` lists the tokens of the channel
between two places.  Reading and stepping never take the cursor backwards, and neither does
skipping to resynchronize (`Forward`).
-/

namespace Lookahead.TokenStream

open Cursor
open Cursor.View (Ready)

variable {σ : Type} [TokenSource σ] {s s' : TokenStream σ} {input : Array Token × Channel}
  {i j k : Nat} {t : Token}

/-! ## Tokens between places -/

/-- The tokens that a recognizer can match from place `i` up to before place `j`. -/
def tokensBetween (input : Array Token × Channel) (i j : Nat) : List Token :=
  ((input.1.toList.drop i).take (j - i)).filter fun t => t.channel == input.2 && !t.isEof

lemma tokensBetween_self : tokensBetween input i i = [] := by simp [tokensBetween]

lemma tokensBetween_append (hij : i ≤ j) (hjk : j ≤ k) :
    tokensBetween input i k = tokensBetween input i j ++ tokensBetween input j k := by
  have hlength : k - i = (j - i) + (k - j) := by omega
  have hdrop : input.1.toList.drop j = (input.1.toList.drop i).drop (j - i) := by
    rw [List.drop_drop, Nat.add_sub_cancel' hij]
  rw [tokensBetween, tokensBetween, tokensBetween, hlength, List.take_add, List.filter_append,
    hdrop]

lemma tokensBetween_succ (h : input.1[i]? = some t) :
    tokensBetween input i (i + 1) = [t].filter fun t => t.channel == input.2 && !t.isEof := by
  have hlist : input.1.toList[i]? = some t := by rw [Array.getElem?_toList, h]
  obtain ⟨hi, hget⟩ := List.getElem?_eq_some_iff.1 hlist
  rw [tokensBetween, Nat.add_sub_cancel_left, List.drop_eq_getElem_cons hi, hget]
  rfl

/-- A token that is not the end of input is not the last one. -/
lemma succ_lt_of_not_isEof (hs : s.Sound) (ht : s.fill.buffer[i]? = some t)
    (heof : t.isEof = false) : i + 1 < s.fill.buffer.size := by
  obtain ⟨last, hlast, hlastEof⟩ := hs.isEof_fill
  have hlt : i < s.fill.buffer.size := (Array.getElem?_eq_some_iff.1 ht).1
  rw [Array.back?_eq_getElem?] at hlast
  by_contra hge
  have hsame : i = s.fill.buffer.size - 1 := by omega
  rw [← hsame, ht] at hlast
  obtain rfl := Option.some.inj hlast
  rw [heof] at hlastEof
  cases hlastEof

/-- The search for the next token of the channel goes forward, over tokens that cannot be matched.
-/
lemma firstFrom_skips (hs : s.Sound) (hi : i < s.fill.buffer.size) :
    i ≤ firstFrom s.fill.buffer s.channel i ∧
      tokensBetween (s.fill.buffer, s.channel) i (firstFrom s.fill.buffer s.channel i) = [] := by
  generalize hbuffer : s.fill.buffer = tokens at hi ⊢
  generalize s.channel = channel
  fun_induction firstFrom tokens channel i with
  | case1 i t ht hoff ih =>
    have hnext : i + 1 < s.fill.buffer.size := succ_lt_of_not_isEof hs (hbuffer ▸ ht) hoff.2
    rw [hbuffer] at hnext
    obtain ⟨hle, hnone⟩ := ih hnext
    refine ⟨Nat.le_of_succ_le hle, ?_⟩
    rw [tokensBetween_append (Nat.le_succ i) hle, hnone, tokensBetween_succ ht]
    simp [hoff.1]
  | case2 i t ht _ => exact ⟨Nat.le_refl i, tokensBetween_self⟩
  | case3 i hnone => exact absurd hi (Nat.not_lt.2 (Array.getElem?_eq_none_iff.1 hnone))

/-- From `s` to `s'` the cursor crosses the token `t`, or stays if that is the end of input. -/
structure Crosses (s s' : TokenStream σ) (t : Token) : Prop where
  ready : s'.OnToken
  input_eq : View.input s' = View.input s
  here : s.fill.buffer[s.place]? = some t
  le : s.place ≤ s'.place
  lt : t.isEof = false → s.place < s'.place
  tokens_eq : tokensBetween (View.input s) s.place s'.place = [t].filter fun t => !t.isEof

/-- A step crosses the current token. -/
lemma crosses_consume (hs : s.OnToken) : ∃ t, s.symbol = (t, s) ∧ s.Crosses s.consume t := by
  obtain ⟨t, hsymbol, hhere⟩ := symbol_eq hs
  refine ⟨t, hsymbol, ?_⟩
  obtain ⟨p, hland, hplace⟩ := Lawful.consume (S := TokenStream σ) hs
  have hstop : s.consume.place = following s.fill.buffer s.channel s.place :=
    hland.spot_eq.trans hplace
  rw [following, hhere] at hstop
  cases heof : t.isEof with
  | true =>
    have hstay : s.consume.place = s.place := by simpa [heof] using hstop
    refine ⟨hland.ready, hland.input_eq, hhere, Nat.le_of_eq hstay.symm, by simp [heof], ?_⟩
    rw [hstay, tokensBetween_self]
    simp [heof]
  | false =>
    have hmove : s.consume.place = firstFrom s.fill.buffer s.channel (s.place + 1) := by
      simpa [heof] using hstop
    have hchannel : t.channel = s.channel := by
      obtain ⟨u, hu, hfits⟩ := hs.stands
      obtain rfl := Option.some.inj (hhere.symm.trans hu)
      simpa [heof] using hfits
    have hnext := succ_lt_of_not_isEof hs.sound hhere heof
    obtain ⟨hle, hskipped⟩ := firstFrom_skips hs.sound hnext
    rw [← hmove] at hle hskipped
    refine ⟨hland.ready, hland.input_eq, hhere, Nat.le_of_succ_le hle, fun _ => hle, ?_⟩
    have hcrossed : tokensBetween (s.fill.buffer, s.channel) s.place (s.place + 1) =
        [t].filter fun t => t.channel == s.channel && !t.isEof := tokensBetween_succ hhere
    show tokensBetween (s.fill.buffer, s.channel) s.place s.consume.place = _
    rw [tokensBetween_append (Nat.le_succ s.place) hle, hskipped, hcrossed]
    simp [heof, hchannel]

/-- Where a step ends is settled by the place and the input. -/
lemma place_consume_congr (hs : s.OnToken) (hs' : s'.OnToken)
    (hinput : View.input s' = View.input s) (hplace : s'.place = s.place) :
    s'.consume.place = s.consume.place := by
  obtain ⟨p, hland, hp⟩ := Lawful.consume (S := TokenStream σ) hs
  obtain ⟨p', hland', hp'⟩ := Lawful.consume (S := TokenStream σ) hs'
  have hsame : p' = p :=
    calc p' = following (View.input s').1 (View.input s').2 s'.place := hp'
      _ = following (View.input s).1 (View.input s).2 s.place := by rw [hinput, hplace]
      _ = p := hp.symm
  exact hland'.spot_eq.trans (hsame.trans hland.spot_eq.symm)

lemma Crosses.congr {s₁ : TokenStream σ} (hinput : View.input s₁ = View.input s)
    (hplace : s₁.place = s.place) (h : s₁.Crosses s' t) : s.Crosses s' t := by
  have hbuffer : s₁.fill.buffer = s.fill.buffer := congrArg Prod.fst hinput
  refine ⟨h.ready, h.input_eq.trans hinput, ?_, ?_, ?_, ?_⟩
  · rw [← hbuffer, ← hplace]
    exact h.here
  · rw [← hplace]
    exact h.le
  · rw [← hplace]
    exact h.lt
  · rw [← hplace, ← hinput]
    exact h.tokens_eq

/-- Every token in the buffer carries its place. -/
def Numbered (s : TokenStream σ) : Prop :=
  ∀ (i : Nat) (t : Token), s.buffer[i]? = some t → t.index = some i

omit [TokenSource σ] in
lemma numbered_moved (s : TokenStream σ) (place : Nat) (started : Bool) (marks : MarkStack Nat)
    (hs : s.Numbered) : ({ s with place, started, marks } : TokenStream σ).Numbered := hs

lemma numbered_pull (s : TokenStream σ) (h : s.exhausted = false) (hs : s.Numbered) :
    s.pull.Numbered := by
  obtain ⟨t, hindex, hbuffer, -⟩ := pull_source h
  intro i u hu
  rw [hbuffer, Array.getElem?_push] at hu
  split at hu
  · rename_i hi
    obtain rfl := Option.some.inj hu
    rw [hindex, hi]
  · exact hs i u hu

/-- Every operation on a stream is a request. -/
lemma respond_of_step (h : Step s s') : ∃ q, (s.respond q).2 = s' := by
  cases h with
  | lookahead k => exact ⟨.type k, rfl⟩
  | symbol => exact ⟨.symbol, rfl⟩
  | consume => exact ⟨.consume, rfl⟩
  | seek i => exact ⟨.seek i, rfl⟩
  | mark => exact ⟨.mark, rfl⟩
  | @rewind _ m h =>
    refine ⟨.rewind m, ?_⟩
    rw [respond, h]
    rfl
  | @release _ m h =>
    refine ⟨.release m, ?_⟩
    rw [respond, h]
    rfl

lemma numbered_fill_of_live (h : Live s) : s.fill.Numbered := by
  obtain ⟨⟨s₀, ⟨source, channel, name, rfl⟩, hreach⟩, -⟩ := h
  have hnumbered : s.Numbered := by
    induction hreach with
    | refl => intro i t h; simp [ofSource] at h
    | tail _ hstep ih =>
      obtain ⟨q, rfl⟩ := respond_of_step hstep
      exact respond_keeps numbered_pull numbered_moved ih q
  exact fill_within (R := fun s s' => s.Numbered → s'.Numbered) numbered_pull s hnumbered

/-- From `s` to `s'` the cursor was not moved backwards. -/
structure Forward (s s' : TokenStream σ) : Prop where
  roams : Roams s s'
  le : s.OnToken → s.place ≤ s'.place

lemma forward_of_stays (h : Stays s s') : s.Forward s' :=
  ⟨h.roams, fun hs => Nat.le_of_eq (h.spot_eq (S := TokenStream σ) hs).symm⟩

instance : IsPreorder (TokenStream σ) Forward where
  refl s := forward_of_stays (Stays.refl s)
  trans _ _ _ h h' := ⟨h.roams.trans h'.roams,
    fun hs => Nat.le_trans (h.le hs) (h'.le (h.roams.reaches.ready (S := TokenStream σ) hs).1)⟩

lemma forward_consume (s : TokenStream σ) : s.Forward (Cursor.consume s) := by
  refine ⟨Roams.consume s, fun hs => ?_⟩
  obtain ⟨t, -, hcross⟩ := crosses_consume hs
  exact hcross.le

lemma forward_skipUntil (stopAt : TokenType → Bool) (fuel : Nat) (s : TokenStream σ) :
    s.Forward (s.skipUntil stopAt fuel).2 := by
  induction fuel generalizing s with
  | zero => exact refl_of Forward s
  | succ fuel ih =>
    have hlook : s.Forward (Cursor.lookahead s 1).2 := forward_of_stays (Stay.lookahead s 1).stays
    rw [skipUntil]
    split
    rename_i type s₁ hs₁
    rw [hs₁] at hlook
    split
    · exact hlook
    · exact trans_of Forward (trans_of Forward hlook (forward_consume s₁)) (ih _)

end Lookahead.TokenStream
