import Lookahead.Proofs.Stream.Crossing

/-!
# Streams that stand abreast

Two token streams over the same input, at the same place, need not have pulled equally much, nor
need the same marks be open.  A client that asks both the same questions gets the same answers all
the same, and leaves them standing abreast.  That goes for the two readers of a parser too that look
at the buffer itself: how many tokens are skipped to resynchronize, and what text an error node
holds, do not depend on how much is buffered.

`Parallel` streams agree on the input only.  A seek brings them abreast.
-/

namespace Lookahead.TokenStream

open Cursor

variable {σ : Type} [TokenSource σ] {s s' t t' : TokenStream σ}

/-- A move leaves the input as it is. -/
lemma MovesTo.input_eq {i : Nat} (h : s.MovesTo t i) : View.input t = View.input s :=
  Prod.ext h.fill_buffer h.channel_eq

lemma Extends.input_eq (h : s.Extends t) : View.input t = View.input s :=
  Prod.ext (congrArg buffer h.fill_eq) (keeps_of_fill h.fill_eq).2.1

lemma input_marked (s : TokenStream σ) (ms : MarkStack Nat) :
    View.input ({ s with marks := ms } : TokenStream σ) = View.input s :=
  Prod.ext (fill_marked s ms) rfl

/-- Whether the tokens know their places is a matter of the input. -/
lemma Numbered.of_input_eq (hs : s.fill.Numbered) (h : View.input t = View.input s) :
    t.fill.Numbered := by
  have hbuffer : t.fill.buffer = s.fill.buffer := congrArg Prod.fst h
  rw [Numbered, hbuffer]
  exact hs

/-- Two orderly streams over the same input. -/
structure Parallel (s s' : TokenStream σ) : Prop where
  orderly : s.Orderly
  orderly' : s'.Orderly
  input_eq : View.input s' = View.input s

/-- Two streams over the same input, at the same place. -/
structure Abreast (s s' : TokenStream σ) : Prop extends s.Parallel s' where
  started_eq : s'.started = s.started
  place_eq : s'.place = s.place

lemma Parallel.buffer_eq (h : s.Parallel s') : s'.fill.buffer = s.fill.buffer :=
  congrArg Prod.fst h.input_eq

lemma Parallel.channel_eq (h : s.Parallel s') : s'.channel = s.channel :=
  congrArg Prod.snd h.input_eq

/-- Both streams go to the same place, wherever they come from. -/
lemma Parallel.seek (h : s.Parallel s') (i : Nat) : (s.seek i).Abreast (s'.seek i) := by
  have hmove := movesTo_seek s i
  have hmove' := movesTo_seek s' i
  refine ⟨⟨h.orderly.step (.seek s i), h.orderly'.step (.seek s' i), ?_⟩, ?_, ?_⟩
  · rw [hmove'.input_eq, hmove.input_eq, h.input_eq]
  · rw [hmove'.started, hmove.started]
  · rw [hmove'.place_eq, hmove.place_eq, h.buffer_eq, h.channel_eq]

/-- A stream that seeks the place where another one stands gets there. -/
lemma OnToken.abreast_seek {i : Nat} (hs : s.OnToken) (hs' : s'.Orderly)
    (hinput : View.input s' = View.input s) (hi : s.place = i) : s.Abreast (s'.seek i) := by
  have hmove := movesTo_seek s' i
  have hparallel : s.Parallel s' := ⟨hs.orderly, hs', hinput⟩
  refine ⟨⟨hs.orderly, hs'.step (.seek s' i), hmove.input_eq.trans hinput⟩,
    hmove.started.trans hs.started.symm, ?_⟩
  rw [hmove.place_eq, hparallel.buffer_eq, hparallel.channel_eq, ← hi]
  exact firstFrom_of_stands hs.stands

namespace Abreast

lemma refl (h : s.Orderly) : s.Abreast s := ⟨⟨h, h, rfl⟩, rfl, rfl⟩

/-- Pulling more tokens makes no difference. -/
lemma pulled (h : s.Abreast s') (ht : s.Extends t) (ht' : s'.Extends t') : t.Abreast t' := by
  obtain ⟨hplace, -, hstarted, -⟩ := keeps_of_fill ht.fill_eq
  obtain ⟨hplace', -, hstarted', -⟩ := keeps_of_fill ht'.fill_eq
  refine ⟨⟨h.orderly.extends ht, h.orderly'.extends ht', ?_⟩, ?_, ?_⟩
  · rw [ht'.input_eq, ht.input_eq, h.input_eq]
  · rw [hstarted', hstarted, h.started_eq]
  · rw [hplace', hplace, h.place_eq]

lemma start (h : s.Abreast s') : s.start.Abreast s'.start := by
  rw [start_eq, start_eq, h.started_eq]
  split
  · exact h
  · exact h.toParallel.seek 0

lemma tokenAt (h : s.Abreast s') (k : Int) :
    (s'.tokenAt k).1 = (s.tokenAt k).1 ∧ (s.tokenAt k).2.Abreast (s'.tokenAt k).2 := by
  have hstart := h.start
  refine ⟨?_, hstart.pulled (extends_tokenAt s k) (extends_tokenAt s' k)⟩
  rw [← tokenAt_start, ← tokenAt_start s]
  exact tokenAt_congr h.orderly.start h.orderly'.start hstart.buffer_eq hstart.channel_eq
    hstart.place_eq k

lemma lookahead (h : s.Abreast s') (k : Int) :
    (Cursor.lookahead s' k).1 = (Cursor.lookahead s k).1 ∧
      (Cursor.lookahead s k).2.Abreast (Cursor.lookahead s' k).2 := by
  obtain ⟨htoken, hafter⟩ := h.tokenAt k
  exact ⟨congrArg (fun t : Option Token => (t.map Token.type).getD .invalid) htoken, hafter⟩

lemma symbol (h : s.Abreast s') :
    (Cursor.symbol s').1 = (Cursor.symbol s).1 ∧
      (Cursor.symbol s).2.Abreast (Cursor.symbol s').2 := by
  obtain ⟨htoken, hafter⟩ := h.tokenAt 1
  obtain ⟨t, ht, -⟩ := tokenAt_one h.orderly.start
  rw [tokenAt_start] at ht
  refine ⟨?_, hafter⟩
  show (s'.tokenAt 1).1.getD _ = (s.tokenAt 1).1.getD _
  rw [htoken, ht]
  rfl

lemma lookBehind (h : s.Abreast s') (k : Nat) :
    (s'.lookBehind k).1 = (s.lookBehind k).1 ∧ (s.lookBehind k).2.Abreast (s'.lookBehind k).2 := by
  have hstart := h.start
  refine ⟨?_, hstart⟩
  show s'.start.behind k s'.start.place = s.start.behind k s.start.place
  rw [hstart.place_eq]
  exact behind_congr hstart.buffer_eq hstart.channel_eq k h.orderly.start.buffered
    (hstart.place_eq ▸ h.orderly'.start.buffered)

lemma consume (h : s.Abreast s') : (Cursor.consume s).Abreast (Cursor.consume s') := by
  show s.consume.Abreast s'.consume
  have hstart := h.start
  have hhere : s'.start.buffer[s'.start.place]? = s.start.buffer[s.start.place]? := by
    rw [← getElem?_fill h.orderly'.start.buffered, ← getElem?_fill h.orderly.start.buffered,
      hstart.buffer_eq, hstart.place_eq]
  rw [← consume_start, ← consume_start s', consume_eq (started_start s),
    consume_eq (started_start s'), hhere]
  split
  · rw [hstart.place_eq]
    exact hstart.toParallel.seek _
  · exact hstart

lemma mark (h : s.Abreast s') : (Cursor.mark s).2.Abreast (Cursor.mark s').2 := by
  have hstart := h.start
  refine ⟨⟨h.orderly.step (.mark s), h.orderly'.step (.mark s'), ?_⟩, hstart.started_eq,
    hstart.place_eq⟩
  exact (input_marked _ _).trans (hstart.input_eq.trans (input_marked _ _).symm)

end Abreast

/-! ## Looking at the buffer -/

instance : IsPreorder (TokenStream σ) fun s s' => s'.bound ≤ s.bound where
  refl _ := Nat.le_refl _
  trans _ _ _ h h' := Nat.le_trans h' h

lemma size_fill_le_bound (s : TokenStream σ) : s.fill.buffer.size ≤ s.bound :=
  Nat.le_trans (Nat.le_add_right _ _)
    (fill_within (R := fun s s' => s'.bound ≤ s.bound) (fun s _ => bound_pull s) s)

lemma buffer_start (s : TokenStream σ) : s.start.fill.buffer = s.fill.buffer := by
  rw [start_eq]
  split
  · rfl
  · exact (movesTo_seek s 0).fill_buffer

lemma place_start_lt (hs : s.Orderly) : s.start.place < s.fill.buffer.size := by
  rw [← buffer_start]
  exact Nat.lt_of_lt_of_le hs.start.buffered (Extends.fill s.start).size_le

/-- As long as there is fuel for all that is to come, it does not matter how much there is. -/
lemma Abreast.skipUntil_of_le (stopAt : TokenType → Bool) {fuel fuel' : Nat} (h : s.Abreast s')
    (hfuel : s.fill.buffer.size ≤ fuel + s.start.place)
    (hfuel' : s.fill.buffer.size ≤ fuel' + s.start.place) :
    (s'.skipUntil stopAt fuel').1 = (s.skipUntil stopAt fuel).1 ∧
      (s.skipUntil stopAt fuel).2.Abreast (s'.skipUntil stopAt fuel').2 := by
  have hlt := place_start_lt h.orderly
  induction fuel generalizing fuel' s s' with
  | zero => omega
  | succ fuel ih =>
    cases fuel' with
    | zero => omega
    | succ fuel' =>
      obtain ⟨htype, hlook⟩ := h.lookahead 1
      rw [TokenStream.skipUntil, TokenStream.skipUntil]
      simp only [htype]
      split
      · exact ⟨rfl, hlook⟩
      · rename_i hgo
        obtain ⟨t, ht, hhere⟩ := tokenAt_one h.orderly.start
        rw [tokenAt_start] at ht
        have hcurrent : Cursor.lookahead s 1 = (t.type, s.start) := by
          show (((s.tokenAt 1).1.map Token.type).getD .invalid, (s.tokenAt 1).2) = _
          rw [ht]
          rfl
        rw [hcurrent] at hlook hgo ⊢
        replace hlook : s.start.Abreast (Cursor.lookahead s' 1).2 := hlook
        -- a token that is not the end of input is crossed
        obtain ⟨u, hu, hcross⟩ := crosses_consume h.orderly.start
        obtain rfl : u = t := Option.some.inj (hcross.here.symm.trans hhere)
        have heof : u.isEof = false := beq_eq_false_iff_ne.2 fun heof => hgo (.inl heof)
        have hnext := hcross.lt heof
        have hbuffer : (Cursor.consume s.start).fill.buffer = s.fill.buffer :=
          (congrArg Prod.fst hcross.input_eq).trans (buffer_start s)
        have hstart : (Cursor.consume s.start).start = Cursor.consume s.start :=
          start_of_started hcross.ready.started
        have hplace : s.start.place < (Cursor.consume s.start).start.place := by
          rw [hstart]
          exact hnext
        have hleft : (Cursor.consume s.start).fill.buffer.size ≤
            fuel + (Cursor.consume s.start).start.place := by rw [hbuffer]; omega
        have hleft' : (Cursor.consume s.start).fill.buffer.size ≤
            fuel' + (Cursor.consume s.start).start.place := by rw [hbuffer]; omega
        obtain ⟨hcount, hafter⟩ :=
          ih hlook.consume hleft hleft' (place_start_lt hlook.consume.orderly)
        exact ⟨congrArg (· + 1) hcount, hafter⟩

/-- How many tokens are skipped does not depend on how much is buffered. -/
lemma Abreast.skipUntil (stopAt : TokenType → Bool) (h : s.Abreast s') :
    (s'.skipUntil stopAt s'.bound).1 = (s.skipUntil stopAt s.bound).1 ∧
      (s.skipUntil stopAt s.bound).2.Abreast (s'.skipUntil stopAt s'.bound).2 := by
  apply h.skipUntil_of_le
  · exact Nat.le_add_right_of_le (size_fill_le_bound s)
  · rw [← h.buffer_eq]
    exact Nat.le_add_right_of_le (size_fill_le_bound s')

/-- What lies behind the cursor is buffered. -/
lemma toList_take_fill {i : Nat} (hi : i ≤ s.buffer.size) :
    s.buffer.toList.take i = s.fill.buffer.toList.take i := by
  refine List.ext_getElem? fun j => ?_
  rw [List.getElem?_take, List.getElem?_take, Array.getElem?_toList, Array.getElem?_toList]
  split
  · rename_i hj
    rw [getElem?_fill (Nat.lt_of_lt_of_le hj hi)]
  · rfl

/-- The text up to a buffered place is the same. -/
lemma Abreast.channelText (h : s.Abreast s') {last : Nat} (hlast : last < s.buffer.size)
    (hlast' : last < s'.buffer.size) (first : Nat) :
    s'.channelText first last = s.channelText first last := by
  have hslice (tokens : List Token) : (tokens.drop first).take (last + 1 - first) =
      (tokens.take (last + 1)).drop first := by rw [List.drop_take]
  rw [TokenStream.channelText, TokenStream.channelText, hslice, hslice, toList_take_fill hlast,
    toList_take_fill hlast', h.buffer_eq, h.channel_eq]

/-- A token behind the cursor that knows its place is buffered there. -/
lemma index_lookBehind_lt (hs : s.fill.Numbered) {k j : Nat} {t : Token}
    (ht : (s.lookBehind k).1 = some t) (hj : t.index = some j) :
    j < (s.lookBehind k).2.buffer.size := by
  have hmem (k i : Nat) (h : s.start.behind k i = some t) :
      ∃ j : Nat, s.start.buffer[j]? = some t := by
    fun_induction behind s.start k i with
    | case1 i => exact ⟨i, h⟩
    | case2 => cases h
    | case3 k i _ ih => exact ih h
    | case4 k i _ ih => exact ih h
  obtain ⟨i, hi⟩ := hmem k s.start.place ht
  have hlt : i < s.start.buffer.size := (Array.getElem?_eq_some_iff.1 hi).1
  have hfill : s.fill.buffer[i]? = some t := by
    rw [← buffer_start, getElem?_fill hlt, hi]
  obtain rfl : i = j := Option.some.inj ((hs i t hfill).symm.trans hj)
  exact hlt

/-! ## Wandering

What is done with a stream outside of guards leaves the marks as they are. -/

/-- The stream was read and moved, and that is all. -/
structure Wanders (s s' : TokenStream σ) : Prop where
  input_eq : View.input s' = View.input s
  started : s.started = true → s'.started = true
  marks_eq : s'.marks = s.marks

instance : IsPreorder (TokenStream σ) Wanders where
  refl _ := ⟨rfl, id, rfl⟩
  trans _ _ _ h h' := ⟨h'.input_eq.trans h.input_eq, h'.started ∘ h.started,
    h'.marks_eq.trans h.marks_eq⟩

lemma MovesTo.wanders {i : Nat} (h : s.MovesTo t i) : s.Wanders t :=
  ⟨h.input_eq, fun _ => h.started, h.marks_eq⟩

lemma Extends.wanders (h : s.Extends t) : s.Wanders t := by
  obtain ⟨-, -, hstarted, hmarks⟩ := keeps_of_fill h.fill_eq
  exact ⟨h.input_eq, fun hs => hstarted.trans hs, hmarks⟩

lemma wanders_seek (s : TokenStream σ) (i : Nat) : s.Wanders (Cursor.seek s i) :=
  (movesTo_seek s i).wanders

lemma wanders_start (s : TokenStream σ) : s.Wanders s.start := by
  rw [start_eq]
  split
  · exact refl_of Wanders s
  · exact wanders_seek s 0

lemma wanders_lookahead (s : TokenStream σ) (k : Int) : s.Wanders (Cursor.lookahead s k).2 :=
  trans_of Wanders (wanders_start s) (extends_tokenAt s k).wanders

lemma wanders_symbol (s : TokenStream σ) : s.Wanders (Cursor.symbol s).2 :=
  trans_of Wanders (wanders_start s) (extends_symbol s).wanders

lemma wanders_lookBehind (s : TokenStream σ) (k : Nat) : s.Wanders (s.lookBehind k).2 :=
  wanders_start s

lemma wanders_consume (s : TokenStream σ) : s.Wanders (Cursor.consume s) := by
  show s.Wanders s.consume
  rw [← consume_start, consume_eq (started_start s)]
  split
  · exact trans_of Wanders (wanders_start s) (wanders_seek s.start _)
  · exact wanders_start s

lemma wanders_skipUntil (stopAt : TokenType → Bool) (fuel : Nat) (s : TokenStream σ) :
    s.Wanders (s.skipUntil stopAt fuel).2 := by
  induction fuel generalizing s with
  | zero => exact refl_of Wanders s
  | succ fuel ih =>
    have hlook : s.Wanders (Cursor.lookahead s 1).2 := wanders_lookahead s 1
    rw [skipUntil]
    split
    rename_i type s₁ hs₁
    rw [hs₁] at hlook
    split
    · exact hlook
    · exact trans_of Wanders (trans_of Wanders hlook (wanders_consume s₁)) (ih _)

/-! ## Guards -/

lemma mark_start (s : TokenStream σ) : Cursor.mark s.start = Cursor.mark s := by
  show ((s.start.start.marks.push s.start.start.place).1,
    { s.start.start with marks := (s.start.start.marks.push s.start.start.place).2 }) = _
  rw [start_start]
  rfl

/-- A guard whose mark is the last one open when it ends is ended properly. -/
lemma endGuard_of_marks_eq (hs : s.Orderly) (ht : t.OnToken)
    (hinput : View.input t = View.input s)
    (hmarks : t.marks.entries = (Cursor.mark s).2.marks.entries) (ending : GuardEnd) :
    ∃ u, Cursor.endGuard t (Cursor.mark s).1 ending = (.ok (), u) ∧ u.OnToken ∧
      View.input u = View.input s ∧ u.marks.entries = s.marks.entries ∧
        u.place = if ending = .keep then t.place else s.start.place := by
  have hstart : View.input t = View.input s.start :=
    hinput.trans (wanders_start s).input_eq.symm
  rw [← (wanders_start s).marks_eq]
  rw [← mark_start] at hmarks ⊢
  have hback : ∃ u, Cursor.rewind t (Cursor.mark s.start).1 = .ok u ∧ u.OnToken ∧
      View.input u = View.input s ∧ u.marks.entries = s.start.marks.entries ∧
        u.place = s.start.place := by
    obtain ⟨u, hu, hland⟩ := rewind_mark (S := TokenStream σ) hs.start ht hstart
      (hmarks ▸ List.prefix_refl _)
    have hentries := congrArg MarkStack.entries hland.marks_eq
    exact ⟨u, hu, hland.ready, hland.input_eq.trans (wanders_start s).input_eq, hentries,
      hland.spot_eq⟩
  cases ending with
  | keep =>
    obtain ⟨u, hu, hland⟩ := release_mark (S := TokenStream σ) hs.start ht hmarks
    have hentries := congrArg MarkStack.entries hland.marks_eq
    exact ⟨u, by simp only [Cursor.endGuard, hu], hland.ready, hland.input_eq.trans hinput,
      hentries, hland.spot_eq⟩
  | restore | abandon =>
    obtain ⟨u, hu, hrest⟩ := hback
    exact ⟨u, by simp only [Cursor.endGuard, hu], by simpa using hrest⟩

end Lookahead.TokenStream
