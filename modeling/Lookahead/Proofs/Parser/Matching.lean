import Lookahead.Proofs.Parser.Accounting
import Lookahead.Proofs.TokenSet

/-!
# What a match delivers

A match that succeeds delivers a token that was asked for, and says by its way how far the cursor
has gone: over that token, over one too many and that token, or nowhere, if the token was put in
(`Delivers`).  A match that fails has gone nowhere, at whatever point it failed.  In all cases it
ends, and the open marks, the rules in progress, the recorded outcomes and the trees are what they
were (`Keeps`).

What there is at the cursor and behind it is said of the complete input, so that tokens of other
channels and the end of input are no cases of their own: looking two tokens ahead and stepping twice
end up at the same place (`following`).
-/

namespace Lookahead

open Action Cursor Recognizer
open Cursor.View (Ready spot)

namespace TokenStream

variable {σ : Type} [TokenSource σ] {s s' : TokenStream σ} {t : Token}

/-- Behind the end of input there is nothing to go to. -/
lemma Crosses.place_eq (hs : s.OnToken) (h : s.Crosses s' t) (heof : t.isEof = true) :
    s'.place = s.place := by
  have hfill : s.fill.Sound := (Extends.fill s).sound hs.sound
  obtain ⟨hlast, -⟩ := hfill.last_of_isEof s.place t h.here heof
  have hbuffer : s'.fill.buffer = s.fill.buffer := congrArg Prod.fst h.input_eq
  have hlt : s'.place < s.fill.buffer.size := by
    obtain ⟨u, hu, -⟩ := h.ready.stands
    rw [← hbuffer]
    exact (Array.getElem?_eq_some_iff.1 hu).1
  have hle := h.le
  omega

lemma place_consume (hs : s.OnToken) :
    (Cursor.consume s).place = following s.fill.buffer s.channel s.place := by
  obtain ⟨p, hland, hp⟩ := Lawful.consume (S := TokenStream σ) hs
  exact hland.spot_eq.trans hp

/-- Two tokens ahead is the token behind the current one. -/
lemma lookahead_two (hs : s.OnToken) : ∃ t, (Cursor.lookahead s 2).1 = t.type ∧
    s.fill.buffer[following s.fill.buffer s.channel s.place]? = some t := by
  obtain ⟨hfst, hlt⟩ := ahead_fst hs.sound 1 hs.buffered
  have hplace : (s.ahead 1 s.place).1 = following s.fill.buffer s.channel s.place := hfst
  obtain ⟨t, ht⟩ : ∃ t, (s.ahead 1 s.place).2.buffer[(s.ahead 1 s.place).1]? = some t :=
    ⟨_, Array.getElem?_eq_getElem hlt⟩
  refine ⟨t, ?_, ?_⟩
  · show ((s.tokenAt 2).1.map Token.type).getD .invalid = _
    simp [tokenAt, start_of_started hs.started, ht]
  · rw [← hplace, ← ht, ← getElem?_fill hlt, (Extends.ahead _ _ _).fill_eq]

end TokenStream

namespace Parser

open TokenStream

variable {σ : Type} [TokenSource σ] {α : Type} {r r₁ r' : Parser σ}

/-! ## What is kept -/

/-- Open marks, rules in progress, recorded outcomes and trees are left as they were. -/
structure Keeps (r r' : Parser σ) : Prop where
  lands : Ready r.input → ∃ p, Lands r.input r'.input p (View.marks r.input)
  frames_eq : r'.state.frames = r.state.frames
  memo_eq : r'.state.memo = r.state.memo
  own_eq : r'.own = r.own

instance : IsPreorder (Parser σ) Keeps where
  refl r := ⟨fun hr => ⟨spot r.input, hr, rfl, rfl, rfl⟩, rfl, rfl, rfl⟩
  trans r r₁ r' h h' := by
    refine ⟨fun hr => ?_, h'.frames_eq.trans h.frames_eq, h'.memo_eq.trans h.memo_eq,
      h'.own_eq.trans h.own_eq⟩
    obtain ⟨p, hland⟩ := h.lands hr
    obtain ⟨p', hland'⟩ := h'.lands hland.ready
    exact ⟨p', hland'.ready, hland'.input_eq.trans hland.input_eq, hland'.spot_eq,
      hland'.marks_eq.trans hland.marks_eq⟩

lemma keeps_stepInput {f : TokenStream σ → α × TokenStream σ}
    (hf : ∀ s, Ready s → ∃ p, Lands s (f s).2 p (View.marks s)) :
    Ensures Keeps (stepInput f : Action (Parser σ) α) :=
  Ensures.step fun r => ⟨hf r.input, rfl, rfl, rfl⟩

lemma keeps_stepState {f : State → α × State} (hframes : ∀ s, (f s).2.frames = s.frames)
    (hmemo : ∀ s, (f s).2.memo = s.memo) : Ensures Keeps (stepState f : Action (Parser σ) α) :=
  Ensures.step fun r =>
    ⟨fun hr => ⟨spot r.input, hr, rfl, rfl, rfl⟩, hframes r.state, hmemo r.state, rfl⟩

lemma keeps_updateState {f : State → State} (hframes : ∀ s, (f s).frames = s.frames)
    (hmemo : ∀ s, (f s).memo = s.memo) :
    Ensures Keeps (updateState f : Action (Parser σ) Unit) :=
  Ensures.update fun r => ⟨fun hr => ⟨spot r.input, hr, rfl, rfl, rfl⟩, hframes r.state,
    hmemo r.state, rfl⟩

lemma keeps_lookahead (k : Int) : Ensures Keeps (lookahead k : Action (Parser σ) TokenType) :=
  keeps_stepInput fun _ hs => ⟨_, Lawful.lookahead k hs⟩

lemma keeps_symbol : Ensures Keeps (symbol : Action (Parser σ) Token) :=
  keeps_stepInput fun _ hs => ⟨_, Lawful.symbol hs⟩

lemma keeps_lookBehind (k : Nat) :
    Ensures Keeps (lookBehind k : Action (Parser σ) (Option Token)) :=
  keeps_stepInput fun _ hs => ⟨_, Lawful.lookahead 0 hs⟩

lemma keeps_consume : Ensures Keeps (consume : Action (Parser σ) Unit) :=
  Ensures.update fun _ => ⟨fun hs => (Lawful.consume hs).imp fun _ h => h.1, rfl, rfl, rfl⟩

lemma keeps_failureHere (kind : FailureKind) (expected : Option TokenSet) :
    Ensures Keeps (failureHere kind expected : Action (Parser σ) Failure) := by
  refine keeps_symbol.bind fun _ => (Ensures.read _).bind fun _ => keeps_stepState ?_ ?_
  all_goals exact fun _ => rfl

lemma keeps_giveUp : Ensures Keeps (giveUp : Action (Parser σ) α) := by
  refine (keeps_updateState ?_ ?_).bind fun _ => Ensures.fault _
  all_goals exact fun _ => rfl

lemma keeps_fail (kind : FailureKind) (expected : Option TokenSet) :
    Ensures Keeps (fail kind expected : Action (Parser σ) α) :=
  (Ensures.read _).bind fun _ =>
    Ensures.ite keeps_giveUp ((keeps_failureHere kind expected).bind fun _ => Ensures.fault _)

lemma keeps_reportFailure (f : Failure) :
    Ensures Keeps (reportFailure f : Action (Parser σ) Report) := by
  have hreport : Ensures Keeps (stepState fun s => s.report f : Action (Parser σ) Report) := by
    refine keeps_stepState (fun s => ?_) fun s => ?_
    all_goals
      unfold State.report
      split
      · rfl
      · simp only
        split <;> rfl
  refine hreport.bind fun report => ?_
  split
  · refine (keeps_updateState ?_ ?_).bind fun _ => Ensures.fault _
    all_goals exact fun _ => rfl
  · exact Ensures.pure _

lemma keeps_suggest (report : Report) (hint : String) :
    Ensures Keeps (suggest report hint : Action (Parser σ) Unit) := by
  refine Ensures.ite (keeps_updateState ?_ ?_) (Ensures.pure _)
  all_goals exact fun _ => rfl

lemma keeps_endRepair : Ensures Keeps (endRepair : Action (Parser σ) Unit) := by
  refine keeps_updateState ?_ ?_
  all_goals exact fun _ => rfl

lemma keeps_insertMissing (type : TokenType) :
    Ensures Keeps (insertMissing type : Action (Parser σ) Token) := by
  refine (keeps_failureHere _ _).bind fun failure => (Ensures.read _).bind fun name => ?_
  refine (keeps_reportFailure failure).bind fun report => (keeps_suggest _ _).bind fun _ => ?_
  exact keeps_endRepair.bind fun _ => Ensures.pure _

lemma keeps_deleteUnwanted (expected : TokenSet) :
    Ensures Keeps (deleteUnwanted expected : Action (Parser σ) Token) := by
  refine (keeps_failureHere _ _).bind fun failure => ?_
  refine (keeps_reportFailure failure).bind fun report => ?_
  refine keeps_consume.bind fun _ => (keeps_lookBehind 1).bind fun removed => ?_
  refine (keeps_suggest _ _).bind fun _ => keeps_symbol.bind fun token => ?_
  exact keeps_consume.bind fun _ => keeps_endRepair.bind fun _ => Ensures.pure _

lemma keeps_matchAny : Ensures Keeps (matchAny : Action (Parser σ) Token) := by
  refine keeps_symbol.bind fun token => keeps_consume.bind fun _ => ?_
  refine (keeps_updateState ?_ ?_).bind fun _ => Ensures.pure _
  all_goals exact fun _ => rfl

lemma keeps_canDelete (needed : TokenType → Bool) :
    Ensures Keeps (canDelete needed : Action (Parser σ) Bool) :=
  (Ensures.read _).bind fun _ =>
    Ensures.ite ((keeps_lookahead 2).bind fun _ => Ensures.pure _) (Ensures.pure _)

lemma keeps_canInsert (follow : TokenSet) :
    Ensures Keeps (canInsert follow : Action (Parser σ) Bool) := by
  have hcheck (viable : TokenSet) : Ensures Keeps (do
      let type ← lookahead 1
      return viable.has type || viable.has .endOfRule : Action (Parser σ) Bool) :=
    (keeps_lookahead 1).bind fun _ => Ensures.pure _
  have hexact : Ensures Keeps (stepState State.exactFollow : Action (Parser σ) TokenSet) := by
    refine keeps_stepState ?_ ?_
    all_goals exact fun _ => rfl
  refine (Ensures.read _).bind fun inserts => Ensures.ite (Ensures.ite (Ensures.pure _) ?_) ?_
  · refine Ensures.ite (hexact.bind fun exact => ?_) (hcheck follow)
    exact (Ensures.read _).bind fun inRule => (Ensures.pure _).bind hcheck
  · exact Ensures.pure _

lemma keeps_matchToken (type : TokenType) (follow : TokenSet) :
    Ensures Keeps (matchToken type follow : Action (Parser σ) Token) := by
  rw [matchToken_eq]
  refine (keeps_lookahead 1).bind fun here => Ensures.ite keeps_matchAny ?_
  refine (Ensures.read _).bind fun backtracking => Ensures.ite keeps_giveUp ?_
  refine (keeps_canDelete _).bind fun deletes => Ensures.ite (keeps_deleteUnwanted _) ?_
  refine (keeps_canInsert follow).bind fun inserts => Ensures.ite (keeps_insertMissing type) ?_
  exact keeps_fail _ _

lemma keeps_matchSet (set follow : TokenSet) :
    Ensures Keeps (matchSet set follow : Action (Parser σ) Token) := by
  rw [matchSet_eq]
  refine (keeps_lookahead 1).bind fun here => Ensures.ite keeps_matchAny ?_
  refine (Ensures.read _).bind fun backtracking => Ensures.ite keeps_giveUp ?_
  refine Ensures.ite (keeps_fail _ _) ?_
  refine (keeps_canDelete _).bind fun deletes => Ensures.ite (keeps_deleteUnwanted _) ?_
  split
  · refine (keeps_canInsert follow).bind fun inserts => ?_
    exact Ensures.ite (keeps_insertMissing _) (keeps_fail _ _)
  · exact keeps_fail _ _

/-! ## Outcomes -/

/-- What comes of a match, where `accepts` says what was asked for: one of three things is
delivered, and the cursor is where that leaves it. -/
inductive Delivers (accepts : TokenType → Prop) (r : Parser σ) :
    Except Fault Token → Parser σ → Prop
  /-- The current token is one. -/
  | matched {t : Token} {r' : Parser σ} (haccepts : accepts t.type)
    (hcross : r.input.Crosses r'.input t) (hend : t.isEof = true → r'.input.place = r.input.place) :
    Delivers accepts r (.ok t) r'
  /-- The current token is dropped, and the next one is one. -/
  | deleted {dropped t : Token} {s : TokenStream σ} {r' : Parser σ} (haccepts : accepts t.type)
    (hdropped : dropped.isEof = false) (hdrop : r.input.Crosses s dropped)
    (hcross : s.Crosses r'.input t) (hend : t.isEof = true → r'.input.place = s.place) :
    Delivers accepts r (.ok t) r'
  /-- A token is put in in front of the current one. -/
  | inserted {near : Token} {type : TokenType} {text : String} {r' : Parser σ}
    (haccepts : accepts type) (hhere : r.input.fill.buffer[r.input.place]? = some near)
    (hplace : r'.input.place = r.input.place) :
    Delivers accepts r (.ok (.conjured type text near)) r'
  /-- There is an error, and nothing has moved. -/
  | failed {e : Fault} {r' : Parser σ} (hplace : r'.input.place = r.input.place) :
    Delivers accepts r (.error e) r'

/-- Reading leaves the cursor where it is. -/
lemma Waits.here (hr : Ready r.input) (h : Waits r r') : Ready r'.input ∧
    View.input r'.input = View.input r.input ∧ r'.input.place = r.input.place := by
  obtain ⟨hready, hinput⟩ := h.stays.roams.reaches.ready hr
  exact ⟨hready, hinput, h.stays.spot_eq hr⟩

lemma Waits.current {near : Token} (hr : Ready r.input) (h : Waits r r')
    (ht : r.input.fill.buffer[r.input.place]? = some near) :
    r'.input.fill.buffer[r'.input.place]? = some near := by
  obtain ⟨-, hinput, hplace⟩ := h.here hr
  have hbuffer : r'.input.fill.buffer = r.input.fill.buffer := congrArg Prod.fst hinput
  rw [hbuffer, hplace]
  exact ht

lemma symbol_of_current {t : Token} (hr : Ready r.input)
    (ht : r.input.fill.buffer[r.input.place]? = some t) : Cursor.symbol r.input = (t, r.input) := by
  obtain ⟨u, hu, hget⟩ := symbol_eq hr
  obtain rfl := Option.some.inj (hget.symm.trans ht)
  exact hu

/-- The type of the current token is read, and nothing else happens. -/
lemma lookahead_one_apply {t : Token} (hr : Ready r.input)
    (ht : r.input.fill.buffer[r.input.place]? = some t) :
    lookahead 1 r = some (.ok t.type, r) := by
  obtain ⟨u, hu, hget⟩ := tokenAt_one hr
  obtain rfl := Option.some.inj (hget.symm.trans ht)
  have hlook : Cursor.lookahead r.input 1 = (u.type, r.input) := by
    show ((((r.input.tokenAt 1).1.map Token.type).getD .invalid, (r.input.tokenAt 1).2)) = _
    rw [hu]
    rfl
  rw [lookahead_apply, hlook]

lemma canDelete_eq_some {needed : TokenType → Bool} {o : Except Fault Bool} (hr : Ready r.input)
    (h : canDelete needed r = some (o, r')) : ∃ b, o = .ok b ∧ (b = true → ∃ t : Token,
      r.input.fill.buffer[following r.input.fill.buffer r.input.channel r.input.place]? = some t ∧
        needed t.type = true) := by
  obtain ⟨t, htype, ht⟩ := lookahead_two hr
  simp only [canDelete, bind_apply, readState_apply] at h
  split at h
  · rw [bind_apply, lookahead_apply, htype] at h
    obtain ⟨rfl, -⟩ := Prod.mk.inj (Option.some.inj h)
    exact ⟨_, rfl, fun hneeded => ⟨t, ht, hneeded⟩⟩
  · obtain ⟨rfl, -⟩ := Prod.mk.inj (Option.some.inj h)
    exact ⟨false, rfl, fun hfalse => by cases hfalse⟩

lemma failureHere_apply {t : Token} (hr : Ready r.input)
    (ht : r.input.fill.buffer[r.input.place]? = some t) (kind : FailureKind)
    (expected : Option TokenSet) :
    ∃ f r', failureHere kind expected r = some (.ok f, r') ∧ f.kind = kind ∧ f.found = t := by
  simp only [failureHere, Recognizer.symbol, bind_apply, stepInput_apply, symbol_of_current hr ht,
    index_apply, stepState_apply]
  exact ⟨_, _, rfl, rfl, rfl⟩

lemma insertMissing_eq_some {type : TokenType} {o : Except Fault Token} {near : Token}
    (hr : Ready r.input) (ht : r.input.fill.buffer[r.input.place]? = some near)
    (h : insertMissing type r = some (o, r')) :
    (∃ f, o = .error (.failed f) ∧ f.kind = .missingToken type) ∨
      ∃ text, o = .ok (.conjured type text near) := by
  obtain ⟨f, r₁, hfailure, hkind, rfl⟩ := failureHere_apply hr ht (.missingToken type) none
  rw [insertMissing, bind_of_ok hfailure, bind_of_ok (readState_apply _ r₁)] at h
  rcases bind_eq_some.1 h with ⟨report, r₂, -, h⟩ | ⟨e, hreport, rfl⟩
  · obtain ⟨_, r₃, -, h⟩ := (returns_suggest _ _).bind_eq_some h
    rw [endRepair, bind_of_ok (updateState_apply _ r₃)] at h
    obtain ⟨rfl, -⟩ := Prod.mk.inj (Option.some.inj h)
    exact .inr ⟨_, rfl⟩
  · obtain ⟨_, _, -, ⟨-, he, -⟩ | ⟨-, he, -⟩⟩ := reportFailure_eq_some hreport
    · obtain rfl := Except.error.inj he
      exact .inl ⟨f, rfl, hkind⟩
    · cases he

/-! ## One lemma for each way -/

section

variable {accepts : TokenType → Prop} {o : Except Fault Token} {u : Token}

lemma Delivers.of_waits {e : Fault} (hr : Ready r.input) (h : Waits r r') :
    Delivers accepts r (.error e) r' := .failed (h.here hr).2.2

lemma delivers_of_faults {x : Action (Parser σ) Token} (hfaults : Faults x) (hx : Within Waits x)
    (hr : Ready r.input) (hbefore : Waits r r₁) (h : x r₁ = some (o, r')) :
    Delivers accepts r o r' := by
  obtain ⟨e, rfl⟩ := hfaults h
  exact .of_waits hr (trans_of Waits hbefore (hx h))

lemma delivers_giveUp (hr : Ready r.input) (h : giveUp r = some (o, r')) :
    Delivers accepts r o r' :=
  delivers_of_faults (Faults.bind fun _ => Faults.fault _) (waits_of_rests rests_giveUp) hr
    (refl_of Waits r) h

lemma delivers_fail {kind : FailureKind} {expected : Option TokenSet} (hr : Ready r.input)
    (hbefore : Waits r r₁) (h : fail kind expected r₁ = some (o, r')) :
    Delivers accepts r o r' := by
  refine delivers_of_faults (Faults.bind fun depth => Faults.ite ?_ ?_)
    (waits_of_rests (rests_fail kind expected)) hr hbefore h
  · exact Faults.bind fun _ => Faults.fault _
  · exact Faults.bind fun _ => Faults.fault _

lemma delivers_matchAny (hr : Ready r.input) (hu : r.input.fill.buffer[r.input.place]? = some u)
    (haccepts : accepts u.type) (h : matchAny r = some (o, r')) : Delivers accepts r o r' := by
  obtain ⟨t, rfl, hcross, -⟩ := matchAny_eq_some hr h
  obtain rfl := Option.some.inj (hcross.here.symm.trans hu)
  exact .matched haccepts hcross (hcross.place_eq hr)

lemma delivers_deleteUnwanted {expected : TokenSet} {t : Token} (hr : Ready r.input)
    (hbefore : Waits r r₁) (hu : r.input.fill.buffer[r.input.place]? = some u)
    (hrejected : ¬ accepts u.type)
    (ht : r.input.fill.buffer[following r.input.fill.buffer r.input.channel r.input.place]? =
      some t)
    (haccepts : accepts t.type) (h : deleteUnwanted expected r₁ = some (o, r')) :
    Delivers accepts r o r' := by
  obtain ⟨hready₁, hinput₁, hplace₁⟩ := hbefore.here hr
  have hbuffer₁ : r₁.input.fill.buffer = r.input.fill.buffer := congrArg Prod.fst hinput₁
  have hchannel₁ : r₁.input.channel = r.input.channel := congrArg Prod.snd hinput₁
  rcases deleteUnwanted_eq_some hready₁ h with ⟨⟨e, rfl⟩, hwaits⟩ | ⟨v, rfl, -, hdrop, hcross⟩
  · exact .of_waits hr (trans_of Waits hbefore hwaits)
  · have hdrop := hdrop.congr hinput₁ hplace₁
    obtain hsame := Option.some.inj (hdrop.here.symm.trans hu)
    have hnext : (Cursor.consume r₁.input).place =
        following r.input.fill.buffer r.input.channel r.input.place := by
      rw [place_consume hready₁, hbuffer₁, hchannel₁, hplace₁]
    have hbuffer : (Cursor.consume r₁.input).fill.buffer = r.input.fill.buffer :=
      congrArg Prod.fst hdrop.input_eq
    have hv : v = t := by
      have hhere := hcross.here
      rw [hbuffer, hnext, ht] at hhere
      exact (Option.some.inj hhere).symm
    -- the end of input is not dropped: it would be the token behind itself
    have heof : u.isEof = false := by
      by_contra hend
      have hstay : following r.input.fill.buffer r.input.channel r.input.place = r.input.place := by
        have hend : u.isEof = true := by simpa using hend
        rw [following, hu]
        simp [hend]
      rw [hstay, hu] at ht
      exact hrejected (Option.some.inj ht ▸ haccepts)
    refine .deleted (hv ▸ haccepts) (hsame ▸ heof) hdrop hcross (hcross.place_eq hdrop.ready)

/-- The current token is dropped if it may be and the next one is needed. -/
lemma delivers_canDelete {needed : TokenType → Bool} {expected : TokenSet}
    {y : Action (Parser σ) Token} (hr : Ready r.input)
    (hu : r.input.fill.buffer[r.input.place]? = some u) (hrejected : ¬ accepts u.type)
    (hneeded : ∀ type, needed type = true → accepts type)
    (hy : ∀ r₁, Waits r r₁ → y r₁ = some (o, r') → Delivers accepts r o r')
    (h : (do if ← canDelete needed then deleteUnwanted expected else y) r = some (o, r')) :
    Delivers accepts r o r' := by
  rcases bind_eq_some.1 h with ⟨b, r₁, hdelete, h⟩ | ⟨e, hdelete, -⟩
  · have hwaits := (rests_canDelete needed hdelete).waits
    obtain ⟨b', hb', hnext⟩ := canDelete_eq_some hr hdelete
    obtain rfl := Except.ok.inj hb'
    split at h
    · rename_i hb
      obtain ⟨t, ht, hneeds⟩ := hnext hb
      exact delivers_deleteUnwanted hr hwaits hu hrejected ht (hneeded _ hneeds) h
    · exact hy r₁ hwaits h
  · obtain ⟨b', hb', -⟩ := canDelete_eq_some hr hdelete
    cases hb'

/-- A token is put in if it may be and the current one can follow it. -/
lemma delivers_canInsert {type : TokenType} {follow : TokenSet} {y : Action (Parser σ) Token}
    (hr : Ready r.input) (hu : r.input.fill.buffer[r.input.place]? = some u)
    (haccepts : accepts type) (hbefore : Waits r r₁)
    (hy : ∀ r₂, Waits r r₂ → y r₂ = some (o, r') → Delivers accepts r o r')
    (h : (do if ← canInsert follow then insertMissing type else y) r₁ = some (o, r')) :
    Delivers accepts r o r' := by
  rcases bind_eq_some.1 h with ⟨b, r₂, hinsert, h⟩ | ⟨e, hinsert, rfl⟩
  · have hwaits := trans_of Waits hbefore (rests_canInsert follow hinsert).waits
    split at h
    · have hafter := trans_of Waits hwaits (waits_insertMissing type h)
      rcases insertMissing_eq_some (hwaits.here hr).1 (hwaits.current hr hu) h with
        ⟨f, rfl, -⟩ | ⟨text, rfl⟩
      · exact .of_waits hr hafter
      · exact .inserted haccepts hu (hafter.here hr).2.2
    · exact hy r₂ hwaits h
  · exact .of_waits hr (trans_of Waits hbefore (rests_canInsert follow hinsert).waits)

lemma delivers_matchToken {type : TokenType} {follow : TokenSet} (hr : Ready r.input)
    (h : matchToken type follow r = some (o, r')) : Delivers (· = type) r o r' := by
  obtain ⟨u, -, hu⟩ := symbol_eq hr
  rw [matchToken_eq, bind_of_ok (lookahead_one_apply hr hu)] at h
  split at h
  · rename_i htype
    exact delivers_matchAny hr hu htype h
  · rename_i htype
    rw [isBacktracking, bind_of_ok (readState_apply _ r)] at h
    split at h
    · exact delivers_giveUp hr h
    · refine delivers_canDelete hr hu htype (fun _ => eq_of_beq) (fun r₁ hwaits h => ?_) h
      exact delivers_canInsert hr hu rfl hwaits (fun r₂ hwaits h => delivers_fail hr hwaits h) h

lemma delivers_matchSet {set follow : TokenSet} (hr : Ready r.input)
    (h : matchSet set follow r = some (o, r')) : Delivers (set.has · = true) r o r' := by
  obtain ⟨u, -, hu⟩ := symbol_eq hr
  rw [matchSet_eq, bind_of_ok (lookahead_one_apply hr hu)] at h
  split at h
  · rename_i htype
    exact delivers_matchAny hr hu htype h
  · rename_i htype
    rw [isBacktracking, bind_of_ok (readState_apply _ r)] at h
    split at h
    · exact delivers_giveUp hr h
    · split at h
      · exact delivers_fail hr (refl_of Waits r) h
      · refine delivers_canDelete hr hu htype (fun _ => id) (fun r₁ hwaits h => ?_) h
        rcases htypes : set.types with _ | ⟨only, _ | ⟨_, _⟩⟩
        all_goals rw [htypes] at h
        · exact delivers_fail hr hwaits h
        · have hhas : set.has only = true := TokenSet.mem_types.1 (by rw [htypes]; simp)
          refine delivers_canInsert hr hu hhas hwaits (fun r₂ hwaits h => ?_) h
          exact delivers_fail hr hwaits h
        · exact delivers_fail hr hwaits h

end

/-- **A match delivers what was asked for, or leaves the parse untouched.**  The parser is in
any state on a live stream, with any options, speculating or not; what is asked for is a type or
a set of types, and `follow` is what may stand behind it.

The match always comes to an end, in one of the ways that `Delivers` has: the current token is
one that was asked for and is passed; the current one is dropped and the next one is passed; a
token of the type, or of one in the set, is put in in front of the current one, and the cursor
stays; or there is a fault and the cursor stays.  In no case does it change the open marks, the
rules in progress, the records or the tree. -/
theorem match_delivers (hlive : Live r.input) (follow : TokenSet) :
    (∀ type, ∃ o r', matchToken type follow r = some (o, r') ∧ Delivers (· = type) r o r' ∧
      r'.input.marks = r.input.marks ∧ r'.state.frames = r.state.frames ∧
      r'.state.memo = r.state.memo ∧ r'.own = r.own) ∧
    ∀ set, ∃ o r', matchSet set follow r = some (o, r') ∧ Delivers (set.has · = true) r o r' ∧
      r'.input.marks = r.input.marks ∧ r'.state.frames = r.state.frames ∧
      r'.state.memo = r.state.memo ∧ r'.own = r.own := by
  have hkept {r' : Parser σ} (h : Keeps r r') : r'.input.marks = r.input.marks ∧
      r'.state.frames = r.state.frames ∧ r'.state.memo = r.state.memo ∧ r'.own = r.own := by
    obtain ⟨p, hland⟩ := h.lands hlive.ready
    exact ⟨hland.marks_eq, h.frames_eq, h.memo_eq, h.own_eq⟩
  refine ⟨fun type => ?_, fun set => ?_⟩
  · obtain ⟨o, r', hrun, hkeeps⟩ := keeps_matchToken type follow r
    exact ⟨o, r', hrun, delivers_matchToken hlive.ready hrun, hkept hkeeps⟩
  · obtain ⟨o, r', hrun, hkeeps⟩ := keeps_matchSet set follow r
    exact ⟨o, r', hrun, delivers_matchSet hlive.ready hrun, hkept hkeeps⟩

/-- The token in front of the one that is asked for is dropped. -/
theorem match_delivers_brokenPair :
    ∃ t r', matchToken 6 .bare brokenPair = some (.ok t, r') ∧
      Delivers (· = 6) brokenPair (.ok t) r' ∧ t.type = 6 ∧ r'.input.place = 2 := by
  have hlive : Live brokenPair.input :=
    ⟨⟨_, ⟨_, _, _, rfl⟩, (Step.seek _ 0).reaches⟩, (TokenStream.movesTo_seek _ 0).started⟩
  have hend : ((matchToken 6 .bare brokenPair).map fun result =>
      (result.1.toOption.map Token.type, result.2.input.place)) = some (some 6, 2) := by
    decide +kernel
  obtain ⟨o, r', hrun, hdelivers, -⟩ := (match_delivers hlive .bare).1 6
  rw [hrun] at hend
  obtain ⟨hmatched, hplace⟩ := Prod.mk.inj (Option.some.inj hend)
  rcases o with e | t
  · cases hmatched
  · exact ⟨t, r', hrun, hdelivers, Option.some.inj hmatched, hplace⟩

end Parser

end Lookahead
