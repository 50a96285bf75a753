import Lookahead.Proofs.Grammar.Lexing

/-!
# Lexers cut texts into tokens

A source that a lexer makes of a text calls its rule until the end of the text is reached, and one
call leads to the next (`Calls`).  If no call falls back, every call that matches takes a character,
and none misuses the lexer, then the source ends: it hands out the tokens of the calls in order, the
end of input, and nothing more (`drain_ofLexer`).

The calls are those of the rule with a log, which says when it has begun a token, made one, or set
the text of one.  The log decides which lexer on the way of a call has made the token of the call,
and which text was set for it (`Call.maker`), so that what is said of a token is said of the run.

The loop comes down to one step.  Whatever becomes of a call, the place at which the next one starts
is further on (`Steady.resumed`), and the source goes on from there as a source with less patience
would (`drain_call`).
-/

namespace Lookahead.LexerSource

open Lexer Text

/-! ## Calls -/

/-- A call of a rule, from a lexer that has begun a token, with what the rule has logged. -/
structure Call where
  before : Lexer
  log : List Milestone
  outcome : Except Fault Unit
  after : Lexer

namespace Call

/-- The token that the source hands out for the call: what was made, if the call came to an end and
did not skip it. -/
def token? (c : Call) : Option Token :=
  match c.outcome with
  | .ok () => c.after.finished
  | .error _ => none

/-- What has made the token of the call: the lexer at the last `emit` since a token was begun, or
the one at the end of the call if there was none. -/
def maker (c : Call) : Maker := (c.log.foldl Sketch.add .blank).maker c.after

/-- What is reported of the call, which is its failure if it failed. -/
def diagnostics (c : Call) : List Diagnostic :=
  match c.outcome with
  | .error (.failed f) => [f.diagnostic]
  | _ => []

/-- The lexer with which the source goes on after the call: past a character, if the call did not
match. -/
def resumed (c : Call) : Lexer :=
  match c.outcome with
  | .error (.failed f) => (recover c.after f).2
  | .error .backtracking => dropSilently c.after
  | _ => c.after

/-- The call does not fall back, takes a character if it matches, and is no misuse. -/
structure Orderly (c : Call) : Prop where
  climbs : Climbs c.before.input.place.index c.log c.after.input.place.index
  advances : c.outcome = .ok () → c.before.input.place.index < c.after.input.place.index
  proper : ∀ cause, c.outcome ≠ .error (.misuse cause)

end Call

/-- The calls that the source makes of a rule from one lexer on, up to another. -/
inductive Calls (x : Logged Milestone Lexer Unit) : Lexer → List Call → Lexer → Prop
  | nil (l : Lexer) : Calls x l [] l
  | cons {l l' l'' : Lexer} {log : List Milestone} {o : Except Fault Unit} {cs : List Call}
    (hmore : l.input.lookahead 1 ≠ .eof) (hrun : x l.begun = some (log, o, l'))
    (rest : Calls x (Call.resumed ⟨l.begun, log, o, l'⟩) cs l'') :
    Calls x l (⟨l.begun, log, o, l'⟩ :: cs) l''

/-- Every call that the source makes, from a lexer on, ends and is orderly. -/
def Behaves (x : Logged Milestone Lexer Unit) (l₀ : Lexer) : Prop :=
  ∀ cs l, Calls x l₀ cs l → l.input.lookahead 1 ≠ .eof →
    ∃ log o l', x l.begun = some (log, o, l') ∧ Call.Orderly ⟨l.begun, log, o, l'⟩

variable {x : Logged Milestone Lexer Unit} {rule : Action Lexer Unit} {source : Source}
  {l l' : Lexer} {log : List Milestone} {o : Except Fault Unit} {c : Call} {patience : Nat}

lemma Behaves.resumed (h : Behaves x l) (hmore : l.input.lookahead 1 ≠ .eof)
    (hrun : x l.begun = some (log, o, l')) :
    Behaves x (Call.resumed ⟨l.begun, log, o, l'⟩) :=
  fun _ _ hcalls => h _ _ (.cons hmore hrun hcalls)

/-! ## One call -/

/-- A lexer between two calls: it is on the text, nothing is being recovered from, and there is no
limit to the errors. -/
structure Steady (source : Source) (l : Lexer) : Prop where
  source_eq : l.input.source = source
  accurate : l.input.Accurate
  recovering_eq : l.state.recovering = false
  unlimited : l.state.options.maxErrors = none

lemma Steady.drafting (h : Steady source l) :
    Drafting source l.input.place.index l.input.place.index l.begun :=
  ⟨h.source_eq, h.accurate, h.source_eq ▸ h.accurate.place, Nat.le_refl _, Nat.le_refl _⟩

lemma lookahead_one_eq_eof (h : l.input.source = source) :
    l.input.lookahead 1 = .eof ↔ source.length ≤ l.input.place.index := by
  have hcode : l.input.lookahead 1 = l.input.codeAt l.input.place.index := by
    simp [CharacterStream.lookahead]
  rw [hcode, CharacterStream.codeAt, h]
  cases hc : source.chars[l.input.place.index]? with
  | none =>
    have hle : source.length ≤ l.input.place.index := Array.getElem?_eq_none_iff.1 hc
    simpa using hle
  | some c =>
    have hlt : l.input.place.index < source.length := (Array.getElem?_eq_some_iff.1 hc).1
    have hne : (c.toNat : TokenType) ≠ .eof := by
      show (c.toNat : Int) ≠ -1
      omega
    simpa [hne] using hlt

/-- A failure outside a recovery is recorded, and one character is dropped. -/
lemma recover_eq (hrecovering : l.state.recovering = false)
    (hunlimited : l.state.options.maxErrors = none) (f : Failure) :
    recover l f = (.recorded,
      { l with
        state := { l.state.counted f with recovering := false },
        input := Cursor.consume l.input }) := by
  have hlimit : (l.state.counted f).exceededLimit = none := by
    simp [State.exceededLimit, State.counted, hunlimited]
  rw [recover, State.report_eq]
  simp [hrecovering, hlimit]

lemma place_consume (h : l.input.source = source) (hle : l.input.place.index ≤ source.length) :
    (Cursor.consume l.input).place.index = min (l.input.place.index + 1) source.length := by
  subst h
  exact CharacterStream.step_index hle

lemma Steady.consume (h : Steady source l) :
    (Cursor.consume l.input).source = source ∧ (Cursor.consume l.input).Accurate := by
  obtain ⟨haccurate, hsource⟩ := h.accurate.step (.consume l.input)
  exact ⟨hsource.trans h.source_eq, haccurate⟩

/-- What an orderly call leaves behind. -/
lemma Steady.after (hl : Steady source l) (hdrafts : Drafts l.begun log l')
    (hc : Call.Orderly ⟨l.begun, log, o, l'⟩) :
    Steady source l' ∧ l.input.place.index ≤ l'.input.place.index ∧
      l'.state.diagnostics = l.state.diagnostics := by
  obtain ⟨hdrafting, -⟩ := hl.drafting.drafts hdrafts hc.climbs
  have hhushed := hdrafts.hushed
  refine ⟨⟨hdrafting.source_eq, hdrafting.accurate, ?_, ?_⟩, hc.climbs.le,
    hhushed.diagnostics_eq⟩
  · cases hrecovering : l'.state.recovering with
    | false => rfl
    | true => exact (hhushed.recovering_of hrecovering).symm.trans hl.recovering_eq
  · have hoptions := hhushed.options_eq
    rw [hoptions]
    exact hl.unlimited

/-- **After an orderly call the source goes on behind the place of the call**, and has reported the
call's failure and nothing else. -/
lemma Steady.resumed (hl : Steady source l) (hmore : l.input.lookahead 1 ≠ .eof)
    (hdrafts : Drafts l.begun log l') (hc : Call.Orderly ⟨l.begun, log, o, l'⟩) :
    Steady source (Call.resumed ⟨l.begun, log, o, l'⟩) ∧
      l.input.place.index < (Call.resumed ⟨l.begun, log, o, l'⟩).input.place.index ∧
      (Call.resumed ⟨l.begun, log, o, l'⟩).state.diagnostics =
        l.state.diagnostics ++ Call.diagnostics ⟨l.begun, log, o, l'⟩ := by
  obtain ⟨hl', hle, hdiagnostics⟩ := hl.after hdrafts hc
  have hlt : l.input.place.index < source.length := by
    rw [Ne, lookahead_one_eq_eof hl.source_eq] at hmore
    exact Nat.lt_of_not_le hmore
  obtain ⟨hsource, haccurate⟩ := hl'.consume
  have hplace : l.input.place.index < (Cursor.consume l'.input).place.index := by
    rw [place_consume hl'.source_eq (hl'.source_eq ▸ hl'.accurate.place.index_le)]
    omega
  rcases o with (f | _ | cause) | _
  · have hresumed : Call.resumed ⟨l.begun, log, .error (.failed f), l'⟩ = (recover l' f).2 := rfl
    rw [hresumed, recover_eq hl'.recovering_eq hl'.unlimited]
    refine ⟨⟨hsource, haccurate, rfl, hl'.unlimited⟩, hplace, ?_⟩
    simp [State.counted, Call.diagnostics, hdiagnostics]
  · refine ⟨⟨hsource, haccurate, hl'.recovering_eq, hl'.unlimited⟩, hplace, ?_⟩
    simp [Call.resumed, dropSilently, Call.diagnostics, hdiagnostics]
  · exact absurd rfl (hc.proper cause)
  · exact ⟨hl', hc.advances rfl, by simp [Call.resumed, Call.diagnostics, hdiagnostics]⟩

/-! ## The loop -/

lemma next_eq (l : Lexer) (rule : Action Lexer Unit) (patience : Nat) :
    TokenSource.next (⟨l, rule, patience, none, false⟩ : LexerSource) = search rule patience l :=
  rfl

/-- One round: the token of the call, or else the search goes on behind it. -/
lemma search_call (hl : Steady source l) (hmore : l.input.lookahead 1 ≠ .eof)
    (hrun : rule l.begun = some (o, l')) (hdrafts : Drafts l.begun log l')
    (hc : Call.Orderly ⟨l.begun, log, o, l'⟩) :
    search rule (patience + 1) l =
      match Call.token? ⟨l.begun, log, o, l'⟩ with
      | some t => (some t, ⟨Call.resumed ⟨l.begun, log, o, l'⟩, rule, patience, none, false⟩)
      | none => search rule patience (Call.resumed ⟨l.begun, log, o, l'⟩) := by
  obtain ⟨hl', -, -⟩ := hl.after hdrafts hc
  have hbegun : ¬ l.begun.input.lookahead 1 = .eof := hmore
  rw [search]
  rcases o with (f | _ | cause) | _
  · have hrecover := recover_eq hl'.recovering_eq hl'.unlimited f
    simp only [if_neg hbegun, hrun, hrecover, Call.token?, Call.resumed]
  · simp only [if_neg hbegun, hrun, Call.token?, Call.resumed]
  · exact absurd rfl (hc.proper cause)
  · rw [if_neg hbegun, hrun]
    rfl

lemma drain_eq {σ : Type} [TokenSource σ] (s : σ) :
    TokenSource.drain s = match TokenSource.next s with
      | (some t, rest) => (t :: (TokenSource.drain rest).1, (TokenSource.drain rest).2)
      | (none, rest) => ([], rest) := by
  rw [TokenSource.drain]
  split <;> simp_all

lemma drain_call (hl : Steady source l) (hmore : l.input.lookahead 1 ≠ .eof)
    (hrun : rule l.begun = some (o, l')) (hdrafts : Drafts l.begun log l')
    (hc : Call.Orderly ⟨l.begun, log, o, l'⟩) :
    TokenSource.drain (⟨l, rule, patience + 1, none, false⟩ : LexerSource) =
      let rest := TokenSource.drain
        (⟨Call.resumed ⟨l.begun, log, o, l'⟩, rule, patience, none, false⟩ : LexerSource)
      ((Call.token? ⟨l.begun, log, o, l'⟩).toList ++ rest.1, rest.2) := by
  rw [drain_eq, next_eq, search_call hl hmore hrun hdrafts hc]
  cases Call.token? ⟨l.begun, log, o, l'⟩ with
  | some t => rfl
  | none =>
    rw [drain_eq (⟨Call.resumed _, rule, patience, none, false⟩ : LexerSource), next_eq]
    rfl

/-- A source with patience for every character that is left reaches the end of the text. -/
lemma drain_steady (hx : Logged.Within Drafts x) (hl : Steady source l) (h : Behaves x l)
    (hpatience : source.length < l.input.place.index + patience) :
    ∃ cs l' s, Calls x l cs l' ∧ (∀ c ∈ cs, c.Orderly) ∧ Steady source l' ∧
      l'.input.place.index = source.length ∧
      TokenSource.drain (⟨l, x.forget, patience, none, false⟩ : LexerSource) =
        (cs.filterMap Call.token? ++ [l'.endToken], s) ∧
      s.lexer = l'.begun ∧ s.fatal = none ∧ s.done = true := by
  induction patience generalizing l with
  | zero => exact absurd hl.drafting.place_le (Nat.not_le.2 hpatience)
  | succ patience ih =>
    by_cases hmore : l.input.lookahead 1 = .eof
    · have hend : source.length ≤ l.input.place.index :=
        (lookahead_one_eq_eof hl.source_eq).1 hmore
      have hbegun : l.begun.input.lookahead 1 = .eof := hmore
      refine ⟨[], l, ⟨l.begun, x.forget, patience, none, true⟩, .nil l, by simp, hl,
        Nat.le_antisymm hl.drafting.place_le hend, ?_, rfl, rfl, rfl⟩
      have hdone : TokenSource.drain (⟨l.begun, x.forget, patience, none, true⟩ : LexerSource) =
          ([], ⟨l.begun, x.forget, patience, none, true⟩) := by
        rw [drain_eq]
        rfl
      rw [drain_eq, next_eq, search, if_pos hbegun]
      simp only [hdone]
      rfl
    · obtain ⟨log, o, l₁, hrun, hc⟩ := h [] l (.nil l) hmore
      obtain ⟨hresumed, hlt, -⟩ := hl.resumed hmore (hx hrun) hc
      obtain ⟨cs, l', s, hcalls, horderly, hl', hend, hdrain, hs⟩ :=
        ih hresumed (h.resumed hmore hrun) (by omega)
      refine ⟨⟨l.begun, log, o, l₁⟩ :: cs, l', s, .cons hmore hrun hcalls, ?_, hl', hend, ?_, hs⟩
      · simpa using ⟨hc, horderly⟩
      · rw [drain_call hl hmore (Logged.forget_eq_some hrun) (hx hrun) hc, hdrain,
          List.filterMap_cons]
        cases Call.token? ⟨l.begun, log, o, l₁⟩ <;> rfl

/-! ## The tokens -/

/-- What has made the token of an orderly call was on the way of the call, with a draft that starts
between the place of the call and the cursor. -/
lemma Steady.maker (hl : Steady source l) (hdrafts : Drafts l.begun log l')
    (hc : Call.Orderly ⟨l.begun, log, o, l'⟩) :
    let m := (Call.maker ⟨l.begun, log, o, l'⟩).lexer
    Drafting source l.input.place.index m.input.place.index m ∧
      m.input.place.index ≤ l'.input.place.index := by
  obtain ⟨hafter, hmade⟩ := hl.drafting.drafts hdrafts hc.climbs
  intro m
  rcases Sketch.maker_blank log l' with hend | hmem
  · rw [show m = l' from hend]
    exact ⟨hafter, Nat.le_refl _⟩
  · exact ⟨hmade m hmem, Climbs.made_le hc.climbs hmem⟩

/-- The token of a call is its maker's. -/
lemma Call.token_eq {t : Token} (hdrafts : Drafts l.begun log l')
    (ht : Call.token? ⟨l.begun, log, o, l'⟩ = some t) :
    t = (Call.maker ⟨l.begun, log, o, l'⟩).lexer.token := by
  rcases o with _ | _
  · cases ht
  · exact (hdrafts.sketched (Sketch.shows_blank l)).finished ht

/-- The token lies between the place of the call and the place where the call ends, in order. -/
lemma Steady.bounds {t : Token} (hl : Steady source l) (hdrafts : Drafts l.begun log l')
    (hc : Call.Orderly ⟨l.begun, log, o, l'⟩)
    (ht : Call.token? ⟨l.begun, log, o, l'⟩ = some t) :
    source.byteOffset l.input.place.index ≤ t.span.start ∧ t.span.start ≤ t.span.stop ∧
      t.span.stop ≤ source.byteOffset l'.input.place.index := by
  obtain ⟨hdrafting, hle⟩ := hl.maker hdrafts hc
  have hspan : t.span =
      ⟨source.byteOffset (Call.maker ⟨l.begun, log, o, l'⟩).lexer.own.start.index,
        source.byteOffset (Call.maker ⟨l.begun, log, o, l'⟩).lexer.input.place.index⟩ := by
    rw [Call.token_eq hdrafts ht, ← hdrafting.source_eq]
    rfl
  rw [hspan]
  exact ⟨Source.byteOffset_le hdrafting.le_start, Source.byteOffset_le hdrafting.start_le,
    Source.byteOffset_le hle⟩

section

variable {cs : List Call} (hx : Logged.Within Drafts x) (h : Calls x l cs l')
  (hl : Steady source l) (hcs : ∀ c ∈ cs, c.Orderly)

include hx h hl hcs

/-- The tokens of orderly calls are in order and do not overlap. -/
lemma Calls.ordered :
    (∀ t ∈ cs.filterMap Call.token?, source.byteOffset l.input.place.index ≤ t.span.start ∧
        t.span.stop ≤ source.byteSize) ∧
      (cs.filterMap Call.token?).Pairwise fun t u => t.span.stop ≤ u.span.start := by
  induction h with
  | nil l => simp
  | @cons l l₁ l' log o cs hmore hrun rest ih =>
    have hc : Call.Orderly ⟨l.begun, log, o, l₁⟩ := hcs _ (by simp)
    obtain ⟨hresumed, hlt, -⟩ := hl.resumed hmore (hx hrun) hc
    obtain ⟨hbounds, hpairwise⟩ := ih hresumed fun c hmem => hcs c (List.mem_cons_of_mem _ hmem)
    have hlater : ∀ t ∈ cs.filterMap Call.token?,
        source.byteOffset l.input.place.index ≤ t.span.start ∧ t.span.stop ≤ source.byteSize :=
      fun t ht => ⟨Nat.le_trans (Source.byteOffset_le (Nat.le_of_lt hlt))
        (hbounds t ht).1, (hbounds t ht).2⟩
    rw [List.filterMap_cons]
    cases ht : Call.token? ⟨l.begun, log, o, l₁⟩ with
    | none => exact ⟨hlater, hpairwise⟩
    | some t =>
      obtain ⟨hstart, -, hstop⟩ := hl.bounds (hx hrun) hc ht
      obtain ⟨u, rfl⟩ : ∃ u, o = .ok u := by
        rcases o with _ | u
        · cases ht
        · exact ⟨u, rfl⟩
      refine ⟨?_, List.pairwise_cons.2 ⟨fun u hu => ?_, hpairwise⟩⟩
      · intro u hu
        rcases List.mem_cons.1 hu with rfl | hu
        · refine ⟨hstart, Nat.le_trans hstop ?_⟩
          rw [← Source.byteOffset_length]
          exact Source.byteOffset_le hresumed.drafting.place_le
        · exact hlater u hu
      · exact Nat.le_trans hstop (hbounds u hu).1

/-- Every token is its maker's, covers some characters of the text, and has these as its text unless
another one was set. -/
lemma Calls.faithful {c : Call} (hmem : c ∈ cs) {t : Token} (ht : c.token? = some t) :
    t = c.maker.lexer.token ∧ ∃ chars, t.Covers source.chars.toList chars ∧
      t.text = c.maker.text.getD (String.ofList chars) := by
  induction h with
  | nil l => cases hmem
  | @cons l l₁ l' log o cs hmore hrun rest ih =>
    have hc : Call.Orderly ⟨l.begun, log, o, l₁⟩ := hcs _ (by simp)
    rcases List.mem_cons.1 hmem with rfl | hmem
    · have htoken := Call.token_eq (hx hrun) ht
      obtain ⟨chars, hcovers, htext⟩ := (hl.maker (hx hrun) hc).1.covers
      have hset : (Call.maker ⟨l.begun, log, o, l₁⟩).lexer.own.text =
          (Call.maker ⟨l.begun, log, o, l₁⟩).text :=
        ((hx hrun).sketched (Sketch.shows_blank l)).maker_text
      rw [← htoken] at hcovers htext
      rw [hset] at htext
      exact ⟨htoken, chars, hcovers, htext⟩
    · have hresumed := (hl.resumed hmore (hx hrun) hc).1
      exact ih hresumed (fun c hmem => hcs c (List.mem_cons_of_mem _ hmem)) hmem

/-- What was reported are the failures of the calls. -/
lemma Calls.reported : l'.state.diagnostics =
    l.state.diagnostics ++ cs.flatMap Call.diagnostics := by
  induction h with
  | nil l => simp
  | @cons l l₁ l' log o cs hmore hrun rest ih =>
    have hc : Call.Orderly ⟨l.begun, log, o, l₁⟩ := hcs _ (by simp)
    obtain ⟨hresumed, -, hdiagnostics⟩ := hl.resumed hmore (hx hrun) hc
    rw [ih hresumed fun c hmem => hcs c (List.mem_cons_of_mem _ hmem), hdiagnostics]
    simp

end

/-! ## Rules that behave -/

/-- The calls of a rule come to an end, take a character where they match, and are no misuse. -/
def Ends (rule : Action Lexer Unit) : Prop :=
  ∀ l : Lexer, l.input.lookahead 1 ≠ .eof → Cursor.View.Ready l.input →
    ∃ o l', rule l = some (o, l') ∧ (o = .ok () → l.input.place.index < l'.input.place.index) ∧
      ∀ cause, o ≠ .error (.misuse cause)

/-- A rule that only logs texts and does not fall back behaves if its calls end as they should. -/
lemma behaves_of_working (hsets : Logged.Within OnlySets x)
    (hworking : Action.Within Working x.forget) (hends : Ends x.forget)
    (hl : Cursor.View.Ready l.input) : Behaves x l := by
  intro cs l' hcalls hmore
  have hready : Cursor.View.Ready l'.input := by
    clear hmore
    induction hcalls with
    | nil => exact hl
    | @cons l l₁ l' log o cs _ hrun rest ih =>
      obtain ⟨hafter, -⟩ := hworking (Logged.forget_eq_some hrun) hl
      refine ih ?_
      rcases o with (f | _ | cause) | _
      · exact CharacterStream.ready_step (.consume l₁.input) hafter
      · exact CharacterStream.ready_step (.consume l₁.input) hafter
      · exact hafter
      · exact hafter
  obtain ⟨o, l₁, hrun, hadvances, hproper⟩ := hends l'.begun hmore hready
  obtain ⟨log, hlog⟩ := Logged.exists_log hrun
  exact ⟨log, o, l₁, hlog, (hsets hlog).climbs (hworking hrun hready).2, hadvances, hproper⟩

/-- A program that only goes forward and speculates behaves if its calls end as they should. -/
lemma behaves_run {g : Grammar LexerInstruction} (hg : g.All Statement.Onward) (fuel : Nat)
    {block : Block LexerInstruction} (hblock : Block.All Statement.Onward block)
    (hends : Ends (run g fuel block)) (hl : Cursor.View.Ready l.input) :
    Behaves (runLogged g fuel block) l := by
  rw [← forget_runLogged] at hends
  refine behaves_of_working (drafting_run hg fuel hblock) ?_ hends hl
  rw [forget_runLogged]
  exact working_run hg fuel hblock

/-- The calls of a rule take a character if it takes any character first and does not fall back
from there. -/
lemma ends_matchAny {rest : Action Lexer Unit} (hrest : Action.Within Working rest)
    (hends : ∀ l, ∃ o l', rest l = some (o, l') ∧ ∀ cause, o ≠ .error (.misuse cause)) :
    Ends (matchAny >>= fun _ => rest) := by
  intro l hmore hready
  obtain ⟨l₁, hl₁⟩ : ∃ l₁ : Lexer, l₁ = { l with input := Cursor.consume l.input } := ⟨_, rfl⟩
  have hany : matchAny l = some (.ok (), l₁) := by
    have hlookahead : (Cursor.lookahead l.input 1).1 ≠ .eof := hmore
    rw [matchAny, Action.bind_apply, Recognizer.lookahead_apply]
    simp only [if_neg hlookahead]
    exact hl₁ ▸ rfl
  have hlt : l.input.place.index < l₁.input.place.index := by
    rw [Ne, lookahead_one_eq_eof rfl, Nat.not_le] at hmore
    rw [hl₁, place_consume rfl hready.1]
    exact Nat.lt_min.2 ⟨Nat.lt_succ_self _, hmore⟩
  have hready₁ : Cursor.View.Ready l₁.input :=
    hl₁ ▸ CharacterStream.ready_step (.consume l.input) hready
  obtain ⟨o, l', hrun, hproper⟩ := hends l₁
  refine ⟨o, l', ?_, fun _ => Nat.lt_of_lt_of_le hlt (hrest hrun hready₁).2, hproper⟩
  rw [Action.bind_apply, hany]
  exact hrun

lemma fail_eq_some {α : Type} (kind : FailureKind) (expected : Option TokenSet) (l : Lexer) :
    ∃ e l', (Recognizer.fail kind expected : Action Lexer α) l = some (.error e, l') ∧
      ∀ cause, e ≠ .misuse cause := by
  by_cases hdepth : 0 < l.state.backtracking
  · refine ⟨.backtracking, ?_⟩
    simp [Recognizer.fail, Action.bind_apply, hdepth, Recognizer.giveUp]
  · simp [Recognizer.fail, Action.bind_apply, hdepth, Recognizer.failureHere, Recognizer.symbol]

/-- Any character and the letter b make a token. -/
def pairs : Block LexerInstruction :=
  [.perform .any, .perform (.char 'b'), .perform (.setType 4)]

lemma run_pairs : run ⟨[], [], []⟩ 1 pairs = (do matchAny; matchChar 'b'; setType 4) :=
  rfl

lemma behaves_pairs {l : Lexer} (hl : Cursor.View.Ready l.input) :
    Behaves (runLogged ⟨[], [], []⟩ 1 pairs) l := by
  have hg : (⟨[], [], []⟩ : Grammar LexerInstruction).All Statement.Onward :=
    Grammar.all_of_mem (by simp) (by simp) (by simp)
  have hblock : Block.All Statement.Onward pairs := by
    simp [pairs, Statement.all_iff, Statement.Onward, Statement.blocks]
  refine behaves_run hg 1 hblock ?_ hl
  rw [run_pairs]
  refine ends_matchAny ((working_matching.matchChar 'b').bind fun _ =>
    working_matching.draft fun _ => ⟨rfl, rfl, rfl⟩) fun l => ?_
  by_cases hb : (Cursor.lookahead l.input 1).1 = 'b'.toNat
  · simp [matchChar, Action.bind_apply, hb, setType]
  · obtain ⟨e, l', hfail, hproper⟩ :=
      fail_eq_some (α := Unit) (.mismatchedToken 'b'.toNat) none l
    have hmatch : matchChar 'b' l = some (.error e, l') := by
      rw [matchChar, Action.bind_apply, Recognizer.lookahead_apply]
      simp only [if_neg hb]
      exact hfail
    exact ⟨.error e, l', by rw [Action.bind_apply, hmatch], by simpa using hproper⟩

/-! ## Main result -/

/-- **A lexer cuts its text into ordered, faithful tokens, and ends.**  Let a program be the rule of
a source on a text, with no limit to the errors, and with patience for one call at each character
and at the end.  What is asked of the program is asked of the calls that the source really makes
(`Behaves`): each of them ends; from one place where it begins or makes a token to the next, and to
its end, it does not fall back, whatever it tries and takes back in between; it has taken a
character if it matches; and it does not misuse the lexer.

Then the source hands out finitely many tokens, the end of input behind the last character, and
nothing more.  The tokens are those of the calls.  They are in order and do not overlap.  Each of
them was made by the lexer that the log of its call names, covers some characters of the text, is at
the place of the first of them, and has them as its text unless the call set another one for it.
Every call that failed, and no other, has added one error to the diagnostics. -/
theorem drain_ofLexer (text name : String) (options : Options) (g : Grammar LexerInstruction)
    (fuel : Nat) (block : Block LexerInstruction) (patience : Nat)
    (hunlimited : options.maxErrors = none) (hpatience : text.length < patience)
    (hrule : Behaves (runLogged g fuel block) (ofStream (.ofString text name) options)) :
    ∃ cs l s, Calls (runLogged g fuel block) (ofStream (.ofString text name) options) cs l ∧
      TokenSource.drain
          (ofLexer (ofStream (.ofString text name) options) (run g fuel block) patience) =
        (cs.filterMap Call.token? ++
          [.endOfInput text.utf8ByteSize (Position.start.past text.toList)], s) ∧
      TokenSource.next s = (none, s) ∧ s.fatal = none ∧
      (cs.filterMap Call.token?).Pairwise (fun t u => t.span.stop ≤ u.span.start) ∧
      (∀ t ∈ cs.filterMap Call.token?, t.span.stop ≤ text.utf8ByteSize) ∧
      (∀ c ∈ cs, ∀ t, c.token? = some t → t = c.maker.lexer.token ∧
        ∃ chars, t.Covers text.toList chars ∧
          t.text = c.maker.text.getD (String.ofList chars)) ∧
      s.lexer.state.diagnostics = cs.flatMap Call.diagnostics ∧
      ∀ d ∈ cs.flatMap Call.diagnostics, d.isError = true := by
  have hx : Logged.Within Drafts (runLogged g fuel block) := drafts_run g fuel block
  have hchars : (Source.ofString text).chars.toList = text.toList := by simp [Source.ofString]
  have hlength : (Source.ofString text).length = text.length := by
    simp [Source.ofString, Source.length, String.length_toList]
  have hsize : (Source.ofString text).byteSize = text.utf8ByteSize := by
    rw [Source.byteSize, hchars, ← utf8ByteSize_ofList, String.ofList_toList]
  have hl : Steady (.ofString text) (ofStream (.ofString text name) options) :=
    ⟨rfl, CharacterStream.accurate_ofString text name, rfl, hunlimited⟩
  obtain ⟨cs, l, s, hcalls, hcs, hl', hend, hdrain, hlexer, hfatal, hdone⟩ :=
    drain_steady hx hl hrule (hlength ▸ Nat.lt_of_lt_of_le hpatience (Nat.le_add_left _ _))
  obtain ⟨hbounds, hpairwise⟩ := hcalls.ordered hx hl hcs
  have hclosing : l.endToken =
      .endOfInput text.utf8ByteSize (Position.start.past text.toList) := by
    have hplace := hl'.source_eq ▸ hl'.accurate.place
    rw [Lexer.endToken, hl'.source_eq, hplace.position_eq, hend, Source.byteOffset_length, hsize,
      Source.positionAt_eq (Nat.le_refl _), hchars,
      List.take_of_length_le (by rw [hlength, String.length_toList])]
  rw [forget_runLogged] at hdrain
  refine ⟨cs, l, s, hcalls, hclosing ▸ hdrain, ?_, hfatal, hpairwise, ?_, ?_, ?_, ?_⟩
  · show (if s.done then (none, s) else _) = (none, s)
    rw [if_pos hdone]
  · exact fun t ht => hsize ▸ (hbounds t ht).2
  · exact fun c hmem t ht => hchars ▸ hcalls.faithful hx hl hcs hmem ht
  · rw [hlexer]
    exact hcalls.reported hx hl hcs
  · intro d hd
    obtain ⟨c, -, hd⟩ := List.mem_flatMap.1 hd
    unfold Call.diagnostics at hd
    split at hd
    · rw [List.mem_singleton.1 hd]
      rfl
    · cases hd

/-- The second call fails at the end of the text, in front of which there is nothing to drop. -/
theorem drain_ofLexer_pairs :
    Options.standard.maxErrors = none ∧ "éb1".length < 4 ∧
      Behaves (runLogged ⟨[], [], []⟩ 1 pairs) (ofStream (.ofString "éb1" "<string>") .standard) ∧
      ∃ tokens s,
        TokenSource.drain (ofLexer (ofStream (.ofString "éb1" "<string>") .standard)
            (run ⟨[], [], []⟩ 1 pairs) 4) =
          (tokens ++ [.endOfInput 4 ⟨1, 3⟩], s) ∧ TokenSource.next s = (none, s) := by
  have hrule : Behaves (runLogged ⟨[], [], []⟩ 1 pairs)
      (ofStream (.ofString "éb1" "<string>") .standard) :=
    behaves_pairs ⟨Nat.zero_le _, MarkStack.saves_empty⟩
  obtain ⟨cs, l, s, -, hdrain, hnext, -⟩ :=
    drain_ofLexer "éb1" "<string>" .standard ⟨[], [], []⟩ 1 pairs 4 rfl (by decide) hrule
  exact ⟨rfl, by decide, hrule, _, s, hdrain, hnext⟩

/-- A program that makes its token while it is only trying. -/
def leaking : Block LexerInstruction :=
  [.synpred [.perform .any, .perform .any, .perform (.setType 4), .perform .emit]
    [.perform .any] [.perform .any]]

/-- A program that is left by a failure in a guard that raises the depth of backtracking. -/
def givingUp : Block LexerInstruction :=
  [.speculating true .restore [.perform (.char 'a')], .perform .any]

/-- A token that was made while trying stays when the cursor goes back, so that the tokens of two
matches overlap.  A call that ends with the bare signal to give up is dropped without a
diagnostic. -/
theorem speculation_leaks_and_hides :
    (let source := ofLexer (ofStream (.ofString "abcd" "<string>") .standard)
        (run ⟨[], [], []⟩ 8 leaking) 5
      let (first, source) := TokenSource.next source
      let (second, source') := TokenSource.next source
      first.map Token.span = some ⟨0, 2⟩ ∧ source.lexer.input.place.index = 1 ∧
        second.map Token.span = some ⟨1, 3⟩ ∧ source'.lexer.input.place.index = 2) ∧
      (let l := ofStream (.ofString "x" "<string>") .standard
        let source := ofLexer l (run ⟨[], [], []⟩ 8 givingUp) 2
        (source.rule l.begun).map Prod.fst = some (.error .backtracking) ∧
          (TokenSource.next source).1.map Token.span = some ⟨1, 1⟩ ∧
          (TokenSource.next source).2.lexer.state.diagnostics = []) := by
  decide

end Lookahead.LexerSource
