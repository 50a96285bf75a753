import Lookahead.Proofs.Grammar.Parsing

/-!
# Cascades of failures

A failure is reported unless an earlier one is still being recovered from.  So between two matches
no more than one failure is reported, whatever a program does there: the trace of a run tells where
it was looked at (`Event.observed`) and where something matched, and `Since` relates the states at
any two looks by what happened between them.

All matches count, those of a speculation too: a parser that recovers from a failure and merely
tries something that matches reports the next failure as if it had nothing to do with the first.
-/

namespace Lookahead

open Action Cursor Recognizer

variable {σ : Type} [TokenSource σ]

/-- None of the events notes a match. -/
def Unmatched (es : List Event) : Prop := ∀ e ∈ es, ¬ e.Matches

lemma unmatched_nil : Unmatched [] := by simp [Unmatched]

lemma unmatched_append {es fs : List Event} :
    Unmatched (es ++ fs) ↔ Unmatched es ∧ Unmatched fs := by
  simp only [Unmatched, List.mem_append, or_imp, forall_and]

/-! ## What happened since -/

/-- What is known of the state `s'` if `s` was the state before the events `es`.  Without a match
at most one failure was reported; a match ends a recovery, and only a report begins one. -/
structure Since (s : State) (es : List Event) (s' : State) : Prop where
  syntaxErrors_le : s.syntaxErrors ≤ s'.syntaxErrors
  once : Unmatched es → s.ReportsOnce s'
  ended : ¬ Unmatched es → s'.syntaxErrors = s.syntaxErrors → s'.recovering = false

namespace Since

variable {s s' s'' : State} {es fs : List Event}

lemma of_once (hle : s.syntaxErrors ≤ s'.syntaxErrors) (h : s.ReportsOnce s')
    (hes : Unmatched es) : Since s es s' :=
  ⟨hle, fun _ => h, fun hmatch => absurd hes hmatch⟩

lemma refl (hes : Unmatched es) : Since s es s := of_once (Nat.le_refl _) (.refl s) hes

lemma look (s : State) (seen : Snapshot) : Since s [.observed seen] s :=
  refl (by simp [Unmatched, Event.Matches])

lemma append (h : Since s es s') (h' : Since s' fs s'') : Since s (es ++ fs) s'' := by
  refine ⟨Nat.le_trans h.syntaxErrors_le h'.syntaxErrors_le, fun hnone => ?_, fun hmatch heq => ?_⟩
  · obtain ⟨hes, hfs⟩ := unmatched_append.1 hnone
    exact (h.once hes).trans (h'.once hfs)
  · -- no failure was reported in either part
    have hle := h.syntaxErrors_le
    have hle' := h'.syntaxErrors_le
    by_cases hfs : Unmatched fs
    · have hes : ¬ Unmatched es := fun hes => hmatch (unmatched_append.2 ⟨hes, hfs⟩)
      rcases h'.once hfs with ⟨hrec, -, -⟩ | ⟨-, -, hcount⟩
      · exact hrec.trans (h.ended hes (by omega))
      · omega
    · exact h'.ended hfs (by omega)

lemma report_eq_of_recovering (h : s.recovering = true) (f : Failure) :
    s.report f = (.suppressed, s) := by
  rcases Parser.report_cases s f with ⟨-, hreport⟩ | ⟨hfree, -⟩
  · exact hreport
  · rw [h] at hfree
    cases hfree

/-- Without a match there is at most one report, which is the last one. -/
lemma report_unmatched (h : Since s es s') (hes : Unmatched es) :
    s'.syntaxErrors ≤ s.syntaxErrors + 1 ∧
      (s.recovering = true → s'.syntaxErrors = s.syntaxErrors ∧ s'.diagnostics = s.diagnostics) ∧
      (s.recovering = true ∨ s.syntaxErrors < s'.syntaxErrors →
        ∀ f, s'.report f = (.suppressed, s')) := by
  rcases h.once hes with ⟨hrec, hcount, hlist⟩ | ⟨hfree, hrec, hcount⟩
  · refine ⟨by omega, fun _ => ⟨hcount, hlist⟩, fun hbefore => report_eq_of_recovering ?_⟩
    rcases hbefore with hbefore | hlt
    · exact hrec.trans hbefore
    · omega
  · refine ⟨by omega, fun hbefore => ?_, fun _ => report_eq_of_recovering hrec⟩
    rw [hbefore] at hfree
    cases hfree

/-- Behind a match the next failure is reported. -/
lemma report_matched (h : Since s es s') (hes : ¬ Unmatched es)
    (hcount : s'.syntaxErrors = s.syntaxErrors) (f : Failure) : (s'.report f).1 ≠ .suppressed := by
  rcases Parser.report_cases s' f with ⟨hrec, -⟩ | ⟨-, hne, -⟩
  · rw [h.ended hes hcount] at hrec
    cases hrec
  · exact hne

end Since

/-- The events `es` lead from the state `s` to `s'`, and every look among them saw the state of its
time. -/
inductive Chronicle : State → List Event → State → Prop
  | refl (s : State) : Chronicle s [] s
  | work {s s' s'' : State} {es : List Event} (h : Since s [] s') (rest : Chronicle s' es s'') :
      Chronicle s es s''
  | event {s s' s'' : State} {e : Event} {es : List Event} (he : ∀ seen, e ≠ .observed seen)
      (h : Since s [e] s') (rest : Chronicle s' es s'') : Chronicle s (e :: es) s''
  | look {s s' : State} {seen : Snapshot} {es : List Event} (hseen : seen.state = s)
      (rest : Chronicle s es s') : Chronicle s (.observed seen :: es) s'

namespace Chronicle

variable {s s' s'' : State} {es fs : List Event}

lemma append (h : Chronicle s es s') (h' : Chronicle s' fs s'') : Chronicle s (es ++ fs) s'' := by
  induction h with
  | refl => exact h'
  | work h _ ih => exact .work h (ih h')
  | event he h _ ih => exact .event he h (ih h')
  | look hseen _ ih => exact .look hseen (ih h')

/-- A chronicle up to a look, and from there. -/
lemma split {pre post : List Event} {seen : Snapshot}
    (h : Chronicle s (pre ++ .observed seen :: post) s') :
    Since s pre seen.state ∧ Chronicle seen.state post s' := by
  generalize hes : pre ++ .observed seen :: post = es at h
  induction h generalizing pre with
  | refl => simp at hes
  | work h _ ih =>
    obtain ⟨hsince, hrest⟩ := ih hes
    exact ⟨h.append hsince, hrest⟩
  | event he h rest ih =>
    cases pre with
    | nil =>
      obtain ⟨rfl, -⟩ := List.cons.inj hes
      exact absurd rfl (he seen)
    | cons e pre =>
      obtain ⟨rfl, htail⟩ := List.cons.inj hes
      obtain ⟨hsince, hrest⟩ := ih htail
      exact ⟨h.append hsince, hrest⟩
  | look hseen rest ih =>
    cases pre with
    | nil =>
      obtain ⟨heq, rfl⟩ := List.cons.inj hes
      obtain rfl := Event.observed.inj heq
      subst hseen
      exact ⟨.refl unmatched_nil, rest⟩
    | cons e pre =>
      obtain ⟨rfl, htail⟩ := List.cons.inj hes
      obtain ⟨hsince, hrest⟩ := ih htail
      exact ⟨(Since.look _ _).append hsince, hrest⟩

end Chronicle

namespace Parser

variable {α β : Type} {r r' : Parser σ}

/-- The trace goes on with a chronicle of what became of the state. -/
def Chronicles (r r' : Parser σ) : Prop :=
  ∃ es, r'.trace.toList = r.trace.toList ++ es ∧ Chronicle r.state es r'.state

instance : IsPreorder (Parser σ) Chronicles where
  refl r := ⟨[], by simp, .refl _⟩
  trans r r₁ r' := by
    rintro ⟨es, hes, h⟩ ⟨fs, hfs, h'⟩
    exact ⟨es ++ fs, by rw [hfs, hes, List.append_assoc], h.append h'⟩

omit [TokenSource σ] in
lemma chronicles_of_once (htrace : r'.trace = r.trace)
    (hle : r.state.syntaxErrors ≤ r'.state.syntaxErrors) (h : r.state.ReportsOnce r'.state) :
    Chronicles r r' :=
  ⟨[], by rw [htrace, List.append_nil], .work (.of_once hle h unmatched_nil) (.refl _)⟩

lemma Calm.chronicles (h : Calm r r') : Chronicles r r' :=
  chronicles_of_once h.trace_eq h.syntaxErrors_le h.once

omit [TokenSource σ] in
/-- Whatever does not touch what was reported. -/
lemma chronicles_of_eq (htrace : r'.trace = r.trace)
    (hrecovering : r'.state.recovering = r.state.recovering)
    (hsyntaxErrors : r'.state.syntaxErrors = r.state.syntaxErrors)
    (hdiagnostics : r'.state.diagnostics = r.state.diagnostics) : Chronicles r r' :=
  chronicles_of_once htrace (Nat.le_of_eq hsyntaxErrors.symm)
    (.inl ⟨hrecovering, hsyntaxErrors, hdiagnostics⟩)

omit [TokenSource σ] in
lemma chronicles_of_input {i : TokenStream σ} : Chronicles r { r with input := i } :=
  chronicles_of_eq rfl rfl rfl rfl

omit [TokenSource σ] in
lemma chronicles_push {e : Event} (he : ∀ seen, e ≠ .observed seen) (h : Since r.state [e] r'.state)
    (htrace : r'.trace = r.trace.push e) : Chronicles r r' :=
  ⟨[e], by rw [htrace, Array.toList_push], .event he h (.refl _)⟩

omit [TokenSource σ] in
/-- The notes of decisions and of rules say nothing about failures. -/
lemma chronicles_note {e : Event} (he : e.Decision ∨ e.Crossing) :
    Within Chronicles (note e : Action (Parser σ) Unit) := by
  have hlook (seen : Snapshot) : e ≠ .observed seen := by
    rintro rfl
    exact he.elim id id
  have hmatch : ¬ e.Matches := by
    cases e <;> simp_all [Event.Decision, Event.Crossing, Event.Matches]
  exact Within.update fun _ => chronicles_push hlook (.refl (by simp [Unmatched, hmatch])) rfl

/-- A match with its note. -/
lemma chronicles_match {x : Action (Parser σ) α} (e : α → Event) {f : α → Action (Parser σ) β}
    (hx : Mends x) (he : ∀ a, (e a).Matches) (hf : ∀ a, Within Chronicles (f a)) :
    Within Chronicles (x >>= fun a => do note (e a); f a) := by
  intro r o r' hrun
  rcases bind_eq_some.1 hrun with ⟨a, r₁, hmatch, hrest⟩ | ⟨fault, hmatch, -⟩
  · obtain ⟨honward, hended, -⟩ := hx hmatch
    have hlook (seen : Snapshot) : e a ≠ .observed seen := by
      intro heq
      simpa [heq, Event.Matches] using he a
    have hsince : Since r.state [e a] r₁.state :=
      ⟨honward.syntaxErrors_le, fun hnone => absurd (he a) (hnone _ (by simp)),
        fun _ _ => hended a rfl⟩
    have hnoted : Chronicles r { r₁ with trace := r₁.trace.push (e a) } :=
      chronicles_push hlook hsince (by rw [honward.trace_eq])
    exact trans_of Chronicles hnoted (hf a hrest)
  · exact ((hx hmatch).2.2 fault rfl).chronicles

/-! ## Runs -/

lemma chronicles_of_still {x : Action (Parser σ) α} (hx : Within Still x) : Within Chronicles x :=
  hx.mono fun _ _ h => h.calm.chronicles

lemma chronicles_of_rests {x : Action (Parser σ) α} (hx : Within Rests x) : Within Chronicles x :=
  chronicles_of_still (still_of_rests hx)

omit [TokenSource σ] in
lemma chronicles_stepInput {f : TokenStream σ → α × TokenStream σ} :
    Within Chronicles (stepInput f : Action (Parser σ) α) :=
  Within.step fun _ => chronicles_of_input

omit [TokenSource σ] in
lemma chronicles_tryInput {f : TokenStream σ → Except Misuse (TokenStream σ)} :
    Within Chronicles (tryInput f : Action (Parser σ) Unit) := by
  intro r o r' hrun
  unfold tryInput at hrun
  split at hrun
  · obtain ⟨-, rfl⟩ := Prod.mk.inj (Option.some.inj hrun)
    exact chronicles_of_input
  · obtain ⟨-, rfl⟩ := Prod.mk.inj (Option.some.inj hrun)
    exact refl_of Chronicles r

/-- A speculation takes back what its body did to the input, and nothing else. -/
lemma chronicles_speculating (raise : Bool) (ending : GuardEnd) {x : Action (Parser σ) α}
    (hx : Within Chronicles x) : Within Chronicles (speculating raise ending x) := by
  intro r o r' hrun
  rw [speculating_apply] at hrun
  rcases hbody : x (begun raise r) with _ | ⟨outcome, r₁⟩
  · simp [hbody] at hrun
  · rw [hbody, Option.bind_some] at hrun
    obtain ⟨-, rfl⟩ := Prod.mk.inj (Option.some.inj hrun)
    have hbegun : Chronicles r (begun raise r) := chronicles_of_eq rfl rfl rfl rfl
    have hended (i : TokenStream σ) : Chronicles r₁ (ended raise i r₁) :=
      chronicles_of_eq rfl rfl rfl rfl
    exact trans_of Chronicles (trans_of Chronicles hbegun (hx hbody)) (hended _)

lemma chronicles_synpred {x : Action (Parser σ) Unit} (hx : Within Chronicles x) :
    Within Chronicles (synpred x) := by
  have hclear : Within Chronicles (.update cleared : Action (Parser σ) Unit) :=
    Within.update fun _ => chronicles_of_eq rfl rfl rfl rfl
  rw [synpred_eq]
  refine (chronicles_speculating true .restore ?_).bind fun _ => Within.ofExcept _
  exact hx.attempt.bind fun _ => hclear.bind fun _ => Within.pure _

lemma chronicles_observe (g : Grammar ParserInstruction)
    (run : Block ParserInstruction → Action (Parser σ) Unit) (fuel : Nat) :
    Within Chronicles (Grammar.execute dialect g run fuel .observe) := by
  intro r o r' hrun
  simp only [Grammar.execute, snapshot, bind_apply, index_apply, lookahead_apply, read_apply,
    note_apply] at hrun
  obtain ⟨-, rfl⟩ := Prod.mk.inj (Option.some.inj hrun)
  exact ⟨[.observed _], Array.toList_push, .look rfl (.refl _)⟩

lemma chronicles_plain {s : Statement ParserInstruction} (hplain : s.Plain)
    (g : Grammar ParserInstruction) (run : Block ParserInstruction → Action (Parser σ) Unit)
    (fuel : Nat) : Within Chronicles (Grammar.execute dialect g run fuel s) := by
  have hwrite {f : Parser σ → Parser σ} (hf : ∀ r, Chronicles r (f r)) :
      Within Chronicles (.update f) := Within.update hf
  cases s with
  | mark =>
    exact chronicles_stepInput.bind fun m => hwrite fun _ => chronicles_of_eq rfl rfl rfl rfl
  | rewind i => exact (Within.read _).bind fun m => chronicles_tryInput
  | release i => exact (Within.read _).bind fun m => chronicles_tryInput
  | consume => exact chronicles_of_still still_consume
  | seek i => exact chronicles_of_still (still_seek i)
  | setBacktracking depth => exact hwrite fun _ => chronicles_of_eq rfl rfl rfl rfl
  | setLastError i => exact hwrite fun _ => chronicles_of_eq rfl rfl rfl rfl
  | pushFrame rule follow =>
    exact (Within.read _).bind fun index => hwrite fun _ => chronicles_of_eq rfl rfl rfl rfl
  | popFrame => exact hwrite fun _ => chronicles_of_eq rfl rfl rfl rfl
  | observe => exact chronicles_observe g run fuel
  | ifHolds | whileHolds | untilHolds | oneOrMore | switch | predict | loop | require | synpred
  | speculating | attempt | earlyExit | perform => exact hplain.elim

lemma chronicles_kept (g : Grammar ParserInstruction) :
    Grammar.Kept (S := TokenStream σ) dialect g (fun _ => True) Chronicles where
  lookahead k := chronicles_of_rests (rests_lookahead k)
  symbol := chronicles_of_rests rests_symbol
  consume := chronicles_of_still still_consume
  seek i := chronicles_of_still (still_seek i)
  note _ he := chronicles_note (.inl he)
  fail kind expected := chronicles_of_rests (rests_fail kind expected)
  synpred := chronicles_synpred
  speculating := chronicles_speculating
  apart hx := (withRoot_within (fun root => chronicles_of_rests (rests_setRoot root)) hx).discard
  plain _ hplain run fuel := chronicles_plain hplain _ run fuel
  perform _ _ hrun := by
    exact perform_within (fun _ _ h => h.chronicles) (fun _ he => chronicles_note (.inr he))
      chronicles_match (fun rule => hrun _ (g.all_true.body rule)) _

/-- **Failures cascade up to the next match, tried or not.**  The run is any run that ends, of
any program, with any options and from any state.  Any two looks at it are related, where a look
is an event of the trace that shows the whole state, and its beginning and its end count as
looks.

If nothing has matched between two looks (`Unmatched`), then at most one failure was reported
there.  After that one, or if the parser was recovering at the first look, nothing is reported
any more: the next report would be suppressed and change nothing.  If something has matched, be
it in a speculation that was taken back, and no failure was counted, then the next one is
reported.  So it is the match which ends a recovery, and not only one that stays. -/
theorem report_until_match (g : Grammar ParserInstruction) (fuel : Nat)
    (block : Block ParserInstruction) {r r' : Parser σ} {o : Except Fault Unit}
    (hrun : run g fuel block r = some (o, r')) (first last : Snapshot)
    (hfirst : first.state = r.state) (hlast : last.state = r'.state) :
    ∃ es, r'.trace.toList = r.trace.toList ++ es ∧
      ∀ pre s mid s' post,
        .observed first :: (es ++ [.observed last]) =
            pre ++ .observed s :: (mid ++ .observed s' :: post) →
          (Unmatched mid →
            s'.state.syntaxErrors ≤ s.state.syntaxErrors + 1 ∧
            (s.state.recovering = true → s'.state.syntaxErrors = s.state.syntaxErrors ∧
              s'.state.diagnostics = s.state.diagnostics) ∧
            (s.state.recovering = true ∨ s.state.syntaxErrors < s'.state.syntaxErrors →
              ∀ f, s'.state.report f = (.suppressed, s'.state))) ∧
          (¬ Unmatched mid → s'.state.syntaxErrors = s.state.syntaxErrors →
            ∀ f, (s'.state.report f).1 ≠ .suppressed) := by
  have hchronicles : Chronicles r r' :=
    Grammar.run_within (chronicles_kept g) g.all_true fuel (fun s _ => s.all_true) hrun
  obtain ⟨es, htrace, hchronicle⟩ := hchronicles
  refine ⟨es, htrace, fun pre s mid s' post heq => ?_⟩
  have hwhole : Chronicle r.state (.observed first :: (es ++ [.observed last])) r'.state :=
    .look hfirst (hchronicle.append (.look hlast (.refl _)))
  rw [heq] at hwhole
  have hsince : Since s.state mid s'.state := hwhole.split.2.split.1
  exact ⟨hsince.report_unmatched, hsince.report_matched⟩

/-- Two rules that match a token each. -/
def twoRules : Grammar ParserInstruction :=
  ⟨[("a", [.perform (.token 4 .bare)]), ("b", [.perform (.token 5 .bare)])], [], []⟩

/-- Two rules that fail, and something between. -/
def failingTwice (between : Block ParserInstruction) : Block ParserInstruction :=
  [.perform (.call 0 (.ofTypes [7])), .observe] ++ between ++
    [.observe, .perform (.call 1 (.ofTypes [7]))]

/-- A parser that mends nothing, in front of two tokens that neither rule matches. -/
def unmatchedTokens : Parser (List Token) :=
  .ofStream (.ofSource [Token.ofText 6 "x", Token.ofText 7 ";"] 0 "") .withoutRepairs (.tokens #[])

/-- What was seen of a recovery, and the number of errors at that time. -/
def recoveries (es : List Event) : List (Bool × Nat) :=
  es.filterMap fun
    | .observed seen => some (seen.state.recovering, seen.state.syntaxErrors)
    | _ => none

/-- The second failure is kept back, unless something that matches was tried between the two. -/
theorem failingTwice_synpred :
    ((run twoRules 8 (failingTwice []) unmatchedTokens).map fun (_, r) =>
        (recoveries r.trace.toList, r.state.syntaxErrors)) = some ([(true, 1), (true, 1)], 1) ∧
      ((run twoRules 8 (failingTwice [.synpred [.perform (.token 7 .bare)] [] []])
          unmatchedTokens).map fun (_, r) =>
        (recoveries r.trace.toList, r.state.syntaxErrors)) = some ([(true, 1), (false, 1)], 2) := by
  decide +kernel

/-- Where two failures were reported, something matched. -/
theorem report_until_match_synpred :
    ∃ o r', run twoRules 8 (failingTwice [.synpred [.perform (.token 7 .bare)] [] []])
        unmatchedTokens = some (o, r') ∧
      r'.state.syntaxErrors = 2 ∧ ¬ Unmatched r'.trace.toList := by
  have hcount : ((run twoRules 8 (failingTwice [.synpred [.perform (.token 7 .bare)] [] []])
      unmatchedTokens).map fun (_, r) => r.state.syntaxErrors) = some 2 := by
    decide +kernel
  obtain ⟨⟨o, r'⟩, hrun, htwo⟩ := Option.map_eq_some_iff.1 hcount
  refine ⟨o, r', hrun, htwo, fun hnone => ?_⟩
  obtain ⟨es, htrace, h⟩ := report_until_match _ _ _ hrun
    ⟨0, .eof, 0, unmatchedTokens.state⟩ ⟨0, .eof, 0, r'.state⟩ rfl rfl
  have hes : Unmatched es := by
    rw [htrace] at hnone
    exact (unmatched_append.1 hnone).2
  have hle := ((h [] _ es _ [] rfl).1 hes).1
  change r'.state.syntaxErrors ≤ 0 + 1 at hle
  change r'.state.syntaxErrors = 2 at htwo
  omega

end Parser

end Lookahead
