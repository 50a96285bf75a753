import Lookahead.Proofs.Parser.Resynchronization

/-!
# The note on skipped input

Where a failure that leaves a rule is reported and recovered from, a note is added behind the error
if tokens were skipped.  The note is exact about what lies between the place from which the parser
skips and the place where it resumes (`skipped_input_noted`).

A parser that has resynchronized at the cursor before skips from behind the current token only, and
that token is not in the note (`passed_eq`).  Such a failure is seldom reported, since the parser is
still recovering; but a token that was put in ends the recovery and leaves the cursor where it is
(`skipped_input_noted_behindInsertion`).
-/

namespace Lookahead

open Action Cursor Recognizer
open Cursor.View (Ready)

namespace Parser

open TokenStream

variable {σ : Type} [TokenSource σ] {r r' : Parser σ} {f : Failure}

/-- A note that `skipped` tokens were skipped, from the token `first` up to the token `resume`. -/
structure Notes (d : Diagnostic) (skipped : Nat) (first resume : Token) (context : RulePath) :
    Prop where
  code_eq : d.code = .skippedInput
  severity_eq : d.severity = .hint
  message_eq : d.message = "skipped " ++ toString skipped ++ " token" ++ if skipped = 1 then "" else "s"
  span_eq : d.span = ⟨first.span.start, resume.span.start⟩
  related_eq : d.related = [⟨"resynchronized here", resume.span⟩]
  context_eq : d.context = context

lemma notes_skippedNote (skipped : Nat) (first resume : Token) (context : RulePath) :
    Notes (skippedNote skipped first resume context) skipped first resume context := by
  refine ⟨rfl, rfl, rfl, rfl, rfl, rfl⟩

/-- The tokens between the cursor and the place where the parser resumes: the current one, if the
parser has to go on, and those that are skipped. -/
lemma passed_eq (hr : Ready r.input) {i : Nat} (hi : skipStart r ≤ i) :
    tokensBetween (View.input r.input) r.input.place i =
      (if r.state.lastErrorIndex = some r.input.place then
        tokensBetween (View.input r.input) r.input.place (skipStart r) else []) ++
        tokensBetween (View.input r.input) (skipStart r) i := by
  split
  · rename_i hlast
    refine tokensBetween_append ?_ hi
    obtain ⟨t, -, hcross⟩ := crosses_consume hr
    have hnext : (Cursor.consume r.input).place =
        following r.input.fill.buffer r.input.channel r.input.place := place_consume hr
    rw [skipStart, if_pos hlast, ← hnext]
    exact hcross.le
  · rename_i hother
    rw [skipStart, if_neg hother, List.nil_append]

omit [TokenSource σ] in
lemma diagnostics_of_recorded {s : State} (h : (s.report f).1 = .recorded) :
    (s.report f).2.diagnostics = s.diagnostics ++ [f.diagnostic] := by
  rw [State.report_eq] at h ⊢
  split at h
  · cases h
  · rename_i hfree
    rw [if_neg hfree]
    split at h
    · cases h
    · rfl

/-- What a resynchronization that succeeds adds to the diagnostics. -/
lemma Resynced.noted (hr : Ready r.input) (h : Resynced .recorded f r (.ok ()) r') :
    let skipped := tokensBetween (View.input r.input) (skipStart r) r'.input.place
    (skipped = [] → r'.state.diagnostics = r.state.diagnostics) ∧
      ∀ first rest, skipped = first :: rest → ∃ resume note,
        (View.input r.input).1[r'.input.place]? = some resume ∧
          Notes note skipped.length first resume f.context ∧
          r'.state.diagnostics = r.state.diagnostics ++ [note] := by
  obtain ⟨hready, hinput, hplace⟩ := skipInput_eq hr
  cases h with
  | @resumed n i first resume hskips hfirst hresume hlegal =>
    have hlength := hskips.length_eq
    rw [hinput, hplace] at hlength
    constructor
    · intro hnone
      rw [hnone, List.length_nil] at hlength
      subst hlength
      rfl
    · intro u rest hsome
      rw [hsome, List.length_cons] at hlength
      have hmany : 0 < n := by omega
      have hhere : (skipInput r).fill.buffer[(skipInput r).place]? = some first := by
        have hbuffer : (skipInput r).fill.buffer = r.input.fill.buffer := congrArg Prod.fst hinput
        rw [hbuffer, hplace]
        exact hfirst
      obtain ⟨others, hothers⟩ := hskips.first hready hmany hhere
      rw [hinput, hplace, hsome] at hothers
      obtain ⟨rfl, rfl⟩ := List.cons.inj hothers
      refine ⟨resume, skippedNote n u resume f.context, hresume, ?_, ?_⟩
      · rw [hsome, List.length_cons, hlength]
        exact notes_skippedNote n u resume f.context
      · simp only [hmany, true_and, if_true]
        rfl

/-- **Skipped input is accounted for** from the place on from which a parser skips.  The parser
is on a live stream; the failure with which a rule is left becomes an error, neither suppressed
nor past the budget (`hrecorded`); and the rule is left without a fault, so that the failure was
recovered from (`hexit`).

Then the error is followed by nothing if no token was skipped, and otherwise by one note, which
has the number of the tokens and reaches from the first of them to the token at which the rule's
caller goes on.  That is all that was passed over, unless the parser has resynchronized at the
cursor before: then it has passed over the current token besides, which the note leaves out. -/
theorem skipped_input_noted {start : RuleStart} {node : Option NodeId} (hlive : Live r.input)
    (hrecorded : (r.state.report f).1 = .recorded)
    (hexit : exitRule start (.error (.failed f)) r = some (.ok node, r')) :
    let skipped := tokensBetween (View.input r.input) (skipStart r) r'.input.place
    (skipped = [] → r'.state.diagnostics = r.state.diagnostics ++ [f.diagnostic]) ∧
      (∀ first rest, skipped = first :: rest → ∃ resume note,
        (View.input r.input).1[r'.input.place]? = some resume ∧
          Notes note skipped.length first resume f.context ∧
          r'.state.diagnostics = r.state.diagnostics ++ [f.diagnostic, note]) ∧
      tokensBetween (View.input r.input) r.input.place r'.input.place =
        (if r.state.lastErrorIndex = some r.input.place then
          tokensBetween (View.input r.input) r.input.place (skipStart r) else []) ++ skipped := by
  have hready : Ready (reported r f).input := hlive.ready
  obtain ⟨o, r₁, hwork, heq⟩ :=
    exitRule_of_recovers start hlive.ready (recovers_of_exitRule hexit)
  obtain ⟨hok, rfl⟩ := Prod.mk.inj (Option.some.inj (heq.symm.trans hexit))
  cases o with
  | error fault => cases hok
  | ok _ =>
    rw [hrecorded] at hwork
    obtain ⟨hnone, hsome⟩ := hwork.noted hready
    have hreported : (reported r f).state.diagnostics = r.state.diagnostics ++ [f.diagnostic] :=
      diagnostics_of_recorded hrecorded
    have hle := (hwork.le hready).1
    rw [skipStart_reported] at hnone hsome hle
    rw [hreported] at hnone hsome
    refine ⟨hnone, fun first rest hskipped => ?_, passed_eq hlive.ready hle⟩
    obtain ⟨resume, note, hresume, hnote, hlist⟩ := hsome first rest hskipped
    refine ⟨resume, note, hresume, hnote, ?_⟩
    rw [List.append_assoc] at hlist
    exact hlist

/-- A parser in a rule, in front of two tokens that nobody expects and one that may follow the rule.
It has resynchronized here before, and then put a token in. -/
def behindInsertion : Parser (List Token) :=
  let r : Parser (List Token) := .ofStream ((TokenStream.ofSource
    [Token.ofText 7 ";", Token.ofText 7 ";", Token.ofText 8 "."] 0 "").seek 0)
    .standard (.tokens #[])
  { r with state := { r.state.pushFrame ⟨1, "b"⟩ (.ofTypes [8]) 0 with lastErrorIndex := some 0 } }

/-- What the rule needs is missing. -/
def missingHere : Failure :=
  .make (.mismatchedToken 4) (Token.ofText 7 ";") 0 none ⟨["b"]⟩ (.tokens #[])

/-- Two tokens are passed over, and the note has one. -/
theorem skipped_input_noted_behindInsertion :
    ∃ node r' note, exitRule ⟨⟨1, "b"⟩, 0, Token.ofText 7 ";"⟩ (.error (.failed missingHere))
        behindInsertion = some (.ok node, r') ∧
      (∃ first resume, Notes note 1 first resume ⟨["b"]⟩) ∧
      r'.state.diagnostics = [missingHere.diagnostic, note] ∧
      (tokensBetween (View.input behindInsertion.input) behindInsertion.input.place
        r'.input.place).length = 2 := by
  have hlive : Live behindInsertion.input :=
    ⟨⟨_, ⟨_, _, _, rfl⟩, (Step.seek _ 0).reaches⟩, (TokenStream.movesTo_seek _ 0).started⟩
  have hend : ((exitRule ⟨⟨1, "b"⟩, 0, Token.ofText 7 ";"⟩ (.error (.failed missingHere))
      behindInsertion).map fun result => (result.1.toBool, result.2.input.place)) =
        some (true, 2) := by
    decide +kernel
  obtain ⟨⟨o, r'⟩, hexit, hvalues⟩ := Option.map_eq_some_iff.1 hend
  obtain ⟨hok, hplace⟩ := Prod.mk.inj hvalues
  rcases o with fault | node
  · cases hok
  · obtain ⟨-, hsome, -⟩ := skipped_input_noted hlive (by decide) hexit
    have hskipped : (tokensBetween (View.input behindInsertion.input) (skipStart behindInsertion)
        r'.input.place).map Token.type = [7] := by
      rw [hplace]
      decide +kernel
    obtain ⟨first, hlist⟩ := List.map_eq_singleton_iff.1 hskipped
    obtain ⟨resume, note, -, hnote, hdiagnostics⟩ := hsome first [] hlist.1
    rw [hlist.1] at hnote
    refine ⟨node, r', note, hexit, ⟨first, resume, hnote⟩, hdiagnostics, ?_⟩
    rw [hplace]
    decide +kernel

end Parser

end Lookahead
