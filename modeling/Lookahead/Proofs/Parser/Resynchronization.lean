import Lookahead.Proofs.Parser.Course
import Lookahead.Proofs.Parser.Matching
import Lookahead.Proofs.Recognizer.Follow
import Lookahead.Proofs.Stream.Skipping

/-!
# Where a parser resumes

A resynchronization skips to the next token at which one of the rules in progress can be resumed.
It skips from the cursor, or, if the input was resynchronized from the cursor before, from the token
behind it, so that no two of them start at one place (`skipStart`).  It ends behind the tokens that
it skipped or, out of tokens, at the end of input (`Resynced`).  A rule that is left with a failure
reports it, resynchronizes, hangs an error node over what was skipped and is gone (`exit_failed`).
-/

namespace Lookahead

open Action Cursor Recognizer
open Cursor.View (Ready)

namespace Parser

open TokenStream

variable {σ : Type} [TokenSource σ] {r r' : Parser σ} {report : Report} {f : Failure}

/-! ## Resynchronization -/

/-- The place from which a resynchronization skips: that of the cursor, or the one behind it if the
input was resynchronized from there before. -/
def skipStart (r : Parser σ) : Nat :=
  if r.state.lastErrorIndex = some r.input.place then
    following r.input.fill.buffer r.input.channel r.input.place
  else r.input.place

/-- The stream at that place. -/
def skipInput (r : Parser σ) : TokenStream σ :=
  if r.state.lastErrorIndex = some r.input.place then Cursor.consume r.input else r.input

/-- The token types at which the parser resumes: those at which a rule in progress can be resumed,
as long as the stack is not mistaken for another one. -/
def resumable (r : Parser σ) : TokenSet := combinedFollow false (r.state.taken false)

/-- The state of a parser that remembers from where it skips. -/
def remembering (r : Parser σ) : State :=
  State.recoverySet { r.state with lastErrorIndex := some (skipStart r) } |>.2

/-- What comes of a resynchronization: a token at which a rule can be resumed, or the failure. -/
inductive Resynced (report : Report) (f : Failure) (r : Parser σ) :
    Except Fault Unit → Parser σ → Prop
  | resumed {n : Nat} {i : TokenStream σ} {first resume : Token}
      (hskips : Skips (resumable r).has (skipInput r) n i)
      (hfirst : (View.input r.input).1[skipStart r]? = some first)
      (hresume : (View.input r.input).1[i.place]? = some resume)
      (hlegal : (resumable r).has resume.type = true) :
      Resynced report f r (.ok ()) { r with
        input := i
        state :=
          if 0 < n ∧ report = .recorded then
            (remembering r).addDiagnostic (skippedNote n first resume f.context)
          else remembering r }
  | exhausted {n : Nat} {i : TokenStream σ} {last : Token}
      (hskips : Skips (resumable r).has (skipInput r) n i)
      (hlast : (View.input r.input).1[i.place]? = some last) (heof : last.isEof = true)
      (hlegal : (resumable r).has .eof = false) :
      Resynced report f r (.error (.failed f)) { r with
        input := i, state := (remembering r).escalate f }

lemma skipInput_eq (hr : Ready r.input) : (skipInput r).OnToken ∧
    View.input (skipInput r) = View.input r.input ∧ (skipInput r).place = skipStart r := by
  unfold skipInput skipStart
  split
  · obtain ⟨t, -, hcross⟩ := crosses_consume hr
    exact ⟨hcross.ready, hcross.input_eq, place_consume hr⟩
  · exact ⟨hr, rfl, rfl⟩

lemma resynchronize_apply (r : Parser σ) (report : Report) (f : Failure) :
    resynchronize report f r =
      skipAhead report f { r with input := skipInput r } := by
  have hindex : Cursor.index r.input = r.input.place := rfl
  rw [resynchronize_eq]
  simp only [bind_apply, index_apply, readState_apply, skipInput, hindex]
  split
  · rfl
  · rfl

lemma recoverySet_remembering (r : Parser σ) :
    State.recoverySet { r.state with lastErrorIndex := some (skipStart r) } =
      (resumable r, remembering r) :=
  Prod.ext (State.follow_fst _ false) rfl

/-- **A resynchronization always ends**, at the first token at which a rule can be resumed or at the
end of input. -/
lemma resynced_resynchronize (hr : Ready r.input) (report : Report) (f : Failure) :
    ∃ o r', resynchronize report f r = some (o, r') ∧ Resynced report f r o r' := by
  obtain ⟨hready, hinput, hplace⟩ := skipInput_eq hr
  obtain ⟨first, hfirst, hhere⟩ := symbol_eq hready
  have hskips := skips_skipUntil (resumable r).has hready
  obtain ⟨resume, hresume, hthere⟩ := symbol_eq hskips.ready
  have hindex : Cursor.index (skipInput r) = skipStart r := hplace
  have hsymbol : Cursor.symbol (skipInput r) = (first, skipInput r) := hfirst
  have hsymbol' : Cursor.symbol ((skipInput r).skipUntil (resumable r).has (skipInput r).bound).2 =
      (resume, ((skipInput r).skipUntil (resumable r).has (skipInput r).bound).2) := hresume
  rw [resynchronize_apply]
  simp only [skipAhead, bind_apply, index_apply, updateState_apply, stepState_apply, hindex,
    recoverySet_remembering, Recognizer.symbol, stepInput_apply, hsymbol, hsymbol']
  have hbuffer := congrArg Prod.fst hinput
  have hfirst' : (View.input r.input).1[skipStart r]? = some first := by
    rw [← hinput, ← hplace]
    exact hhere
  have hresume' : (View.input r.input).1[((skipInput r).skipUntil (resumable r).has
      (skipInput r).bound).2.place]? = some resume := by
    rw [← hinput, ← hskips.input_eq]
    exact hthere
  obtain ⟨t, ht, hstop⟩ := hskips.stops
  obtain rfl : t = resume := by
    rw [← hinput] at hresume'
    exact Option.some.inj (ht.symm.trans hresume')
  split
  · rename_i hend
    simp only [Bool.and_eq_true, Bool.not_eq_true'] at hend
    exact ⟨_, _, rfl, .exhausted hskips hresume' hend.1 hend.2⟩
  · rename_i hend
    have hlegal : (resumable r).has t.type = true := by
      rcases hstop with heof | hstop
      · have htype : t.type = .eof := beq_iff_eq.1 heof
        simpa [heof, htype] using hend
      · exact hstop
    have hresumed : Resynced report f r (.ok ()) _ := .resumed hskips hfirst' hresume' hlegal
    split
    · rename_i hnote
      simp only [Bool.and_eq_true, decide_eq_true_eq] at hnote
      rw [if_pos hnote] at hresumed
      exact ⟨_, _, rfl, hresumed⟩
    · rename_i hnote
      simp only [Bool.and_eq_true, decide_eq_true_eq] at hnote
      rw [if_neg hnote] at hresumed
      exact ⟨_, _, rfl, hresumed⟩

/-! ## Leaving a rule -/

/-- A failure that leaves a rule is recovered from: the parser is not speculating and has not given
up, and this is not one failure too many. -/
structure Recovers (r : Parser σ) (f : Failure) : Prop where
  backtracking_eq : r.state.backtracking = 0
  escalated_eq : r.state.escalated = false
  in_budget : (r.state.report f).1 ≠ .budgetExhausted

/-- A parser that has reported a failure. -/
def reported (r : Parser σ) (f : Failure) : Parser σ := { r with state := (r.state.report f).2 }

/-- The error node for a rule, with the token behind the cursor for its last. -/
def standIn (start : RuleStart) (r : Parser σ) : NodeId × Tree :=
  let last := r.input.behind 1 r.input.place
  r.own.tree.newError (some start.token) last <|
    match last.bind Token.index with
    | some stop => if start.index ≤ stop then r.input.channelText start.index stop else ""
    | none => ""

/-- What stands in for a rule after a resynchronization that came out as `o`. -/
def replaced (start : RuleStart) : Except Fault Unit → Parser σ →
    Except Fault (Option NodeId) × Parser σ
  | .ok (), r =>
    (.ok (some (standIn start r).1), { r with own := { r.own with tree := (standIn start r).2 } })
  | .error fault, r => (.error fault, r)

/-- A parser that has left a rule. -/
def departed (r : Parser σ) : Parser σ := { r with state := r.state.popFrame }

omit [TokenSource σ] in
/-- A report leaves alone what a resynchronization looks at. -/
lemma report_keeps (s : State) (f : Failure) :
    (s.report f).2.frames = s.frames ∧ (s.report f).2.lastErrorIndex = s.lastErrorIndex ∧
      (s.report f).2.backtracking = s.backtracking := by
  unfold State.report
  split
  · exact ⟨rfl, rfl, rfl⟩
  · simp only
    split
    · exact ⟨rfl, rfl, rfl⟩
    · exact ⟨rfl, rfl, rfl⟩

lemma skipStart_reported (r : Parser σ) (f : Failure) : skipStart (reported r f) = skipStart r := by
  simp only [skipStart, reported, (report_keeps r.state f).2.1]

/-- What a resynchronization leaves in the state besides diagnostics. -/
lemma Resynced.state_eq {o : Except Fault Unit} (h : Resynced report f r o r') :
    r'.state.backtracking = r.state.backtracking ∧
      r'.state.lastErrorIndex = some (skipStart r) := by
  cases h with
  | resumed =>
    split
    · exact ⟨rfl, rfl⟩
    · exact ⟨rfl, rfl⟩
  | exhausted => exact ⟨rfl, rfl⟩

/-- A resynchronization goes on from where it starts. -/
lemma Resynced.le {o : Except Fault Unit} (hr : Ready r.input) (h : Resynced report f r o r') :
    skipStart r ≤ r'.input.place ∧ View.input r'.input = View.input r.input := by
  obtain ⟨-, hinput, hplace⟩ := skipInput_eq hr
  cases h with
  | resumed hskips | exhausted hskips =>
    exact ⟨hplace ▸ hskips.le, hskips.input_eq.trans hinput⟩

lemma Resynced.ready {o : Except Fault Unit} (h : Resynced report f r o r') : Ready r'.input := by
  cases h with
  | resumed hskips => exact hskips.ready
  | exhausted hskips => exact hskips.ready

omit [TokenSource σ] in
lemma reportFailure_of_recovers (hrec : Recovers r f) :
    reportFailure f r = some (.ok (r.state.report f).1, reported r f) := by
  rcases hcase : r.state.report f with ⟨report, s⟩
  have hbudget := hrec.in_budget
  rw [hcase] at hbudget
  simp only [reportFailure, bind_apply, stepState_apply, hcase, reported]
  cases report with
  | budgetExhausted => exact absurd rfl hbudget
  | recorded | suppressed => rfl

lemma recoverInRule_of_recovers (start : RuleStart) {o : Except Fault Unit} {r₁ : Parser σ}
    (hrec : Recovers r f) (hready : Ready r₁.input)
    (hresync : resynchronize (r.state.report f).1 f (reported r f) = some (o, r₁)) :
    recoverInRule start f r = some (replaced start o r₁) := by
  have hbehind : r₁.input.lookBehind 1 = (r₁.input.behind 1 r₁.input.place, r₁.input) := by
    rw [TokenStream.lookBehind, start_of_started hready.started]
  rw [recoverInRule, bind_of_ok (reportFailure_of_recovers hrec)]
  cases o with
  | error fault => rw [bind_apply, hresync, replaced]
  | ok _ =>
    rw [bind_of_ok hresync]
    simp only [errorNode, bind_apply, Parser.lookBehind, stepInput_apply, hbehind]
    rfl

/-- What leaves a rule well after a failure was recovered from. -/
lemma recovers_of_exitRule {start : RuleStart} {node : Option NodeId}
    (h : exitRule start (.error (.failed f)) r = some (.ok node, r')) : Recovers r f := by
  have hfault (fault : Fault) (r₁ : Parser σ) :
      leave start (.error fault : Except Fault (Option NodeId)) r₁ ≠ some (.ok node, r') := by
    intro hleave
    simp only [leave, bind_apply, record, isMemoizing, readState_apply] at hleave
    split at hleave
    all_goals simp at hleave
  rw [exitRule_eq, bind_apply, readState_apply] at h
  by_cases hhandles : recovers r.state = true
  · simp only [recovers, Bool.and_eq_true, decide_eq_true_eq, Bool.not_eq_true'] at hhandles
    refine ⟨hhandles.1, hhandles.2, fun hbudget => ?_⟩
    have hreport : reportFailure f r =
        some (.error (.failed f), { r with state := (r.state.report f).2.escalate f }) := by
      rcases hcase : r.state.report f with ⟨report, s⟩
      rw [hcase] at hbudget
      obtain rfl : report = .budgetExhausted := hbudget
      simp only [reportFailure, bind_apply, stepState_apply, hcase]
      rfl
    have hrecover : recoverInRule start f r =
        some (.error (.failed f), { r with state := (r.state.report f).2.escalate f }) := by
      rw [recoverInRule, bind_apply, hreport]
    simp only [recovers, hhandles.1, hhandles.2, decide_true, Bool.not_false, Bool.and_self,
      handling, bind_apply, attempt_apply, hrecover, Option.map_some] at h
    exact hfault _ _ h
  · simp only [Bool.not_eq_true] at hhandles
    simp only [hhandles, handling, bind_apply, attempt_apply, ofExcept_apply, Option.map_some] at h
    exact (hfault _ _ h).elim

/-- **Recovery always ends**, with an error node or with the failure. -/
lemma exitRule_of_recovers (start : RuleStart) (hr : Ready r.input) (hrec : Recovers r f) :
    ∃ o r₁, Resynced (r.state.report f).1 f (reported r f) o r₁ ∧
      exitRule start (.error (.failed f)) r =
        some ((replaced start o r₁).1, departed (replaced start o r₁).2) := by
  obtain ⟨o, r₁, hresync, hwork⟩ :=
    resynced_resynchronize (r := reported r f) hr (r.state.report f).1 f
  refine ⟨o, r₁, hwork, ?_⟩
  have hhandles : recovers r.state = true := by
    simp [recovers, hrec.backtracking_eq, hrec.escalated_eq]
  have hdepth : (replaced start o r₁).2.state.backtracking = 0 := by
    have hkept : (replaced start o r₁).2.state = r₁.state := by cases o <;> rfl
    rw [hkept]
    exact hwork.state_eq.1.trans ((report_keeps r.state f).2.2.trans hrec.backtracking_eq)
  rw [exitRule_eq, bind_apply, readState_apply, hhandles]
  simp only [handling, bind_apply, attempt_apply,
    recoverInRule_of_recovers start hrec hwork.ready hresync, Option.map_some]
  simp [leave, bind_apply, record, isMemoizing, hdepth, departed]

end Parser

end Lookahead
