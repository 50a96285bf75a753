import Lookahead.Lexer.Basic
import Lookahead.Stream.Source

/-!
# Lexers as token sources

A lexer becomes a source of tokens by a rule that matches one token.  Where the rule fails, the
failure is reported and one character is dropped; lexical errors do not hide each other.  A misuse
and a spent error budget end the source early, and so does the end of the text, for which there is
one last token.

A rule may match without taking a character, and such a rule makes tokens for ever.  The source
therefore has a limited *patience*: it runs the rule so many times, and has ended when it may not
run it again.
-/

namespace Lookahead

/-- A source of tokens that a lexer makes, one for each call of a rule that makes one. -/
structure LexerSource where
  lexer : Lexer
  /-- The rule that matches one token. -/
  rule : Action Lexer Unit
  /-- How many times the rule may still be run. -/
  patience : Nat
  /-- The fault that ended the source early, if one did. -/
  fatal : Option Fault
  /-- Has the source ended? -/
  done : Bool

namespace LexerSource

/-- The source of a lexer that has not run. -/
def ofLexer (lexer : Lexer) (rule : Action Lexer Unit) (patience : Nat) : LexerSource :=
  ⟨lexer, rule, patience, none, false⟩

/-- Report a failure and drop a character. Recovery is over by that, so that the next failure is
reported as well. -/
def recover (l : Lexer) (f : Failure) : Report × Lexer :=
  let (report, state) := l.state.report f
  (report, { l with
    state := { state with recovering := false }, input := Cursor.consume l.input })

/-- Drop a character on which a rule gave up without a report. -/
def dropSilently (l : Lexer) : Lexer :=
  { l with state := { l.state with failed := false }, input := Cursor.consume l.input }

/-- Look for the next token from the lexer's place on, within the given patience. Calls that skip
their token or fail are followed by further ones. -/
def search (rule : Action Lexer Unit) : (patience : Nat) → Lexer → Option Token × LexerSource
  | 0, lexer => (none, ⟨lexer, rule, 0, none, true⟩)
  | patience + 1, lexer =>
    let lexer := lexer.begun
    if lexer.input.lookahead 1 = .eof then
      (some lexer.endToken, ⟨lexer, rule, patience, none, true⟩)
    else
      match rule lexer with
      | none => (none, ⟨lexer, rule, 0, none, true⟩)
      | some (.ok (), lexer) =>
        match lexer.finished with
        | some token => (some token, ⟨lexer, rule, patience, none, false⟩)
        | none => search rule patience lexer
      | some (.error (.failed f), lexer) =>
        match recover lexer f with
        | (.budgetExhausted, lexer) =>
          let lexer := { lexer with state := lexer.state.escalate f }
          (none, ⟨lexer, rule, patience, some (.failed f), true⟩)
        | (_, lexer) => search rule patience lexer
      | some (.error .backtracking, lexer) => search rule patience (dropSilently lexer)
      | some (.error (.misuse cause), lexer) =>
        (none, ⟨lexer, rule, patience, some (.misuse cause), true⟩)

theorem patience_search (rule : Action Lexer Unit) {patience : Nat} {lexer : Lexer} {t : Token}
    {s : LexerSource} (h : search rule patience lexer = (some t, s)) : s.patience < patience := by
  induction patience generalizing lexer with
  | zero => simp [search] at h
  | succ patience ih =>
    have hstop {o : Option Token} {l : Lexer} {fault : Option Fault} {done : Bool}
        (hs : (o, (⟨l, rule, patience, fault, done⟩ : LexerSource)) = (some t, s)) :
        s.patience < patience + 1 := by
      obtain ⟨_, rfl⟩ := Prod.mk.inj hs
      exact Nat.lt_succ_self patience
    rw [search] at h
    split at h
    · exact hstop h
    · split at h
      · simp at h
      · split at h
        · exact hstop h
        · exact Nat.lt_succ_of_lt (ih h)
      · split at h
        · exact hstop h
        · exact Nat.lt_succ_of_lt (ih h)
      · exact Nat.lt_succ_of_lt (ih h)
      · exact hstop h

instance : TokenSource LexerSource where
  next s := if s.done then (none, s) else search s.rule s.patience s.lexer
  remaining := patience
  remaining_next {s s' t} h := by
    split at h
    · simp at h
    · exact patience_search s.rule h

end LexerSource

/-- The rule of a lexer that knows no tokens. -/
def Lexer.noRules : Action Lexer Unit := noViableChar "no token rules"

end Lookahead
