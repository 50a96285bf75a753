import Lookahead.Proofs.Parser.Halting
import Lookahead.Proofs.Recognizer.Budget

/-!
# The error budget is exact, and giving up is final

A parser whose statements hand on faults records no more failures than one beyond its error budget,
and with that one it gives up (`error_budget_exact`).  Giving up is final: rules are left and
nothing else is done, no rule recovers or reports anything any more, and the failure that was given
up on comes out.

All that may still happen is that guards end.  That may take the input back to where they began, and
a guard that has lost its mark complains about that instead (`giving_up_ends_guards`).
-/

namespace Lookahead.Parser

open Action Recognizer

variable {σ : Type} [TokenSource σ] {g : Grammar ParserInstruction}

/-- **The error budget is exact, and giving up is final.**  The grammar and the block hand on their
faults, and none of their speculations ends at depth 0 (`Dutiful`, `HandsOn`); the parser has not
run before.

The moments are those of the course that leads from the first state to the last and leaves this
trace.  At every one of them the books are in order.  Either the parser never gives up, and has
errors to spare at the end, or it has given up on a failure and that is final: no moment before was
one of giving up, and all that is done behind it is to leave rules.  In the second case the parser
that halts where it gives up comes to the same result, the same tree, the same place and the same
reports. -/
theorem error_budget_exact (hg : Dutiful σ g) (fuel : Nat) {block : Block ParserInstruction}
    (hblock : Block.All (HandsOn σ g) block) {input : TokenStream σ} {options : Options}
    {vocabulary : Vocabulary} {o : Except Fault Unit} {p : Parser σ}
    (hrun : run g fuel block (ofStream input options vocabulary) = some (o, p)) :
    ∃ ms, Course manner (Fault.ofOutcome o) (.initial options vocabulary) ms p.state ∧
      p.trace.toList = eventsOf ms ∧ (∀ m ∈ ms, m.state.Books) ∧ p.state.Books ∧
      ((p.state.exceededLimit = none ∧ p.state.mode ≠ .failed ∧
          ∀ m ∈ ms, m.state.mode ≠ .failed) ∨
        ∃ c : Surrender, ms = c.moments ∧ c.Final (Fault.ofOutcome o) p.state ∧
          ∃ q, g.run halting fuel block (ofStream input options vocabulary) = some (o, q) ∧
            Stopped p q) := by
  obtain ⟨ms, hcourse, htrace⟩ := hg.told_run fuel hblock hrun
  obtain ⟨hmoments, hbooks, hend⟩ :=
    hcourse.keeps_books id id rfl (State.spare_initial options vocabulary)
  refine ⟨ms, hcourse, htrace, hmoments, hbooks, ?_⟩
  rcases hend with hopen | ⟨c, rfl, hfinal⟩
  · exact .inl hopen
  · obtain ⟨q, hrun', ⟨hopen, -⟩ | ⟨-, -, -, hstopped⟩⟩ := (halts_run hg fuel hblock).run rfl hrun
    · exact absurd hfinal.mode_eq (State.mode_ne_failed hopen)
    · exact .inr ⟨c, rfl, hfinal, q, hrun', hstopped⟩

/-- A grammar of one rule, which takes a token and fails. -/
def doomed : Grammar ParserInstruction := ⟨[("item", [.consume, .earlyExit 0])], [], []⟩

/-- The rule is called. -/
def callItem : Statement ParserInstruction := .perform (.call 0 .bare)

/-- A parser that gives up on the first failure that it reports. -/
def unforgiving : Parser (List Token) :=
  .ofStream (.ofSource [Token.ofText 4 "a"] 0 "") { Options.standard with maxErrors := some 0 }
    (.tokens #[])

/-- A parser that may not report anything gives up on its first failure. -/
theorem error_budget_exact_doomed :
    ∃ (p q : Parser (List Token)) (f : Failure),
      run doomed 4 [callItem] unforgiving = some (.error (.failed f), p) ∧ p.state.Spent f ∧
        p.state.mode = .failed ∧ Stopped p q := by
  have hgrammar : doomed.All fun s => ¬ s.Catches ∧ ¬ s.SetsDepth := by
    apply Grammar.all_of_mem
    all_goals simp [doomed, Statement.all_iff, Statement.blocks, Statement.SetsDepth,
      Statement.Catches]
  have hblock : Block.All (HandsOn (List Token) doomed) [callItem] := by
    simp [callItem, Statement.all_iff, Statement.blocks, HandsOn, Statement.Catches,
      Statement.Tries]
  have hend : ((run doomed 4 [callItem] unforgiving).map fun r =>
      (failurePath r.1, r.2.state.exceededLimit)) = some (some ⟨["item"]⟩, some 0) := by
    decide +kernel
  obtain ⟨⟨o, p⟩, hrun, hvalues⟩ := Option.map_eq_some_iff.1 hend
  obtain ⟨hpath, hlimit⟩ := Prod.mk.inj hvalues
  obtain ⟨f, rfl, -⟩ := exists_of_failurePath hpath
  obtain ⟨ms, -, -, -, -, ⟨hnone, -⟩ | ⟨c, -, hfinal, q, -, hstopped⟩⟩ :=
    error_budget_exact (dutiful_of_not_setsDepth hgrammar) 4 hblock hrun
  · exact absurd (hnone.symm.trans hlimit) (by decide)
  · rcases hfinal.spent with ⟨-, hspent⟩ | ⟨-, hnone⟩
    · rcases hfinal.outcome with hout | ⟨cause, -, hout⟩
      · cases hout
        exact ⟨p, q, _, hrun, hspent, hfinal.mode_eq, hstopped⟩
      · cases hout
    · exact absurd (hnone.symm.trans hlimit) (by decide)

/-- The place where a rule was left. -/
def exitIndex : Event → Option Nat
  | .exited _ index _ _ => some index
  | _ => none

/-- **Guards end even when a parser has given up.**  A guard that is abandoned takes the parser back
from the place where it gave up.  And a guard whose mark was popped under it hides the failure that
has exhausted the budget behind a misuse. -/
theorem giving_up_ends_guards :
    (∃ (p : Parser (List Token)) (f : Failure),
      run doomed 4 [.speculating false .abandon [callItem]] unforgiving =
        some (.error (.failed f), p) ∧ p.state.exceededLimit = some 0 ∧
      p.trace.toList.filterMap exitIndex = [1] ∧ Cursor.index p.input = 0) ∧
    ∃ (p : Parser (List Token)) (cause : Misuse),
      run doomed 4 [.mark, .speculating false .restore [.rewind 0, callItem]] unforgiving =
        some (.error (.misuse cause), p) ∧ p.state.exceededLimit = some 0 ∧
      p.state.mode = .failed := by
  constructor
  · have hend : ((run doomed 4 [.speculating false .abandon [callItem]] unforgiving).map fun r =>
        (failurePath r.1, r.2.state.exceededLimit, r.2.trace.toList.filterMap exitIndex,
          Cursor.index r.2.input)) = some (some ⟨["item"]⟩, some 0, [1], 0) := by
      decide +kernel
    obtain ⟨⟨o, p⟩, hrun, hvalues⟩ := Option.map_eq_some_iff.1 hend
    simp only [Prod.mk.injEq] at hvalues
    obtain ⟨hpath, hlimit, hexits, hindex⟩ := hvalues
    obtain ⟨f, rfl, -⟩ := exists_of_failurePath hpath
    exact ⟨p, f, hrun, hlimit, hexits, hindex⟩
  · have hend : ((run doomed 4 [.mark, .speculating false .restore [.rewind 0, callItem]]
        unforgiving).map fun r =>
          (Fault.ofOutcome r.1, r.2.state.exceededLimit, r.2.state.mode)) =
            some (some (.misuse (.staleMark 1)), some 0, .failed) := by
      decide +kernel
    obtain ⟨⟨o, p⟩, hrun, hvalues⟩ := Option.map_eq_some_iff.1 hend
    simp only [Prod.mk.injEq] at hvalues
    obtain ⟨hout, hlimit, hmode⟩ := hvalues
    rcases o with (_ | _ | cause) | _
    · cases hout
    · cases hout
    · exact ⟨p, cause, hrun, hlimit, hmode⟩
    · cases hout

end Lookahead.Parser
