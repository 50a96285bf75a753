import Lookahead.Proofs.Recognizer.Ending
import Lookahead.Proofs.Walker.Course

/-!
# A walk reports its first failure and stops

A walker mends nothing, so all that it can do about a failure is to report it, once, when it leaves
the rule in which it was raised.  The enclosing rules see that it has given up, and hand the failure
on (`first_failure_ends_walk`).  What was tried speculatively before is not heard of.

The conditions are that no frames are pushed or popped by hand, that the depth of backtracking is
not set, and that no statement goes on from a fault.  `first_failure_not_final` shows for the first
two, and for the two ways in which another fault can take the place of the failure, that there is no
doing without.
-/

namespace Lookahead

open Action Recognizer

variable {ι : Type}

/-- A statement that leaves the stack of rules and the depth of backtracking to the recognizer, and
faults to those who run it. -/
def Statement.Propagates (s : Statement ι) : Prop := ¬ s.SetsDepth ∧ ¬ s.Reframes ∧ ¬ s.Catches

namespace State

variable {s s' : State} {f : Failure} {report : Report}

/-- A failure that is not kept back is counted, and is the next diagnostic; at most the one that
says that the error budget is spent stands behind it. -/
lemma report_counts (hready : s.recovering = false) (h : s.report f = (report, s')) :
    s'.syntaxErrors = s.syntaxErrors + 1 ∧ s'.diagnostics = s.diagnostics ++
      f.diagnostic :: ((s.counted f).exceededLimit.map (limitDiagnostic f)).toList := by
  rw [report_eq, hready, if_neg Bool.false_ne_true] at h
  rcases hlimit : (s.counted f).exceededLimit with _ | limit
  · rw [hlimit] at h
    cases h
    exact ⟨rfl, rfl⟩
  · rw [hlimit] at h
    cases h
    exact ⟨rfl, List.append_assoc ..⟩

/-- Nothing was reported or counted, and nobody has given up. -/
structure Spotless (s : State) : Prop where
  diagnostics_eq : s.diagnostics = []
  syntaxErrors_eq : s.syntaxErrors = 0
  mode_ne : s.mode ≠ .failed

/-- One failure was reported, and that was the end. There is a second diagnostic only if the error
budget allows no error at all. -/
structure EndedBy (f : Failure) (s : State) : Prop where
  mode_eq : s.mode = .failed
  syntaxErrors_eq : s.syntaxErrors = 1
  diagnostics_eq : s.diagnostics =
    f.diagnostic :: ((s.options.maxErrors.filter (· < 1)).map (limitDiagnostic f)).toList

end State

namespace Course

variable {k : Manner} {e : Option Fault} {s s' : State} {ms : List Moment}

/-- Without guards that raise the depth, the signal of a speculation that does not match is not seen
outside of speculations. -/
lemma ne_backtracking (h : Course k e s ms s') (hraises : ¬ k.raises) (hsets : ¬ k.sets)
    (hdepth : s.backtracking = 0) : e ≠ some .backtracking := by
  induction h with
  | work | reframe | note | repair | hint | misuse | raise | exhaust | attempt => simp
  | setDepth hk => exact absurd hk hsets
  | signal hpos => exact absurd hdepth (Nat.ne_of_gt hpos)
  | call body leaving ih =>
    cases leaving with
    | handOn => exact ih hdepth
    | mend => simp
    | giveUp => simp
  | @guard e e' s s₁ raise ms hraise body _ hend ih =>
    obtain rfl : raise = false := by
      cases raise with
      | false => rfl
      | true => exact absurd (hraise rfl) hraises
    rcases hend with rfl | ⟨cause, -, rfl⟩
    · exact ih hdepth
    · simp
  | predicate _ _ _ hend =>
    rcases hend with rfl | ⟨cause, rfl⟩
    · simp
    · simp
  | trans first _ _ ih' => exact ih' ((first.level.backtracking_eq hsets).trans hdepth)

end Course

namespace Walker

/-- A walker may only raise the depth of backtracking by guards, and does so if `raises` holds. -/
def manner (raises : Prop) : Manner := ⟨False, raises, False, False, False, False⟩

lemma keeps_hushed (raises : Prop) : (manner raises).Keeps State.Hushed where
  refl := State.Hushed.refl
  trans _ _ _ := State.Hushed.trans
  hushed := id
  report hk := hk.elim
  explained hk := hk.elim
  annotate _ hk := hk.elim

variable {raises : Prop} {e : Option Fault} {s s' : State} {ms : List Moment}

/-- What becomes of a walker that has not failed before. -/
lemma spotless_or_ended (h : Course (manner raises) e s ms s') (hdiagnostics : s.diagnostics = [])
    (hcount : s.syntaxErrors = 0) (hready : s.recovering = false) (hopen : s.escalated = false) :
    (s'.Spotless ∧ ∀ f, e = some (.failed f) → f.context = s.context) ∨
      ∃ c : Surrender, ms = c.moments ∧ c.Within State.Hushed e s s' ∧ s'.EndedBy c.failure := by
  rcases h.ends (keeps_hushed raises) id id hopen with hend | ⟨-, c, hms, hend⟩
  · refine .inl ⟨⟨hend.kept.diagnostics_eq.trans hdiagnostics,
      hend.kept.syntaxErrors_eq.trans hcount, State.mode_ne_failed hend.escalated_eq⟩, ?_⟩
    intro f hf
    obtain ⟨before, st, -, hcontext, -, hst⟩ := hend.raised f hf
    rw [hcontext, ← hst.context_eq, State.context, State.context, h.level.frames_eq id]
  · refine .inr ⟨c, hms, hend, ?_⟩
    obtain ⟨st, hst, hreport⟩ := hend.report_eq
    obtain ⟨st', hst', hover⟩ := hend.ended_eq
    have hquiet : s.Hushed st := hend.kept.trans hst.hushed
    have hready' : st.recovering = false := by
      cases hrecovering : st.recovering with
      | false => rfl
      | true => exact absurd (hready.symm.trans (hquiet.recovering_of hrecovering)) (by decide)
    obtain ⟨hcounted, hexplained⟩ := State.report_counts hready' hreport
    have hafter : c.reported.syntaxErrors = s'.syntaxErrors ∧
        c.reported.diagnostics = s'.diagnostics := by
      rw [hend.hushed.syntaxErrors_eq, hend.hushed.diagnostics_eq, hover]
      exact ⟨hst'.syntaxErrors_eq.symm, hst'.diagnostics_eq.symm⟩
    have hlimit : (st.counted c.failure).exceededLimit = s'.options.maxErrors.filter (· < 1) := by
      have hoptions : s'.options = st.options := h.level.options_eq.trans hquiet.options_eq.symm
      have hone : (st.counted c.failure).syntaxErrors = 1 :=
        congrArg (· + 1) (hquiet.syntaxErrors_eq.trans hcount)
      rw [State.exceededLimit, hone, hoptions]
      rfl
    refine ⟨State.mode_eq_failed_iff.mpr hend.escalated_eq, ?_, ?_⟩
    · rw [← hafter.1, hcounted, hquiet.syntaxErrors_eq, hcount]
    · rw [← hafter.2, hexplained, hquiet.diagnostics_eq, hdiagnostics, hlimit, List.nil_append]

/-- Some statement of the grammar or of the block has a guard that raises the depth of
backtracking. -/
def Guarded (g : Grammar WalkerInstruction) (block : Block WalkerInstruction) : Prop :=
  ¬ (g.All (¬ ·.Raises) ∧ Block.All (¬ ·.Raises) block)

/-- What a run does to the state of a walker, if rules and depth of backtracking are left to it and
faults are handed on. -/
lemma told_run_of_propagates {g : Grammar WalkerInstruction} (hg : g.All Statement.Propagates)
    (fuel : Nat) {block : Block WalkerInstruction}
    (hblock : Block.All Statement.Propagates block) :
    Told (manner (Guarded g block)) (run g fuel block) := by
  by_cases hraises : g.All (¬ ·.Raises) ∧ Block.All (¬ ·.Raises) block
  · have htelling := telling (k := manner (Guarded g block)) (hg.and hraises.1)
      (fun s h hs => absurd hs h.2) (fun s h hs => h.1.1 hs) (fun s h hs => h.1.2.1 hs)
      (fun s h hs => h.1.2.2 hs) fun _ hrun => .inr (hrun.floats id)
    exact Grammar.told_run htelling (hg.and hraises.1) fuel (hblock.and hraises.2)
  · have htelling := telling (k := manner (Guarded g block)) hg (fun _ _ _ => hraises)
      (fun s h hs => h.1 hs) (fun s h hs => h.2.1 hs) (fun s h hs => h.2.2 hs)
      fun _ hrun => .inr (hrun.floats id)
    exact Grammar.told_run htelling hg fuel hblock

/-- **A walk reports its first failure and stops.**  No statement of the grammar or of the block
pushes or pops frames, sets the depth of backtracking, or goes on from a fault; the walker has not
run before; and a failure that comes out was raised in a rule (`hinside`).

The moments are those of the course that leads from the first state to the last and leaves this
trace.  Either nothing was reported at the end and nobody has given up.  Or a failure has ended the
walk: it is the only one that was reported, and at every moment before it was raised nothing had
been.  Its path is that of the rules which the course has entered and not left where it was raised;
and what the course does behind it is to leave rules.  It comes out, unless a guard that it leaves
has lost its mark. -/
theorem first_failure_ends_walk {g : Grammar WalkerInstruction} (hg : g.All Statement.Propagates)
    (fuel : Nat) {block : Block WalkerInstruction} (hblock : Block.All Statement.Propagates block)
    {input : NodeStream} {options : Options} {vocabulary : Vocabulary} {o : Except Fault Unit}
    {w : Walker} (hrun : run g fuel block (ofStream input options vocabulary) = some (o, w))
    (hinside : ∀ f, o = .error (.failed f) → f.context ≠ ⟨[]⟩) :
    ∃ ms, Course (manner (Guarded g block)) (Fault.ofOutcome o) (.initial options vocabulary) ms
        w.state ∧
      w.trace.toList = eventsOf ms ∧
      ((w.state.Spotless ∧
          (o = .ok () ∨ (∃ cause, o = .error (.misuse cause)) ∨
            o = .error .backtracking ∧ Guarded g block)) ∨
        ∃ c : Surrender, ms = c.moments ∧ w.state.EndedBy c.failure ∧
          c.Within State.Hushed (Fault.ofOutcome o) (.initial options vocabulary) w.state ∧
          (∃ l, Ledger.of (c.before ++ [⟨.raised c.failure, c.raised⟩]) = some l ∧
            l.Holds [] ⟨.raised c.failure, c.raised⟩) ∧
          (o = .error (.failed c.failure) ∨
            ∃ cause : Misuse, cause.LosesMark ∧ o = .error (.misuse cause))) := by
  obtain ⟨ms, hcourse, htrace⟩ := told_run_of_propagates hg fuel hblock hrun
  refine ⟨ms, hcourse, htrace, ?_⟩
  rcases spotless_or_ended hcourse rfl rfl rfl rfl with ⟨hspotless, htop⟩ | ⟨c, rfl, hend, hended⟩
  · refine .inl ⟨hspotless, ?_⟩
    rcases o with (f | _ | cause) | ⟨⟩
    · exact absurd (htop f rfl) (hinside f rfl)
    · by_cases hraised : Guarded g block
      · exact .inr (.inr ⟨rfl, hraised⟩)
      · exact absurd rfl (hcourse.ne_backtracking hraised id rfl)
    · exact .inr (.inl ⟨cause, rfl⟩)
    · exact .inl rfl
  · obtain ⟨_, haccords, -⟩ := hcourse.accords id [] [] (List.append_nil []).symm
    refine .inr ⟨c, rfl, hended, hend, haccords.at, ?_⟩
    rcases o with (f | _ | cause) | ⟨⟩
    all_goals simpa [Fault.ofOutcome] using hend.outcome

/-- A grammar of one rule, which matches a node of type 5, be it behind something else. -/
def five (before : Block WalkerInstruction) : Grammar WalkerInstruction :=
  ⟨[("five", before ++ [.perform (.type 5)])], [], []⟩

/-- The rule is called. -/
def callFive : Statement WalkerInstruction := .perform (.call 0)

/-- A walker in front of a node of type 4. -/
def atFour : Walker :=
  .ofStream ⟨#[.node 0 (.token (Token.ofText 4 "n"))], 0, .empty, ""⟩ .standard (.tokens #[])

/-- A rule that is tried in vain and then called ends the walk. -/
theorem first_failure_ends_walk_five :
    ∃ (w : Walker) (f : Failure),
      run (five []) 4 [.synpred [callFive] [] [], callFive] atFour = some (.error (.failed f), w) ∧
      w.state.EndedBy f ∧ f.context = ⟨["five"]⟩ := by
  have hgrammar : (five []).All Statement.Propagates := by
    apply Grammar.all_of_mem
    all_goals simp [five, Statement.all_iff, Statement.blocks, Statement.Propagates,
      Statement.Reframes, Statement.SetsDepth, Statement.Catches]
  have hblock : Block.All Statement.Propagates [.synpred [callFive] [] [], callFive] := by
    simp [callFive, Statement.all_iff, Statement.blocks, Statement.Propagates, Statement.Reframes,
      Statement.SetsDepth, Statement.Catches]
  have hend : ((run (five []) 4 [.synpred [callFive] [] [], callFive] atFour).map fun r =>
      failurePath r.1) = some (some ⟨["five"]⟩) := by
    decide +kernel
  obtain ⟨⟨o, w⟩, hrun, hpath⟩ := Option.map_eq_some_iff.1 hend
  obtain ⟨f, rfl, hcontext⟩ := exists_of_failurePath hpath
  have hinside : ∀ f', (.error (.failed f) : Except Fault Unit) = .error (.failed f') →
      f'.context ≠ ⟨[]⟩ := by
    rintro _ ⟨⟩
    simp [hcontext]
  obtain ⟨ms, -, -, hspotless | ⟨c, -, hended, -, -, hout | ⟨_, -, hout⟩⟩⟩ :=
    first_failure_ends_walk hgrammar 4 hblock hrun hinside
  · obtain ⟨-, hout | ⟨_, hout⟩ | ⟨hout, -⟩⟩ := hspotless
    all_goals cases hout
  · cases hout
    exact ⟨w, _, hrun, hended, hcontext⟩
  · cases hout

/-- The two ways in which a walk would be expected to end. -/
def ReportsOnce (o : Except Fault Unit) (s : State) : Prop :=
  (s.Spotless ∧ (o = .ok () ∨ ∃ cause, o = .error (.misuse cause))) ∨
    ∃ f, o = .error (.failed f) ∧ s.EndedBy f

/-- **The first failure need not come out.**  A guard that raises the depth of backtracking, and a
depth that is set, make it a signal that nobody reports.  A guard whose mark was popped under it
hides it behind a misuse.  And a failure in a rule whose frame was popped by hand does not name the
rule. -/
theorem first_failure_not_final :
    (∃ o w, run (five []) 4 [.speculating true .abandon [callFive]] atFour = some (o, w) ∧
      ¬ ReportsOnce o w.state) ∧
    (∃ o w, run (five []) 4 [.setBacktracking 1, callFive] atFour = some (o, w) ∧
      ¬ ReportsOnce o w.state) ∧
    (∃ o w, run (five []) 4 [.mark, .speculating false .restore [.rewind 0, callFive]] atFour =
      some (o, w) ∧ ¬ ReportsOnce o w.state) ∧
    ∃ f w, run (five [.popFrame]) 4 [callFive] atFour = some (.error (.failed f), w) ∧
      f.context ≠ ⟨["five"]⟩ := by
  have hsignal {b : Block WalkerInstruction} (hend : ((run (five []) 4 b atFour).map fun r =>
      Fault.ofOutcome r.1) = some (some .backtracking)) :
      ∃ o w, run (five []) 4 b atFour = some (o, w) ∧ ¬ ReportsOnce o w.state := by
    obtain ⟨⟨o, w⟩, hrun, hout⟩ := Option.map_eq_some_iff.1 hend
    refine ⟨o, w, hrun, ?_⟩
    rintro (⟨-, rfl | ⟨cause, rfl⟩⟩ | ⟨f, rfl, -⟩)
    all_goals cases hout
  refine ⟨hsignal (by decide +kernel), hsignal (by decide +kernel), ?_, ?_⟩
  · have hend : ((run (five []) 4 [.mark, .speculating false .restore [.rewind 0, callFive]]
        atFour).map fun r => (Fault.ofOutcome r.1, r.2.state.syntaxErrors)) =
          some (some (.misuse (.staleMark 1)), 1) := by
      decide +kernel
    obtain ⟨⟨o, w⟩, hrun, hvalues⟩ := Option.map_eq_some_iff.1 hend
    obtain ⟨hout, hcount⟩ := Prod.mk.inj hvalues
    refine ⟨o, w, hrun, ?_⟩
    rintro (⟨hspotless, -⟩ | ⟨f, rfl, -⟩)
    · exact absurd (hspotless.syntaxErrors_eq.symm.trans hcount) (by decide)
    · cases hout
  · have hend : ((run (five [.popFrame]) 4 [callFive] atFour).map fun r => failurePath r.1) =
        some (some ⟨[]⟩) := by
      decide +kernel
    obtain ⟨⟨o, w⟩, hrun, hpath⟩ := Option.map_eq_some_iff.1 hend
    obtain ⟨f, rfl, hcontext⟩ := exists_of_failurePath hpath
    exact ⟨f, w, hrun, by simp [hcontext]⟩

end Walker

end Lookahead
