import Lookahead.Proofs.Recognizer.Ending

/-!
# The error budget

A parser may be given a number of failures after which it is to give up.  Its books about that are
in order all the time: every failure that was counted is an error among the diagnostics, and the
first one beyond the budget is followed by the diagnostic that says so, with which the reports end
(`Course.keeps_books`).
-/

namespace Lookahead

namespace State

variable {s s' : State} {f : Failure} {report : Report}

/-- The number of diagnostics that say that the error budget is spent. -/
def limitCount (s : State) : Nat :=
  s.diagnostics.countP fun d => d.code = .tooManyErrors

/-- The errors among the diagnostics are the failures that were counted, of which no more than one
is beyond the budget, and in that case the diagnostic that says so. -/
structure Books (s : State) : Prop where
  errorCount_eq : s.errorCount = s.syntaxErrors + s.limitCount
  limitCount_eq : s.limitCount = s.exceededLimit.toList.length
  syntaxErrors_le : ∀ limit, s.options.maxErrors = some limit → s.syntaxErrors ≤ limit + 1

/-- The failures so far are within the budget. -/
structure Spare (s : State) : Prop extends Books s where
  exceededLimit_eq : s.exceededLimit = none

/-- The failure `f` was one too many, and it was the last thing that was reported. -/
structure Spent (f : Failure) (s : State) : Prop extends Books s where
  last : ∃ limit ds, s.exceededLimit = some limit ∧
    s.diagnostics = ds ++ [f.diagnostic, limitDiagnostic f limit]

lemma exceededLimit_eq_none_iff :
    s.exceededLimit = none ↔
      ∀ limit, s.options.maxErrors = some limit → s.syntaxErrors ≤ limit := by
  simp [exceededLimit, Option.filter_eq_none_iff]

lemma errorCount_eq_countP (s : State) : s.errorCount = s.diagnostics.countP Diagnostic.isError :=
  List.countP_eq_length_filter.symm

lemma code_diagnostic (f : Failure) : f.diagnostic.code ≠ .tooManyErrors := by
  show f.code ≠ _
  rw [Failure.code]
  split
  all_goals first | split <;> simp | simp

/-! ## Reports -/

/-- A failure that is counted is one error more, and none of those that say that the budget is
spent. -/
lemma counts_counted (s : State) (f : Failure) :
    (s.counted f).errorCount = s.errorCount + 1 ∧ (s.counted f).limitCount = s.limitCount := by
  constructor
  · rw [errorCount_eq_countP, errorCount_eq_countP, counted, List.countP_append]
    rfl
  · rw [limitCount, limitCount, counted, List.countP_append, List.countP_singleton,
      decide_eq_false (code_diagnostic f)]
    rfl

/-- The diagnostic that says that the budget is spent is one error more. -/
lemma counts_limitDiagnostic (s : State) (f : Failure) (limit : Nat) :
    (s.explained [limitDiagnostic f limit]).errorCount = s.errorCount + 1 ∧
      (s.explained [limitDiagnostic f limit]).limitCount = s.limitCount + 1 := by
  constructor
  · rw [errorCount_eq_countP, errorCount_eq_countP, explained, List.countP_append]
    rfl
  · rw [limitCount, limitCount, explained, List.countP_append]
    rfl

/-- A report leaves the failures within the budget, or it is the one that exhausts it. -/
lemma Spare.reported (hs : s.Spare) (h : s.report f = (report, s')) :
    report ≠ .budgetExhausted ∧ s'.Spare ∨ report = .budgetExhausted ∧ s'.Spent f := by
  obtain ⟨herrors, hlimits⟩ := counts_counted s f
  have hnone : s.limitCount = 0 := by rw [hs.limitCount_eq, hs.exceededLimit_eq]; rfl
  have hbefore : s.errorCount = s.syntaxErrors := by rw [hs.errorCount_eq, hnone, Nat.add_zero]
  have hwithin := exceededLimit_eq_none_iff.mp hs.exceededLimit_eq
  rw [report_eq] at h
  split at h
  · cases h
    exact .inl ⟨by simp, hs⟩
  · rcases hlimit : (s.counted f).exceededLimit with _ | limit
    · rw [hlimit] at h
      cases h
      refine .inl ⟨by simp, ⟨?_, ?_, fun limit hmax => ?_⟩, hlimit⟩
      · rw [herrors, hlimits, hnone, hbefore]
        rfl
      · rw [hlimits, hnone, hlimit]
        rfl
      · exact Nat.succ_le_succ (hwithin limit hmax)
    · rw [hlimit] at h
      cases h
      obtain ⟨herrors', hlimits'⟩ := counts_limitDiagnostic (s.counted f) f limit
      have hlast : ((s.counted f).explained [limitDiagnostic f limit]).exceededLimit = some limit :=
        hlimit
      refine .inr ⟨rfl, ⟨?_, ?_, fun limit hmax => ?_⟩, limit, s.diagnostics, hlast,
        List.append_assoc ..⟩
      · rw [herrors', hlimits', herrors, hlimits, hnone, hbefore]
        rfl
      · rw [hlimits', hlimits, hnone, hlast]
        rfl
      · exact Nat.succ_le_succ (hwithin limit hmax)

/-! ## Everything else -/

lemma spare_initial (options : Options) (vocabulary : Vocabulary) :
    (initial options vocabulary).Spare := by
  have hspare : (initial options vocabulary).exceededLimit = none :=
    exceededLimit_eq_none_iff.mpr fun _ _ => Nat.zero_le _
  exact ⟨⟨rfl, by rw [hspare]; rfl, fun _ _ => Nat.zero_le _⟩, hspare⟩

section

variable (hsyntaxErrors : s'.syntaxErrors = s.syntaxErrors) (hoptions : s'.options = s.options)

include hsyntaxErrors hoptions

lemma exceededLimit_congr : s'.exceededLimit = s.exceededLimit := by
  rw [exceededLimit, exceededLimit, hsyntaxErrors, hoptions]

variable (herrors : s'.errorCount = s.errorCount) (hlimits : s'.limitCount = s.limitCount)

include herrors hlimits

lemma Books.congr (hs : s.Books) : s'.Books where
  errorCount_eq := by rw [herrors, hsyntaxErrors, hlimits, hs.errorCount_eq]
  limitCount_eq := by rw [hlimits, exceededLimit_congr hsyntaxErrors hoptions, hs.limitCount_eq]
  syntaxErrors_le limit hmax := by
    rw [hsyntaxErrors]
    exact hs.syntaxErrors_le limit (hoptions ▸ hmax)

lemma Spare.congr (hs : s.Spare) : s'.Spare where
  toBooks := hs.toBooks.congr hsyntaxErrors hoptions herrors hlimits
  exceededLimit_eq := (exceededLimit_congr hsyntaxErrors hoptions).trans hs.exceededLimit_eq

end

/-- Nothing that the books are about is different: the diagnostics, the count of errors and the
limit. -/
structure SameBooks (s s' : State) : Prop where
  diagnostics_eq : s'.diagnostics = s.diagnostics
  syntaxErrors_eq : s'.syntaxErrors = s.syntaxErrors
  options_eq : s'.options = s.options

lemma Hushed.sameBooks (h : s.Hushed s') : s.SameBooks s' :=
  ⟨h.diagnostics_eq, h.syntaxErrors_eq, h.options_eq⟩

lemma Resembles.sameBooks_escalate (h : s.Resembles s') : s.SameBooks (s'.escalate f) :=
  ⟨h.diagnostics_eq, h.syntaxErrors_eq, h.options_eq⟩

namespace SameBooks

lemma counts (h : s.SameBooks s') :
    s'.errorCount = s.errorCount ∧ s'.limitCount = s.limitCount := by
  rw [errorCount, limitCount, h.diagnostics_eq]
  exact ⟨rfl, rfl⟩

lemma books (h : s.SameBooks s') (hs : s.Books) : s'.Books :=
  hs.congr h.syntaxErrors_eq h.options_eq h.counts.1 h.counts.2

lemma spare (h : s.SameBooks s') (hs : s.Spare) : s'.Spare :=
  hs.congr h.syntaxErrors_eq h.options_eq h.counts.1 h.counts.2

lemma spent (h : s.SameBooks s') (hs : s.Spent f) : s'.Spent f where
  toBooks := h.books hs.toBooks
  last := by
    rw [exceededLimit_congr h.syntaxErrors_eq h.options_eq, h.diagnostics_eq]
    exact hs.last

end SameBooks

/-- Notes on what was skipped are not counted. -/
lemma counts_explained {notes : List Diagnostic}
    (hnotes : ∀ d ∈ notes, d.severity = .hint ∧ d.code = .skippedInput) :
    (s.explained notes).errorCount = s.errorCount ∧
      (s.explained notes).limitCount = s.limitCount := by
  have herrors : notes.countP Diagnostic.isError = 0 := by
    refine List.countP_eq_zero.mpr fun d hd => ?_
    simp [Diagnostic.isError, (hnotes d hd).1]
  have hlimits : notes.countP (fun d => d.code = .tooManyErrors) = 0 := by
    refine List.countP_eq_zero.mpr fun d hd => ?_
    simp [(hnotes d hd).2]
  constructor
  · rw [errorCount_eq_countP, explained, List.countP_append, herrors, ← errorCount_eq_countP]
    rfl
  · rw [limitCount, explained, List.countP_append, hlimits]
    rfl

lemma countP_modifyLast {p : Diagnostic → Bool} {h : Diagnostic → Diagnostic}
    (hp : ∀ d, p (h d) = p d) (ds : List Diagnostic) :
    (modifyLast h ds).countP p = ds.countP p := by
  have hsame : ((modifyLast h ds).map p).countP id = (ds.map p).countP id :=
    congrArg (List.countP id) (map_modifyLast p hp ds)
  rwa [List.countP_map, List.countP_map] at hsame

/-- A fix does not make another error of a diagnostic. -/
lemma counts_annotateLast (s : State) (hint : String) :
    (s.annotateLast hint).errorCount = s.errorCount ∧
      (s.annotateLast hint).limitCount = s.limitCount := by
  rw [errorCount_eq_countP, errorCount_eq_countP]
  constructor
  · exact countP_modifyLast (by intro d; rfl) s.diagnostics
  · exact countP_modifyLast (by intro d; rfl) s.diagnostics

end State

/-! ## Courses -/

/-- If the failures are within the budget before, then they are so afterwards. -/
def State.Affords (s s' : State) : Prop := s.Spare → s'.Spare

/-- What a recognizer does before it gives up leaves the failures within the budget. -/
lemma Manner.keeps_affords (k : Manner) : k.Keeps State.Affords where
  refl _ := id
  trans _ _ _ h h' := h' ∘ h
  hushed h := h.sameBooks.spare
  report _ h hgo hs := by
    rcases hs.reported h with ⟨-, hspare⟩ | ⟨hexhausted, -⟩
    · exact hspare
    · exact absurd hexhausted hgo
  explained {s notes} _ hnotes hs := by
    obtain ⟨herrors, hlimits⟩ := State.counts_explained (s := s) hnotes
    exact hs.congr (Eq.refl s.syntaxErrors) (Eq.refl s.options) herrors hlimits
  annotate {s} hint _ hs := by
    obtain ⟨herrors, hlimits⟩ := s.counts_annotateLast hint
    exact hs.congr (Eq.refl s.syntaxErrors) (Eq.refl s.options) herrors hlimits

/-- The surrender is final: nobody has given up before, and afterwards rules are left and nothing
else is done, reported or counted.  The failure comes out as the fault `e`, unless a guard that it
leaves has lost its mark. -/
structure Surrender.Final (c : Surrender) (e : Option Fault) (s' : State) : Prop where
  before : ∀ m ∈ c.before, m.state.mode ≠ .failed
  ended : c.ended.mode = .failed
  after : ∀ m ∈ c.after, m.deed.Leaves ∧ m.state.mode = .failed ∧ c.ended.SameBooks m.state
  mode_eq : s'.mode = .failed
  sameBooks : c.ended.SameBooks s'
  /-- The failure has exhausted the budget, or the budget is not why the recognizer gave up. -/
  spent : c.report = .budgetExhausted ∧ s'.Spent c.failure ∨
    c.report ≠ .budgetExhausted ∧ s'.exceededLimit = none
  outcome : e = some (.failed c.failure) ∨
    ∃ cause : Misuse, cause.LosesMark ∧ e = some (.misuse cause)

/-- What became of the budget in a surrender. -/
lemma Surrender.Within.spent {e : Option Fault} {s s' : State} {c : Surrender}
    (h : c.Within State.Affords e s s') (hs : s.Spare) :
    (c.report = .budgetExhausted ∧ c.reported.Spent c.failure ∨
        c.report ≠ .budgetExhausted ∧ c.reported.Spare) ∧ c.reported.SameBooks c.ended := by
  obtain ⟨st, hst, hreport⟩ := h.report_eq
  obtain ⟨st', hst', hended⟩ := h.ended_eq
  have hspare : st.Spare := hst.hushed.sameBooks.spare (h.kept hs)
  refine ⟨?_, hended ▸ hst'.sameBooks_escalate⟩
  rcases hspare.reported hreport with ⟨hgo, hspare'⟩ | ⟨hexhausted, hspent⟩
  · exact .inr ⟨hgo, hspare'⟩
  · exact .inl ⟨hexhausted, hspent⟩

/-- **The books are in order at every moment**, and the recognizer has not given up and has errors
to spare, or it has given up and that is final. -/
theorem Course.keeps_books {k : Manner} {e : Option Fault} {s s' : State} {ms : List Moment}
    (h : Course k e s ms s') (hcatches : ¬ k.catches) (hsinks : ¬ k.sinks)
    (hopen : s.escalated = false) (hs : s.Spare) :
    (∀ m ∈ ms, m.state.Books) ∧ s'.Books ∧
      ((s'.exceededLimit = none ∧ s'.mode ≠ .failed ∧ ∀ m ∈ ms, m.state.mode ≠ .failed) ∨
        ∃ c : Surrender, ms = c.moments ∧ c.Final e s') := by
  rcases h.ends (Manner.keeps_affords k) hcatches hsinks hopen with hend | ⟨-, c, rfl, hend⟩
  · have hspare : s'.Spare := hend.kept hs
    refine ⟨fun m hm => ((hend.at_moment m hm).2 hs).toBooks, hspare.toBooks, .inl ⟨?_, ?_, ?_⟩⟩
    · exact hspare.exceededLimit_eq
    · exact State.mode_ne_failed hend.escalated_eq
    · intro m hm
      exact State.mode_ne_failed (hend.at_moment m hm).1
  · obtain ⟨hreported, hsame⟩ := hend.spent hs
    have hbooks : c.reported.Books := by
      rcases hreported with ⟨-, hspent⟩ | ⟨-, hspare⟩
      · exact hspent.toBooks
      · exact hspare.toBooks
    have hended : c.ended.Books := hsame.books hbooks
    have hfailed {st : State} (hst : c.ended.Hushed st) : st.mode = .failed := by
      obtain ⟨st', -, hover⟩ := hend.ended_eq
      refine State.mode_eq_failed_iff.mpr (hst.escalated_eq.trans ?_)
      rw [hover]
      rfl
    refine ⟨fun m hm => ?_, hend.hushed.sameBooks.books hended, .inr ⟨c, rfl, ?_⟩⟩
    · simp only [Surrender.moments, List.mem_append, List.mem_cons] at hm
      rcases hm with hm | rfl | rfl | rfl | hm
      · exact ((hend.at_moment m hm).2 hs).toBooks
      · exact (hend.kept hs).toBooks
      · exact hbooks
      · exact hended
      · exact (hend.after m hm).2.sameBooks.books hended
    · refine ⟨fun m hm => ?_, hfailed (.refl _), fun m hm => ?_, hfailed hend.hushed,
        hend.hushed.sameBooks, ?_, hend.outcome⟩
      · exact State.mode_ne_failed (hend.at_moment m hm).1
      · obtain ⟨hleaves, hhushed⟩ := hend.after m hm
        exact ⟨hleaves, hfailed hhushed, hhushed.sameBooks⟩
      · rcases hreported with ⟨hexhausted, hspent⟩ | ⟨hgo, hspare⟩
        · exact .inl ⟨hexhausted, hend.hushed.sameBooks.spent (hsame.spent hspent)⟩
        · exact .inr ⟨hgo, (hend.hushed.sameBooks.spare (hsame.spare hspare)).exceededLimit_eq⟩

end Lookahead
