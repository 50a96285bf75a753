import Lookahead.Proofs.Recognizer.Course

/-!
# How courses end

If nothing is run whatever comes of it, and no speculation ends at depth 0, then a course ends in
one of two ways (`Course.ends`).  It stays *open*, or it ends in a *surrender*: a failure is raised,
reported and given up on, and from there on rules are left and nothing else is done.

What can be said of the state up to that point is a parameter: any relation that is kept by
reporting and mending (`Manner.Keeps`).
-/

namespace Lookahead

/-- A rule is left. -/
def Deed.Leaves : Deed → Prop
  | .left _ _ _ _ => True
  | _ => False

namespace State

variable {s s' s'' : State} {f : Failure} {report : Report}

/-- Nothing was reported between the two states, nobody gave up, and no recovery began. -/
structure Hushed (s s' : State) : Prop where
  diagnostics_eq : s'.diagnostics = s.diagnostics
  syntaxErrors_eq : s'.syntaxErrors = s.syntaxErrors
  escalated_eq : s'.escalated = s.escalated
  options_eq : s'.options = s.options
  recovering_of : s'.recovering = true → s.recovering = true

lemma Hushed.refl (s : State) : s.Hushed s := ⟨rfl, rfl, rfl, rfl, id⟩

lemma Hushed.trans (h : s.Hushed s') (h' : s'.Hushed s'') : s.Hushed s'' :=
  ⟨h'.diagnostics_eq.trans h.diagnostics_eq, h'.syntaxErrors_eq.trans h.syntaxErrors_eq,
    h'.escalated_eq.trans h.escalated_eq, h'.options_eq.trans h.options_eq,
    h.recovering_of ∘ h'.recovering_of⟩

instance : IsPreorder State Hushed where
  refl := Hushed.refl
  trans _ _ _ := Hushed.trans

lemma Resembles.hushed (h : s.Resembles s') : s.Hushed s' :=
  ⟨h.diagnostics_eq, h.syntaxErrors_eq, h.escalated_eq, h.options_eq, h.recovering_of⟩

lemma hushed_within (s : State) (frame : Frame) : s.Hushed (s.within frame) :=
  ⟨rfl, rfl, rfl, rfl, id⟩

lemma hushed_popFrame (s : State) : s.Hushed s.popFrame := ⟨rfl, rfl, rfl, rfl, id⟩

lemma hushed_deeper (s : State) (raise : Bool) : s.Hushed (s.deeper raise) :=
  ⟨rfl, rfl, rfl, rfl, id⟩

lemma hushed_shallower (s : State) (raise : Bool) : s.Hushed (s.shallower raise) :=
  ⟨rfl, rfl, rfl, rfl, id⟩

/-- What a speculation does to the depth is not heard of. -/
lemma Hushed.speculated {raise : Bool} (h : (s.deeper raise).Hushed s') :
    s.Hushed (s'.shallower raise) :=
  ((hushed_deeper s raise).trans h).trans (hushed_shallower s' raise)

lemma mode_eq_failed_iff : s.mode = .failed ↔ s.escalated = true := by
  rw [mode]
  split
  · simp_all
  · split
    · simp_all
    · split <;> simp_all

lemma mode_ne_failed (hopen : s.escalated = false) : s.mode ≠ .failed := by
  intro hfailed
  rw [mode_eq_failed_iff.mp hfailed] at hopen
  exact absurd hopen (by decide)

lemma escalated_report (h : s.report f = (report, s')) : s'.escalated = s.escalated := by
  rw [report_eq] at h
  split at h
  · cases h
    rfl
  · split at h
    all_goals
      cases h
      rfl

end State

/-! ## Leaving a rule -/

namespace Leaving

variable {k : Manner} {e e' : Option Fault} {s s' : State} {ms : List Moment}

/-- A recognizer that has given up hands every fault on. -/
lemma of_escalated (h : Leaving k e s ms e' s') (hover : s.escalated = true) :
    ms = [] ∧ e' = e ∧ s.Resembles s' := by
  cases h with
  | handOn _ hwork => exact ⟨rfl, rfl, hwork⟩
  | mend _ _ hopen => exact absurd (hover.symm.trans hopen) (by decide)
  | giveUp _ hopen => exact absurd (hover.symm.trans hopen) (by decide)

/-- A recognizer that gives up when it leaves a rule does so out of speculation, with a failure. -/
lemma open_or_over (h : Leaving k e s ms e' s') (hopen : s.escalated = false) :
    s'.escalated = false ∨ e' ≠ none ∧ s'.escalated = true ∧ s'.backtracking = 0 := by
  cases h with
  | handOn _ hwork => exact .inl (hwork.escalated_eq.trans hopen)
  | mend _ _ _ hreport _ _ hwork =>
    exact .inl (hwork.escalated_eq.trans ((State.escalated_report hreport).trans hopen))
  | giveUp hzero _ hreport hwork hafter =>
    refine .inr ⟨Option.some_ne_none _, hafter.escalated_eq, ?_⟩
    rw [hafter.backtracking_eq, State.escalate, hwork.backtracking_eq,
      (State.level_report (k := .strict) hreport).backtracking_eq id, hzero]

end Leaving

/-! ## Staying open and giving up -/

/-- `T` is kept by everything that a recognizer of the manner `k` does before it gives up. -/
structure Manner.Keeps (k : Manner) (T : State → State → Prop) : Prop
    extends IsPreorder State T where
  hushed {s s' : State} : s.Hushed s' → T s s'
  report {s s' : State} {f : Failure} {report : Report} :
    k.mends → s.report f = (report, s') → report ≠ .budgetExhausted → T s s'
  explained {s : State} {notes : List Diagnostic} :
    k.mends → (∀ d ∈ notes, d.severity = .hint ∧ d.code = .skippedInput) → T s (s.explained notes)
  annotate {s : State} (hint : String) : k.mends → T s (s.annotateLast hint)

/-- Nothing need be kept. -/
lemma Manner.keeps_true (k : Manner) : k.Keeps fun _ _ => True where
  refl _ := trivial
  trans _ _ _ _ _ := trivial
  hushed _ := trivial
  report _ _ _ := trivial
  explained _ _ := trivial
  annotate _ _ := trivial

/-- A course at whose end nobody has given up.  A failure that comes out is the last deed. -/
structure Open (T : State → State → Prop) (e : Option Fault) (s : State) (ms : List Moment)
    (s' : State) : Prop where
  escalated_eq : s'.escalated = false
  kept : T s s'
  at_moment : ∀ m ∈ ms, m.state.escalated = false ∧ T s m.state
  raised : ∀ f, e = some (.failed f) → ∃ before st, ms = before ++ [⟨.raised f, st⟩] ∧
    f.context = st.context ∧ st.backtracking = 0 ∧ st.Resembles s'

/-- How a recognizer gave up: what was done before, on which failure, and what was done after. -/
structure Surrender where
  before : List Moment
  failure : Failure
  /-- The state in which the failure was raised. -/
  raised : State
  /-- What became of its report. -/
  report : Report
  /-- The state in which it was reported. -/
  reported : State
  /-- The state in which it was given up on. -/
  ended : State
  after : List Moment

namespace Surrender

/-- All that was done, with the raising of the failure, its report and the giving up in a row. -/
def moments (c : Surrender) : List Moment :=
  c.before ++ ⟨.raised c.failure, c.raised⟩ :: ⟨.reported c.failure c.report, c.reported⟩ ::
    ⟨.gaveUp c.failure, c.ended⟩ :: c.after

/-- The surrender, with something that was done before. -/
def preceded (c : Surrender) (ms : List Moment) : Surrender := { c with before := ms ++ c.before }

/-- The surrender, with something that was done behind it. -/
def followed (c : Surrender) (ms : List Moment) : Surrender := { c with after := c.after ++ ms }

@[simp] lemma moments_preceded (c : Surrender) (ms : List Moment) :
    (c.preceded ms).moments = ms ++ c.moments := List.append_assoc ..

@[simp] lemma moments_followed (c : Surrender) (ms : List Moment) :
    (c.followed ms).moments = c.moments ++ ms := by
  simp only [moments, followed, List.append_assoc, List.cons_append]

/-- The surrender is one in the course from `s` to `s'`, out of which comes the fault `e`.  The
failure names the rules in which it was raised, and behind the surrender rules are left and nothing
else is done.  The failure comes out, unless a guard that it leaves has lost its mark. -/
structure Within (T : State → State → Prop) (e : Option Fault) (s : State) (c : Surrender)
    (s' : State) : Prop where
  kept : T s c.raised
  at_moment : ∀ m ∈ c.before, m.state.escalated = false ∧ T s m.state
  context_eq : c.failure.context = c.raised.context
  report_eq : ∃ st, c.raised.Resembles st ∧ st.report c.failure = (c.report, c.reported)
  ended_eq : ∃ st, c.reported.Resembles st ∧ c.ended = st.escalate c.failure
  after : ∀ m ∈ c.after, m.deed.Leaves ∧ c.ended.Hushed m.state
  hushed : c.ended.Hushed s'
  outcome : e = some (.failed c.failure) ∨
    ∃ cause : Misuse, cause.LosesMark ∧ e = some (.misuse cause)

namespace Within

variable {T : State → State → Prop} {e e' : Option Fault} {s s₁ s' : State} {c : Surrender}
  {ms : List Moment}

lemma escalated_eq (h : c.Within T e s s') : s'.escalated = true := by
  obtain ⟨st, -, hover⟩ := h.ended_eq
  rw [h.hushed.escalated_eq, hover]
  rfl

lemma ne_none (h : c.Within T e s s') : e ≠ none := by
  rcases h.outcome with rfl | ⟨cause, -, rfl⟩
  · exact Option.some_ne_none _
  · exact Option.some_ne_none _

lemma preceded [IsTrans State T] (h : c.Within T e s₁ s') (hkept : T s s₁)
    (hms : ∀ m ∈ ms, m.state.escalated = false ∧ T s m.state) :
    (c.preceded ms).Within T e s s' where
  kept := trans_of T hkept h.kept
  at_moment m hm := by
    rcases List.mem_append.mp hm with hm | hm
    · exact hms m hm
    · exact ⟨(h.at_moment m hm).1, trans_of T hkept (h.at_moment m hm).2⟩
  context_eq := h.context_eq
  report_eq := h.report_eq
  ended_eq := h.ended_eq
  after := h.after
  hushed := h.hushed
  outcome := h.outcome

lemma followed (h : c.Within T e s s₁) (hms : ∀ m ∈ ms, m.deed.Leaves ∧ s₁.Hushed m.state)
    (hhushed : s₁.Hushed s')
    (hend : e' = e ∨ ∃ cause : Misuse, cause.LosesMark ∧ e' = some (.misuse cause)) :
    (c.followed ms).Within T e' s s' where
  kept := h.kept
  at_moment := h.at_moment
  context_eq := h.context_eq
  report_eq := h.report_eq
  ended_eq := h.ended_eq
  after m hm := by
    rcases List.mem_append.mp hm with hm | hm
    · exact h.after m hm
    · exact ⟨(hms m hm).1, h.hushed.trans (hms m hm).2⟩
  hushed := h.hushed.trans hhushed
  outcome := by
    rcases hend with rfl | hlost
    · exact h.outcome
    · exact .inr hlost

end Within

end Surrender

/-- A course stays open or ends in a surrender, at depth 0. -/
def Ends (T : State → State → Prop) (e : Option Fault) (s : State) (ms : List Moment)
    (s' : State) : Prop :=
  Open T e s ms s' ∨ s'.backtracking = 0 ∧ ∃ c : Surrender, ms = c.moments ∧ c.Within T e s s'

namespace Ends

variable {k : Manner} {T : State → State → Prop} {e e' : Option Fault} {s s₁ s₂ s' : State}
  {ms ms' : List Moment}

/-- A course without moments that does not fail. -/
lemma of_kept (hkept : T s s') (hopen : s'.escalated = false) (he : ∀ f, e ≠ some (.failed f)) :
    Ends T e s [] s' :=
  .inl ⟨hopen, hkept, by simp, fun f hf => absurd hf (he f)⟩

section

variable (hT : k.Keeps T)

include hT

/-- Where a rule is left openly, a failure of its body was reported and mended. -/
lemma call_of_open {frame : Frame} {i j : Nat} {tree : Option String}
    (hopen : s.escalated = false) (hbody : Open T e (s.within frame) ms s₁)
    (leaving : Leaving k e s₁ ms' e' s₂) :
    Ends T e' s (⟨.entered frame i, s.within frame⟩ ::
      (ms ++ ms' ++ [⟨.left frame.rule.name j e' tree, s₂.popFrame⟩])) s₂.popFrame := by
  have : IsPreorder State T := hT.toIsPreorder
  have hwithin : T s (s.within frame) := hT.hushed (State.hushed_within s frame)
  have hpop : T s₂ s₂.popFrame := hT.hushed (State.hushed_popFrame s₂)
  have hinside : T s s₁ := trans_of T hwithin hbody.kept
  have hdepth : s₂.backtracking = s₁.backtracking :=
    (leaving.level (l := .strict)).backtracking_eq id
  have hmoment (m : Moment) (hm : m ∈ ms) : m.state.escalated = false ∧ T s m.state :=
    ⟨(hbody.at_moment m hm).1, trans_of T hwithin (hbody.at_moment m hm).2⟩
  cases leaving with
  | handOn hhand hwork =>
    have hopen₂ : s₂.escalated = false := hwork.escalated_eq.trans hbody.escalated_eq
    have hkept : T s s₂.popFrame := trans_of T hinside (trans_of T (hT.hushed hwork.hushed) hpop)
    refine .inl ⟨hopen₂, hkept, fun m hm => ?_, fun f hf => ?_⟩
    · simp only [List.append_nil, List.mem_cons, List.mem_append, List.not_mem_nil, or_false] at hm
      rcases hm with rfl | hm | rfl
      · exact ⟨hopen, hwithin⟩
      · exact hmoment m hm
      · exact ⟨hopen₂, hkept⟩
    · -- a failure is not handed on by a parser that neither speculates nor has given up
      obtain ⟨_, st, -, -, hzero, hst⟩ := hbody.raised f hf
      rcases hhand f hf with hpos | hover
      · exact absurd (hst.backtracking_eq.trans hzero) (Nat.ne_of_gt hpos)
      · exact absurd (hover.symm.trans hbody.escalated_eq) (by decide)
  | @mend f report _ s₀ _ notes hk _ _ hreport hgo hnotes hwork =>
    have hreported : T s s₀ := trans_of T hinside (hT.report hk hreport hgo)
    have hexplained : T s₀ (s₀.explained notes) :=
      hT.explained hk fun d hd => ⟨(hnotes d hd).1, (hnotes d hd).2.1⟩
    have hopen₀ : s₀.escalated = false :=
      (State.escalated_report hreport).trans hbody.escalated_eq
    have hopen₂ : s₂.escalated = false := hwork.escalated_eq.trans hopen₀
    have hkept : T s s₂.popFrame :=
      trans_of T (trans_of T hreported hexplained) (trans_of T (hT.hushed hwork.hushed) hpop)
    refine .inl ⟨hopen₂, hkept, fun m hm => ?_, by simp⟩
    simp only [List.mem_cons, List.mem_append, List.not_mem_nil, or_false, or_assoc] at hm
    rcases hm with rfl | hm | rfl | rfl
    · exact ⟨hopen, hwithin⟩
    · exact hmoment m hm
    · exact ⟨hopen₀, hreported⟩
    · exact ⟨hopen₂, hkept⟩
  | @giveUp f report _ s₀ s₃ _ hzero _ hreport hwork hafter =>
    obtain ⟨before, st, rfl, hcontext, -, hst⟩ := hbody.raised f rfl
    refine .inr ⟨hdepth.trans hzero, ⟨⟨.entered frame i, s.within frame⟩ :: before, f, st,
      report, s₀, s₃.escalate f, [⟨.left frame.rule.name j
      (some (.failed f)) tree, s₂.popFrame⟩]⟩, ?_, ?_⟩
    · simp only [Surrender.moments, List.append_assoc, List.cons_append, List.nil_append]
    · have hleft : (s₃.escalate f).Hushed s₂.popFrame :=
        hafter.hushed.trans (State.hushed_popFrame s₂)
      refine ⟨(hmoment _ (List.mem_append_right _ List.mem_cons_self)).2, fun m hm => ?_, hcontext,
        ⟨s₁, hst, hreport⟩, ⟨s₃, hwork, rfl⟩, fun m hm => ?_, hleft, .inl rfl⟩
      · rcases List.mem_cons.mp hm with rfl | hm
        · exact ⟨hopen, hwithin⟩
        · exact hmoment m (List.mem_append_left _ hm)
      · obtain rfl := List.mem_singleton.mp hm
        exact ⟨trivial, hleft⟩

lemma call {frame : Frame} {i j : Nat} {tree : Option String} (hopen : s.escalated = false)
    (hbody : Ends T e (s.within frame) ms s₁) (leaving : Leaving k e s₁ ms' e' s₂) :
    Ends T e' s (⟨.entered frame i, s.within frame⟩ ::
      (ms ++ ms' ++ [⟨.left frame.rule.name j e' tree, s₂.popFrame⟩])) s₂.popFrame := by
  have : IsPreorder State T := hT.toIsPreorder
  have hwithin : T s (s.within frame) := hT.hushed (State.hushed_within s frame)
  rcases hbody with hbody | ⟨hzero, c, rfl, hbody⟩
  · exact call_of_open hT hopen hbody leaving
  · obtain ⟨rfl, rfl, hwork⟩ := leaving.of_escalated hbody.escalated_eq
    have hleft : s₁.Hushed s₂.popFrame := hwork.hushed.trans (State.hushed_popFrame s₂)
    refine .inr ⟨hwork.backtracking_eq.trans hzero,
      (c.preceded [⟨.entered frame i, s.within frame⟩]).followed
        [⟨.left frame.rule.name j e' tree, s₂.popFrame⟩], ?_, ?_⟩
    · simp
    · refine (hbody.preceded hwithin fun m hm => ?_).followed (fun m hm => ?_) hleft (.inl rfl)
      · obtain rfl := List.mem_singleton.mp hm
        exact ⟨hopen, hwithin⟩
      · obtain rfl := List.mem_singleton.mp hm
        exact ⟨trivial, hleft⟩

lemma guard {raise : Bool} (hfloat : raise = true → 0 < s₁.backtracking)
    (hbody : Ends T e (s.deeper raise) ms s₁)
    (hend : e' = e ∨ ∃ cause : Misuse, cause.LosesMark ∧ e' = some (.misuse cause)) :
    Ends T e' s ms (s₁.shallower raise) := by
  have : IsPreorder State T := hT.toIsPreorder
  have hbegin : T s (s.deeper raise) := hT.hushed (State.hushed_deeper s raise)
  have hafter : s₁.Hushed (s₁.shallower raise) := State.hushed_shallower s₁ raise
  -- a guard in which something failed did not raise the depth
  have hflat (hzero : s₁.backtracking = 0) : raise = false := by
    cases raise with
    | false => rfl
    | true => exact absurd hzero (Nat.ne_of_gt (hfloat rfl))
  rcases hbody with hbody | ⟨hzero, c, rfl, hbody⟩
  · refine .inl ⟨hbody.escalated_eq, trans_of T (trans_of T hbegin hbody.kept) (hT.hushed hafter),
      fun m hm => ⟨(hbody.at_moment m hm).1, trans_of T hbegin (hbody.at_moment m hm).2⟩, ?_⟩
    rintro f rfl
    rcases hend with rfl | ⟨cause, -, ⟨⟩⟩
    obtain ⟨before, st, hms, hcontext, hst₀, hst⟩ := hbody.raised f rfl
    obtain rfl : raise = false := hflat (hst.backtracking_eq.trans hst₀)
    exact ⟨before, st, hms, hcontext, hst₀, hst⟩
  · obtain rfl : raise = false := hflat hzero
    refine .inr ⟨hzero, c.followed [] |>.preceded [], by simp, ?_⟩
    exact (hbody.followed (by simp) hafter hend).preceded hbegin (by simp)

lemma predicate (hfloat : 0 < s₁.backtracking) (hbody : Ends T e (s.deeper true) ms s₁)
    (hwork : s₁.Resembles s₂)
    (hend : e' = none ∨ ∃ cause, e' = some (.misuse cause)) :
    Ends T e' s ms (s₂.shallower true) := by
  have : IsPreorder State T := hT.toIsPreorder
  have hbegin : T s (s.deeper true) := hT.hushed (State.hushed_deeper s true)
  rcases hbody with hbody | ⟨hzero, -⟩
  · have hafter : s₁.Hushed (s₂.shallower true) :=
      hwork.hushed.trans (State.hushed_shallower s₂ true)
    refine .inl ⟨hwork.escalated_eq.trans hbody.escalated_eq,
      trans_of T (trans_of T hbegin hbody.kept) (hT.hushed hafter),
      fun m hm => ⟨(hbody.at_moment m hm).1, trans_of T hbegin (hbody.at_moment m hm).2⟩, ?_⟩
    rintro f rfl
    rcases hend with ⟨⟨⟩⟩ | ⟨cause, ⟨⟩⟩
  · exact absurd hzero (Nat.ne_of_gt hfloat)

lemma trans (hfirst : Ends T none s ms s₁)
    (hnext : s₁.escalated = false → Ends T e s₁ ms' s') : Ends T e s (ms ++ ms') s' := by
  have : IsPreorder State T := hT.toIsPreorder
  rcases hfirst with hfirst | ⟨-, c, -, hfirst⟩
  · have hmoment (m : Moment) (hm : m ∈ ms) : m.state.escalated = false ∧ T s m.state :=
      hfirst.at_moment m hm
    rcases hnext hfirst.escalated_eq with hrest | ⟨hzero, c, rfl, hrest⟩
    · refine .inl ⟨hrest.escalated_eq, trans_of T hfirst.kept hrest.kept, fun m hm => ?_,
        fun f hf => ?_⟩
      · rcases List.mem_append.mp hm with hm | hm
        · exact hmoment m hm
        · exact ⟨(hrest.at_moment m hm).1, trans_of T hfirst.kept (hrest.at_moment m hm).2⟩
      · obtain ⟨before, st, rfl, hst⟩ := hrest.raised f hf
        exact ⟨ms ++ before, st, (List.append_assoc ..).symm, hst⟩
    · exact .inr ⟨hzero, c.preceded ms, (c.moments_preceded ms).symm,
        hrest.preceded hfirst.kept hmoment⟩
  · exact absurd rfl hfirst.ne_none

end

end Ends

/-- **A course stays open or ends in a surrender**, if no fault is caught and no speculation ends at
depth 0 in it, and if it begins open. `T` is any relation that is kept as long as it is open. -/
theorem Course.ends {k : Manner} {T : State → State → Prop} {e : Option Fault} {s s' : State}
    {ms : List Moment} (hT : k.Keeps T) (h : Course k e s ms s') (hcatches : ¬ k.catches)
    (hsinks : ¬ k.sinks) (hopen : s.escalated = false) : Ends T e s ms s' := by
  have : IsPreorder State T := hT.toIsPreorder
  induction h with
  | work h => exact .of_kept (hT.hushed h.hushed) (h.escalated_eq.trans hopen) (by simp)
  | setDepth => exact .of_kept (hT.hushed ⟨rfl, rfl, rfl, rfl, id⟩) hopen (by simp)
  | reframe => exact .of_kept (hT.hushed ⟨rfl, rfl, rfl, rfl, id⟩) hopen (by simp)
  | misuse s => exact .of_kept (refl_of T s) hopen (by simp)
  | @signal s => exact .of_kept (refl_of T s) hopen (by simp)
  | @note s =>
    refine .inl ⟨hopen, refl_of T s, fun m hm => ?_, by simp⟩
    obtain rfl := List.mem_singleton.mp hm
    exact ⟨hopen, refl_of T s⟩
  | @raise s f hdepth hcontext =>
    refine .inl ⟨hopen, refl_of T s, fun m hm => ?_, ?_⟩
    · obtain rfl := List.mem_singleton.mp hm
      exact ⟨hopen, refl_of T s⟩
    · rintro _ ⟨⟩
      exact ⟨[], s, rfl, hcontext, hdepth, .refl s⟩
  | @repair s s₁ f report hk _ _ hreport hgo =>
    have hopen₁ : s₁.escalated = false := (State.escalated_report hreport).trans hopen
    have hkept : T s s₁ := hT.report hk hreport hgo
    refine .inl ⟨hopen₁, hkept, fun m hm => ?_, by simp⟩
    simp only [List.mem_cons, List.not_mem_nil, or_false] at hm
    rcases hm with rfl | rfl
    · exact ⟨hopen, refl_of T s⟩
    · exact ⟨hopen₁, hkept⟩
  | @exhaust s s₁ f _ hdepth hcontext hreport =>
    have hzero : s₁.backtracking = 0 :=
      ((State.level_report (k := .strict) hreport).backtracking_eq id).trans hdepth
    refine .inr ⟨hzero, ⟨[], f, s, .budgetExhausted, s₁, s₁.escalate f, []⟩, rfl, ?_⟩
    exact ⟨refl_of T s, by simp, hcontext, ⟨s, .refl s, hreport⟩, ⟨s₁, .refl s₁, rfl⟩, by simp,
      .refl _, .inl rfl⟩
  | hint hk _ hint => exact .of_kept (hT.annotate hint hk) hopen (by simp)
  | call _ leaving ih => exact .call hT hopen (ih hopen) leaving
  | guard _ _ hfloat hend ih =>
    exact .guard hT (fun hraise => (hfloat hraise).resolve_left hsinks) (ih hopen) hend
  | predicate _ hfloat hwork hend ih =>
    exact .predicate hT (hfloat.resolve_left hsinks) (ih hopen) hwork hend
  | attempt hk => exact absurd hk hcatches
  | trans _ _ ih ih' => exact .trans hT (ih hopen) ih'

/-- The rule path of the failure that came out. -/
def failurePath {α : Type} : Except Fault α → Option RulePath
  | .error (.failed f) => some f.context
  | _ => none

lemma exists_of_failurePath {α : Type} {o : Except Fault α} {path : RulePath}
    (h : failurePath o = some path) : ∃ f, o = .error (.failed f) ∧ f.context = path := by
  rcases o with (f | _ | _) | _
  · exact ⟨f, rfl, Option.some.inj h⟩
  all_goals cases h

end Lookahead
