import Lookahead.Proofs.Action
import Lookahead.Recognizer.Basic

/-!
# The course of a run

What a run does to the state of a recognizer is told by its *deeds*: rules are entered and left,
failures are raised, reported and given up on, and events are noted.  `Course k e s ms s'` says that
a run can lead from the state `s` to `s'` by the moments `ms`, each a deed with the state after it,
and come out with the fault `e`, or with none.  Its constructors are the ways in which rules,
speculations and repairs handle the state; what else a recognizer does leaves a state that
`Resembles` the one before.

A course is known by its structure, so that facts about whole runs are inductions over courses.
The first of them is the `Ledger`: what a course says about the rules in progress and the failures
raised can be read off its deeds alone, and it agrees with the state at every moment.
-/

namespace Lookahead

/-- Something that is done to the state of a recognizer, or that is noted. -/
inductive Deed where
  | noted (event : Event)
  | entered (frame : Frame) (index : Nat)
  | left (rule : String) (index : Nat) (fault : Option Fault) (tree : Option String)
  | raised (failure : Failure)
  | reported (failure : Failure) (report : Report)
  | gaveUp (failure : Failure)

/-- The event by which the trace shows a deed; what becomes of a failure does not show there. -/
def Deed.event? : Deed → Option Event
  | .noted event => some event
  | .entered frame index => some (.entered frame.rule.name index none)
  | .left rule index fault tree => some (.exited rule index fault tree)
  | .raised _ | .reported _ _ | .gaveUp _ => none

/-- Something that was done, and the state just after it. -/
structure Moment where
  deed : Deed
  state : State

/-- What the trace shows of some moments, in their order. -/
def eventsOf (ms : List Moment) : List Event := ms.filterMap fun m => m.deed.event?

@[simp] lemma eventsOf_nil : eventsOf [] = [] := rfl

@[simp] lemma eventsOf_entered (frame : Frame) (i : Nat) (s : State) (ms : List Moment) :
    eventsOf (⟨.entered frame i, s⟩ :: ms) = .entered frame.rule.name i none :: eventsOf ms := rfl

@[simp] lemma eventsOf_left (rule : String) (i : Nat) (e : Option Fault) (tree : Option String)
    (s : State) (ms : List Moment) :
    eventsOf (⟨.left rule i e tree, s⟩ :: ms) = .exited rule i e tree :: eventsOf ms := rfl

@[simp] lemma eventsOf_append (ms ms' : List Moment) :
    eventsOf (ms ++ ms') = eventsOf ms ++ eventsOf ms' := List.filterMap_append

/-- An event that can be noted by itself in a state.  A look shows this very state, and a rule is
only entered without more ado, or given up on at once, if its outcome was recorded. -/
def Event.Fits (s : State) : Event → Prop
  | .observed seen => seen.state = s
  | .entered _ _ _ => 0 < s.backtracking
  | .exited _ _ _ _ => False
  | _ => True

/-- Only things differ that no deed is about, such as the records and the last failure. -/
structure State.Resembles (s s' : State) : Prop where
  frames_eq : s'.frames = s.frames
  backtracking_eq : s'.backtracking = s.backtracking
  syntaxErrors_eq : s'.syntaxErrors = s.syntaxErrors
  escalated_eq : s'.escalated = s.escalated
  diagnostics_eq : s'.diagnostics = s.diagnostics
  options_eq : s'.options = s.options
  /-- A recovery may end, and none begins. -/
  recovering_of : s'.recovering = true → s.recovering = true

/-- The misuse of ending a guard whose mark is not the newest one that is open. -/
def Misuse.LosesMark : Misuse → Prop
  | .staleMark _ | .releaseOutOfOrder _ _ => True
  | _ => False

namespace MarkStack

variable {P : Type} {marks : MarkStack P} {m : Mark} {cause : Misuse}

lemma losesMark_of_lookup (h : marks.lookup m = .error cause) : cause.LosesMark := by
  rw [lookup] at h
  split at h
  · split at h
    · cases h
    · cases h
      trivial
  · cases h
    trivial

lemma map_eq_error {α β : Type} {x : Except Misuse α} {f : α → β} :
    x.map f = .error cause ↔ x = .error cause := by
  cases x <;> simp [Except.map]

lemma losesMark_of_rewind (h : marks.rewind m = .error cause) : cause.LosesMark := by
  rw [rewind] at h
  split at h
  · cases h
  · cases h
    exact losesMark_of_lookup ‹_›

lemma losesMark_of_release (h : marks.release m = .error cause) : cause.LosesMark := by
  rw [release] at h
  split at h
  · split at h
    · cases h
    · cases h
      trivial
  · cases h
    exact losesMark_of_lookup ‹_›

end MarkStack

namespace State

lemma Resembles.refl (s : State) : s.Resembles s := ⟨rfl, rfl, rfl, rfl, rfl, rfl, id⟩

lemma Resembles.trans {s s' s'' : State} (h : s.Resembles s') (h' : s'.Resembles s'') :
    s.Resembles s'' :=
  ⟨h'.frames_eq.trans h.frames_eq, h'.backtracking_eq.trans h.backtracking_eq,
    h'.syntaxErrors_eq.trans h.syntaxErrors_eq, h'.escalated_eq.trans h.escalated_eq,
    h'.diagnostics_eq.trans h.diagnostics_eq, h'.options_eq.trans h.options_eq,
    h.recovering_of ∘ h'.recovering_of⟩

lemma Resembles.context_eq {s s' : State} (h : s.Resembles s') : s'.context = s.context := by
  rw [context, context, h.frames_eq]

/-- The state in which a speculation begins, one deeper if it raises the depth. -/
def deeper (s : State) (raise : Bool) : State :=
  { s with backtracking := s.backtracking + raise.toNat }

/-- The state in which a speculation ends. -/
def shallower (s : State) (raise : Bool) : State :=
  { s with backtracking := s.backtracking - raise.toNat }

/-- The state after a rule was entered. -/
def within (s : State) (frame : Frame) : State := { s with frames := frame :: s.frames }

/-- The state after some diagnostics were added. -/
def explained (s : State) (ds : List Diagnostic) : State :=
  { s with diagnostics := s.diagnostics ++ ds }

/-- A failure that is not kept back, counted and made a diagnostic. -/
def counted (s : State) (f : Failure) : State :=
  { s with
    syntaxErrors := s.syntaxErrors + 1, recovering := true, lastFailure := some f
    diagnostics := s.diagnostics ++ [f.diagnostic] }

lemma report_eq (s : State) (f : Failure) :
    s.report f =
      if s.recovering then (.suppressed, s)
      else
        match (s.counted f).exceededLimit with
        | some limit => (.budgetExhausted, (s.counted f).explained [limitDiagnostic f limit])
        | none => (.recorded, s.counted f) := rfl

/-- What a recognizer goes by in the long run is the same. -/
structure Serves (s s' : State) : Prop where
  memo_eq : s'.memo = s.memo
  options_eq : s'.options = s.options
  backtracking_eq : s'.backtracking = s.backtracking
  lastErrorIndex_eq : s'.lastErrorIndex = s.lastErrorIndex

lemma serves_report (s : State) (f : Failure) : s.Serves (s.report f).2 := by
  rw [report_eq]
  split
  · exact ⟨rfl, rfl, rfl, rfl⟩
  · split
    · exact ⟨rfl, rfl, rfl, rfl⟩
    · exact ⟨rfl, rfl, rfl, rfl⟩

end State

/-- How a kind of program deals with failures, with the depth of backtracking, and with frames: what
may happen in its courses. -/
structure Manner where
  /-- Failures are repaired or recovered from. -/
  mends : Prop
  /-- Guards may raise the depth of backtracking. -/
  raises : Prop
  /-- The depth of backtracking may be set outright. -/
  sets : Prop
  /-- Frames may be pushed and popped by hand. -/
  reframes : Prop
  /-- Statements may be run whatever comes of them. -/
  catches : Prop
  /-- What has raised the depth of backtracking may find it at 0 when it ends. -/
  sinks : Prop

/-- What is done about the fault `e` of a rule's body when the rule is left, and the fault that
comes of it. -/
inductive Leaving (k : Manner) :
    Option Fault → State → List Moment → Option Fault → State → Prop
  /-- The fault is handed on, if there is one.  A failure is so only by a recognizer that
  speculates or has given up. -/
  | handOn {e : Option Fault} {s s' : State}
      (hhand : ∀ f, e = some (.failed f) → 0 < s.backtracking ∨ s.escalated = true)
      (hwork : s.Resembles s') : Leaving k e s [] e s'
  /-- The failure is reported and recovered from. -/
  | mend {f : Failure} {report : Report} {s s₁ s' : State} {notes : List Diagnostic}
      (hk : k.mends) (hdepth : s.backtracking = 0) (hopen : s.escalated = false)
      (hreport : s.report f = (report, s₁)) (hgo : report ≠ .budgetExhausted)
      (hnotes : ∀ d ∈ notes, d.severity = .hint ∧ d.code = .skippedInput ∧ d.context = f.context)
      (hwork : (s₁.explained notes).Resembles s') :
      Leaving k (some (.failed f)) s [⟨.reported f report, s₁⟩] none s'
  /-- The failure is reported, and that is the end. -/
  | giveUp {f : Failure} {report : Report} {s s₁ s₂ s' : State} (hdepth : s.backtracking = 0)
      (hopen : s.escalated = false) (hreport : s.report f = (report, s₁))
      (hwork : s₁.Resembles s₂) (hafter : (s₂.escalate f).Resembles s') :
      Leaving k (some (.failed f)) s
        [⟨.reported f report, s₁⟩, ⟨.gaveUp f, s₂.escalate f⟩] (some (.failed f)) s'

/-- What a run may do to the state of a recognizer, one constructor for each way in which a part of
it may come out. The moments are those of the part, and the first argument is its fault. -/
inductive Course (k : Manner) : Option Fault → State → List Moment → State → Prop
  | work {s s' : State} (h : s.Resembles s') : Course k none s [] s'
  | setDepth {s : State} (hk : k.sets) (depth : Nat) :
      Course k none s [] { s with backtracking := depth }
  | reframe {s : State} (hk : k.reframes) (frames : List Frame) :
      Course k none s [] { s with frames }
  | misuse (s : State) (cause : Misuse) : Course k (some (.misuse cause)) s [] s
  /-- The signal that a speculative parse does not match. -/
  | signal {s : State} (hdepth : 0 < s.backtracking) : Course k (some .backtracking) s [] s
  | note {s : State} {event : Event} (hfits : event.Fits s) :
      Course k none s [⟨.noted event, s⟩] s
  | raise {s : State} {f : Failure} (hdepth : s.backtracking = 0)
      (hcontext : f.context = s.context) : Course k (some (.failed f)) s [⟨.raised f, s⟩] s
  /-- A failure that is reported where it is raised, and mended. -/
  | repair {s s₁ : State} {f : Failure} {report : Report} (hk : k.mends)
      (hdepth : s.backtracking = 0) (hcontext : f.context = s.context)
      (hreport : s.report f = (report, s₁)) (hgo : report ≠ .budgetExhausted) :
      Course k none s [⟨.raised f, s⟩, ⟨.reported f report, s₁⟩] s₁
  /-- A failure that is reported where it is raised, and is one too many. -/
  | exhaust {s s₁ : State} {f : Failure} (hk : k.mends) (hdepth : s.backtracking = 0)
      (hcontext : f.context = s.context) (hreport : s.report f = (.budgetExhausted, s₁)) :
      Course k (some (.failed f)) s
        [⟨.raised f, s⟩, ⟨.reported f .budgetExhausted, s₁⟩, ⟨.gaveUp f, s₁.escalate f⟩]
        (s₁.escalate f)
  | hint {s : State} (hk : k.mends) (hdepth : s.backtracking = 0) (hint : String) :
      Course k none s [] (s.annotateLast hint)
  | call {e e' : Option Fault} {s s₁ s₂ : State} {frame : Frame} {i j : Nat} {t : Option String}
      {ms ms' : List Moment} (body : Course k e (s.within frame) ms s₁)
      (leaving : Leaving k e s₁ ms' e' s₂) :
      Course k e' s
        (⟨.entered frame i, s.within frame⟩ ::
          (ms ++ ms' ++ [⟨.left frame.rule.name j e' t, s₂.popFrame⟩])) s₂.popFrame
  /-- A guard hands on what became of its body, unless its mark was lost. -/
  | guard {e e' : Option Fault} {s s₁ : State} {raise : Bool} {ms : List Moment}
      (hraise : raise = true → k.raises) (body : Course k e (s.deeper raise) ms s₁)
      (hfloat : raise = true → k.sinks ∨ 0 < s₁.backtracking)
      (hend : e' = e ∨ ∃ cause : Misuse, cause.LosesMark ∧ e' = some (.misuse cause)) :
      Course k e' s ms (s₁.shallower raise)
  /-- A syntactic predicate turns failures into an answer. -/
  | predicate {e e' : Option Fault} {s s₁ s₂ : State} {ms : List Moment}
      (body : Course k e (s.deeper true) ms s₁) (hfloat : k.sinks ∨ 0 < s₁.backtracking)
      (hwork : s₁.Resembles s₂)
      (hend : e' = none ∨ ∃ cause, e' = some (.misuse cause)) :
      Course k e' s ms (s₂.shallower true)
  /-- Statements that are run whatever comes of them. -/
  | attempt {e : Option Fault} {s s₁ : State} {ms : List Moment} (hk : k.catches)
      (body : Course k e s ms s₁) : Course k none s (ms ++ [⟨.noted (.attempted e), s₁⟩]) s₁
  | trans {e : Option Fault} {s s₁ s' : State} {ms ms' : List Moment}
      (first : Course k none s ms s₁) (rest : Course k e s₁ ms' s') : Course k e s (ms ++ ms') s'

/-- Whatever fails is handed on, and rules and depth of backtracking are left alone. -/
def Manner.strict : Manner := ⟨False, False, False, False, False, False⟩

namespace State

variable {s s' : State} {f : Failure} {report : Report}

/-! ## Levels -/

/-- The options are the same, and what a recognizer of the manner `k` does not write into is: the
rules in progress, and the depth of backtracking. -/
structure Level (k : Manner) (s s' : State) : Prop where
  options_eq : s'.options = s.options
  frames_eq : ¬ k.reframes → s'.frames = s.frames
  backtracking_eq : ¬ k.sets → s'.backtracking = s.backtracking

variable {k : Manner}

lemma Level.refl (s : State) : Level k s s := ⟨rfl, fun _ => rfl, fun _ => rfl⟩

lemma Level.trans {s'' : State} (h : Level k s s') (h' : Level k s' s'') : Level k s s'' :=
  ⟨h'.options_eq.trans h.options_eq, fun hk => (h'.frames_eq hk).trans (h.frames_eq hk),
    fun hk => (h'.backtracking_eq hk).trans (h.backtracking_eq hk)⟩

lemma Resembles.level (h : s.Resembles s') : Level k s s' :=
  ⟨h.options_eq, fun _ => h.frames_eq, fun _ => h.backtracking_eq⟩

lemma level_report (h : s.report f = (report, s')) : Level k s s' := by
  rw [report_eq] at h
  split at h
  · cases h
    exact .refl s
  · split at h
    all_goals
      cases h
      exact ⟨rfl, fun _ => rfl, fun _ => rfl⟩

end State

lemma Leaving.level {k l : Manner} {e e' : Option Fault} {s s' : State} {ms : List Moment}
    (h : Leaving k e s ms e' s') : State.Level l s s' := by
  cases h with
  | handOn _ hwork => exact hwork.level
  | mend _ _ _ hreport _ _ hwork =>
    have hexplained := hwork.level (k := l)
    exact (State.level_report hreport).trans
      ⟨hexplained.options_eq, hexplained.frames_eq, hexplained.backtracking_eq⟩
  | giveUp _ _ hreport hwork hafter =>
    have hescalated := hafter.level (k := l)
    exact ((State.level_report hreport).trans hwork.level).trans
      ⟨hescalated.options_eq, hescalated.frames_eq, hescalated.backtracking_eq⟩

/-- What a rule leaves behind may be worked on. -/
lemma Leaving.and_work {k : Manner} {e e' : Option Fault} {s s₁ s' : State} {ms : List Moment}
    (h : Leaving k e s ms e' s₁) (hwork : s₁.Resembles s') : Leaving k e s ms e' s' := by
  cases h with
  | handOn hhand h => exact .handOn hhand (h.trans hwork)
  | mend hk hdepth hopen hreport hgo hnotes h =>
    exact .mend hk hdepth hopen hreport hgo hnotes (h.trans hwork)
  | giveUp hdepth hopen hreport h hafter =>
    exact .giveUp hdepth hopen hreport h (hafter.trans hwork)

/-- Nothing is noted about what is done with a fault. -/
lemma Leaving.eventsOf_eq {k : Manner} {e e' : Option Fault} {s s' : State} {ms : List Moment}
    (h : Leaving k e s ms e' s') : eventsOf ms = [] := by
  cases h with
  | handOn => rfl
  | mend => rfl
  | giveUp => rfl

namespace Course

variable {k : Manner} {e : Option Fault} {s s' : State} {ms : List Moment}

/-- **Whatever a run comes to, the rules in progress are as before**, and so is the depth of
backtracking, unless the program writes into them itself. -/
theorem level (h : Course k e s ms s') : State.Level k s s' := by
  induction h with
  | work h => exact h.level
  | setDepth hk => exact ⟨rfl, fun _ => rfl, fun hnot => absurd hk hnot⟩
  | reframe hk => exact ⟨rfl, fun hnot => absurd hk hnot, fun _ => rfl⟩
  | misuse | signal | note | raise => exact .refl _
  | hint => exact ⟨rfl, fun _ => rfl, fun _ => rfl⟩
  | repair _ _ _ hreport => exact State.level_report hreport
  | exhaust _ _ _ hreport =>
    have hreported := State.level_report (k := k) hreport
    exact ⟨hreported.options_eq, hreported.frames_eq, hreported.backtracking_eq⟩
  | call _ leaving ih =>
    have hinside := ih.trans leaving.level
    refine ⟨hinside.options_eq, fun hk => ?_, hinside.backtracking_eq⟩
    rw [State.popFrame, hinside.frames_eq hk]
    rfl
  | guard _ _ _ _ ih =>
    refine ⟨ih.options_eq, ih.frames_eq, fun hk => ?_⟩
    rw [State.shallower, ih.backtracking_eq hk, State.deeper, Nat.add_sub_cancel]
  | predicate _ _ hwork _ ih =>
    have hinside := ih.trans hwork.level
    refine ⟨hinside.options_eq, hinside.frames_eq, fun hk => ?_⟩
    rw [State.shallower, hinside.backtracking_eq hk, State.deeper, Nat.add_sub_cancel]
  | attempt _ _ ih => exact ih
  | trans _ _ ih ih' => exact ih.trans ih'

end Course

/-! ## Ledgers -/

/-- What deeds say of a run: the rules that were entered and not left, innermost first, and the
failures that were raised. -/
structure Ledger where
  chain : List Frame
  raised : List Failure

namespace Ledger

/-- The ledger after a deed, if the deed is in order: only the rule that was entered last is left,
and only a failure that was raised is reported or given up on. -/
def after (l : Ledger) : Deed → Option Ledger
  | .noted _ => some l
  | .entered frame _ => some { l with chain := frame :: l.chain }
  | .left rule _ _ _ =>
    match l.chain with
    | [] => none
    | frame :: outer => if frame.rule.name = rule then some { l with chain := outer } else none
  | .raised f => some { l with raised := f :: l.raised }
  | .reported f _ | .gaveUp f => if f ∈ l.raised then some l else none

/-- The names of the rules of a ledger and of those that were in progress before, outermost
first. -/
def path (base : List Frame) (l : Ledger) : RulePath :=
  ⟨((l.chain ++ base).map fun frame => frame.rule.name).reverse⟩

/-- What some deeds say, one after the other, if they are in order. -/
def of (ms : List Moment) : Option Ledger := ms.foldlM (fun l m => l.after m.deed) ⟨[], []⟩

/-- The ledger is right about a moment.  The rules in progress are those of the ledger, on top of
`base`; what is noted by itself fits the state, and a failure that is raised carries the path of
these rules. -/
structure Holds (base : List Frame) (m : Moment) (l : Ledger) : Prop where
  frames_eq : m.state.frames = l.chain ++ base
  fits : ∀ event, m.deed = .noted event → event.Fits m.state
  context_eq : ∀ f, m.deed = .raised f → f.context = l.path base

/-- The deeds lead from one ledger to another, which is right about each moment on the way. -/
inductive Accords (base : List Frame) : Ledger → List Moment → Ledger → Prop
  | nil (l : Ledger) : Accords base l [] l
  | cons {l l₁ l' : Ledger} {m : Moment} {ms : List Moment} (hdeed : l.after m.deed = some l₁)
      (hholds : l₁.Holds base m) (rest : Accords base l₁ ms l') : Accords base l (m :: ms) l'

variable {base : List Frame} {l l₁ l' : Ledger} {ms ms' : List Moment}

section Deeds

variable {s : State} {f : Failure} (hframes : s.frames = l.chain ++ base)

include hframes

lemma Accords.noted {event : Event} (hfits : event.Fits s) (rest : Accords base l ms l') :
    Accords base l (⟨.noted event, s⟩ :: ms) l' :=
  .cons rfl ⟨hframes, fun _ h => Deed.noted.inj h ▸ hfits, fun _ h => (nomatch h)⟩ rest

omit hframes in
lemma Accords.entered {frame : Frame} {i : Nat} (hframes : s.frames = frame :: l.chain ++ base)
    (rest : Accords base { l with chain := frame :: l.chain } ms l') :
    Accords base l (⟨.entered frame i, s⟩ :: ms) l' :=
  .cons rfl ⟨hframes, fun _ h => (nomatch h), fun _ h => (nomatch h)⟩ rest

lemma Accords.left {frame : Frame} {i : Nat} {e : Option Fault} {tree : Option String}
    (rest : Accords base l ms l') :
    Accords base { l with chain := frame :: l.chain } (⟨.left frame.rule.name i e tree, s⟩ :: ms)
      l' :=
  .cons (if_pos rfl) ⟨hframes, fun _ h => (nomatch h), fun _ h => (nomatch h)⟩ rest

lemma Accords.raise (hcontext : f.context = s.context)
    (rest : Accords base { l with raised := f :: l.raised } ms l') :
    Accords base l (⟨.raised f, s⟩ :: ms) l' := by
  refine .cons rfl ⟨hframes, fun _ h => (nomatch h), fun _ h => ?_⟩ rest
  rw [← Deed.raised.inj h, hcontext, State.context, hframes]
  rfl

lemma Accords.reported {report : Report} (hf : f ∈ l.raised) (rest : Accords base l ms l') :
    Accords base l (⟨.reported f report, s⟩ :: ms) l' :=
  .cons (if_pos hf) ⟨hframes, fun _ h => (nomatch h), fun _ h => (nomatch h)⟩ rest

lemma Accords.gaveUp (hf : f ∈ l.raised) (rest : Accords base l ms l') :
    Accords base l (⟨.gaveUp f, s⟩ :: ms) l' :=
  .cons (if_pos hf) ⟨hframes, fun _ h => (nomatch h), fun _ h => (nomatch h)⟩ rest

end Deeds

lemma Accords.append (h : Accords base l ms l₁) (h' : Accords base l₁ ms' l') :
    Accords base l (ms ++ ms') l' := by
  induction h with
  | nil => exact h'
  | cons hdeed hholds _ ih => exact .cons hdeed hholds (ih h')

/-- The deeds in order say the last ledger. -/
lemma Accords.foldlM_eq (h : Accords base l ms l') :
    ms.foldlM (fun l m => l.after m.deed) l = some l' := by
  induction h with
  | nil => rfl
  | cons hdeed _ _ ih =>
    rw [List.foldlM_cons, hdeed]
    exact ih

/-- What a ledger says holds at every moment on the way. -/
lemma Accords.at {m : Moment} (h : Accords base l (ms ++ m :: ms') l') :
    ∃ l₁, (ms ++ [m]).foldlM (fun l m => l.after m.deed) l = some l₁ ∧ l₁.Holds base m := by
  induction ms generalizing l with
  | nil =>
    cases h with
    | cons hdeed hholds => exact ⟨_, by simp [hdeed], hholds⟩
  | cons m₀ rest ih =>
    cases h with
    | cons hdeed _ hrest =>
      obtain ⟨l₁, hl₁, hholds⟩ := ih hrest
      exact ⟨l₁, by rw [List.cons_append, List.foldlM_cons, hdeed]; exact hl₁, hholds⟩

end Ledger

namespace State

variable {s s' s'' : State} {f : Failure} {R R' : List Failure}

/-- Each diagnostic that was added has the rule path of one of the failures, in the order of the
diagnostics. -/
def Explains (R : List Failure) (s s' : State) : Prop :=
  ∃ paths, s'.diagnostics.map Diagnostic.context = s.diagnostics.map Diagnostic.context ++ paths ∧
    ∀ path ∈ paths, ∃ f ∈ R, f.context = path

lemma Explains.of_eq (h : s'.diagnostics = s.diagnostics) : s.Explains R s' :=
  ⟨[], by rw [h, List.append_nil], by simp⟩

lemma Explains.trans (h : s.Explains R s') (h' : s'.Explains R s'') : s.Explains R s'' := by
  obtain ⟨paths, heq, hpaths⟩ := h
  obtain ⟨paths', heq', hpaths'⟩ := h'
  refine ⟨paths ++ paths', by rw [heq', heq, List.append_assoc], ?_⟩
  intro path hpath
  rcases List.mem_append.mp hpath with hpath | hpath
  · exact hpaths path hpath
  · exact hpaths' path hpath

lemma Explains.mono (h : s.Explains R s') (hsub : R ⊆ R') : s.Explains R' s' := by
  obtain ⟨paths, heq, hpaths⟩ := h
  refine ⟨paths, heq, fun path hpath => ?_⟩
  obtain ⟨f, hf, hcontext⟩ := hpaths path hpath
  exact ⟨f, hsub hf, hcontext⟩

lemma explains_explained {ds : List Diagnostic} (hds : ∀ d ∈ ds, ∃ f ∈ R, f.context = d.context) :
    s.Explains R (s.explained ds) := by
  refine ⟨ds.map Diagnostic.context, List.map_append, ?_⟩
  intro path hpath
  obtain ⟨d, hd, rfl⟩ := List.mem_map.mp hpath
  exact hds d hd

lemma explains_report {report : Report} (h : s.report f = (report, s')) (hf : f ∈ R) :
    s.Explains R s' := by
  have hcounted : s.Explains R (s.counted f) :=
    ⟨[f.context], List.map_append, fun path hpath => ⟨f, hf, (List.mem_singleton.mp hpath).symm⟩⟩
  rw [report_eq] at h
  split at h
  · cases h
    exact .of_eq rfl
  · split at h
    · cases h
      refine hcounted.trans (explains_explained fun d hd => ⟨f, hf, ?_⟩)
      rw [List.mem_singleton.mp hd]
      rfl
    · cases h
      exact hcounted

lemma map_modifyLast {β : Type} (g : Diagnostic → β) {h : Diagnostic → Diagnostic}
    (hg : ∀ d, g (h d) = g d) (ds : List Diagnostic) : (modifyLast h ds).map g = ds.map g := by
  induction ds using modifyLast.induct with
  | case1 => rfl
  | case2 d => rw [modifyLast, List.map_singleton, List.map_singleton, hg]
  | case3 d rest hrest ih => rw [modifyLast, List.map_cons, List.map_cons, ih]; exact hrest

lemma explains_annotateLast (hint : String) : s.Explains R (s.annotateLast hint) :=
  ⟨[], by rw [List.append_nil]; exact map_modifyLast _ (by intro; rfl) _, by simp⟩

end State

namespace Leaving

variable {k : Manner} {e e' : Option Fault} {s s' : State} {ms : List Moment} {base : List Frame}
  {c : List Frame} {R : List Failure}

lemma accords (h : Leaving k e s ms e' s') (hframes : s.frames = c ++ base)
    (he : ∀ f, e = some (.failed f) → f ∈ R) :
    Ledger.Accords base ⟨c, R⟩ ms ⟨c, R⟩ ∧ (∀ f, e' = some (.failed f) → f ∈ R) ∧
      s.Explains R s' := by
  cases h with
  | handOn _ hwork => exact ⟨.nil _, he, .of_eq hwork.diagnostics_eq⟩
  | @mend f report _ s₁ _ notes _ _ _ hreport _ hnotes hwork =>
    have hf : f ∈ R := he f rfl
    have hframes₁ : s₁.frames = c ++ base :=
      ((State.level_report (k := .strict) hreport).frames_eq id).trans hframes
    refine ⟨.reported hframes₁ hf (.nil _), fun _ h => (nomatch h), ?_⟩
    refine (State.explains_report hreport hf).trans
      ((State.explains_explained fun d hd => ?_).trans (.of_eq hwork.diagnostics_eq))
    exact ⟨f, hf, (hnotes d hd).2.2.symm⟩
  | @giveUp f report _ s₁ s₂ _ _ _ hreport hwork hafter =>
    have hf : f ∈ R := he f rfl
    have hframes₁ : s₁.frames = c ++ base :=
      ((State.level_report (k := .strict) hreport).frames_eq id).trans hframes
    have hframes₂ : (s₂.escalate f).frames = c ++ base := hwork.frames_eq.trans hframes₁
    refine ⟨.reported hframes₁ hf (.gaveUp hframes₂ hf (.nil _)), he, ?_⟩
    exact (State.explains_report hreport hf).trans
      (.of_eq (hafter.diagnostics_eq.trans hwork.diagnostics_eq))

end Leaving

namespace Course

variable {k : Manner} {e : Option Fault} {s s' : State} {ms : List Moment} {base : List Frame}

/-- **Every course accords with its ledger.**  The rules in progress are at every moment those that
were entered and not left, and none is left over at the end; a failure names the rules in progress
where it is raised; and only failures that were raised are reported, give a diagnostic its rule path
or come out in the end. -/
theorem accords (h : Course k e s ms s') (hk : ¬ k.reframes) (c : List Frame) (R : List Failure)
    (hframes : s.frames = c ++ base) :
    ∃ R', Ledger.Accords base ⟨c, R⟩ ms ⟨c, R'⟩ ∧ R ⊆ R' ∧
      (∀ f, e = some (.failed f) → f ∈ R') ∧ s.Explains R' s' := by
  induction h generalizing c R with
  | work h => exact ⟨R, .nil _, fun _ => id, fun _ he => (nomatch he), .of_eq h.diagnostics_eq⟩
  | setDepth => exact ⟨R, .nil _, fun _ => id, fun _ he => (nomatch he), .of_eq rfl⟩
  | reframe hframe => exact absurd hframe hk
  | misuse | signal => exact ⟨R, .nil _, fun _ => id, fun _ he => (nomatch he), .of_eq rfl⟩
  | note hfits =>
    exact ⟨R, .noted hframes hfits (.nil _), fun _ => id, fun _ he => (nomatch he), .of_eq rfl⟩
  | @raise s f _ hcontext =>
    refine ⟨f :: R, .raise hframes hcontext (.nil _), List.subset_cons_self f R, ?_, .of_eq rfl⟩
    rintro _ ⟨⟩
    exact List.mem_cons_self
  | @repair s s₁ f report _ _ hcontext hreport _ =>
    have hmem : f ∈ f :: R := List.mem_cons_self
    have hframes₁ : s₁.frames = c ++ base :=
      ((State.level_report (k := .strict) hreport).frames_eq id).trans hframes
    exact ⟨f :: R, .raise hframes hcontext (.reported hframes₁ hmem (.nil _)),
      List.subset_cons_self f R, fun _ he => (nomatch he), State.explains_report hreport hmem⟩
  | @exhaust s s₁ f _ _ hcontext hreport =>
    have hmem : f ∈ f :: R := List.mem_cons_self
    have hframes₁ : s₁.frames = c ++ base :=
      ((State.level_report (k := .strict) hreport).frames_eq id).trans hframes
    refine ⟨f :: R, .raise hframes hcontext (.reported hframes₁ hmem (.gaveUp hframes₁ hmem
      (.nil _))), List.subset_cons_self f R, ?_,
      (State.explains_report hreport hmem).trans (.of_eq rfl)⟩
    rintro _ ⟨⟩
    exact hmem
  | hint _ _ hint =>
    exact ⟨R, .nil _, fun _ => id, fun _ he => (nomatch he), State.explains_annotateLast hint⟩
  | @call e e' s s₁ s₂ frame i j tree ms ms' body leaving ih =>
    have hinside : (s.within frame).frames = frame :: c ++ base := by
      rw [State.within, hframes, List.cons_append]
    obtain ⟨R', hbody, hsub, hfault, hexplains⟩ := ih (frame :: c) R hinside
    have hframes₁ : s₁.frames = frame :: c ++ base := (body.level.frames_eq hk).trans hinside
    obtain ⟨hleaving, hfault', hexplains'⟩ := leaving.accords hframes₁ hfault
    have hafter : s₂.popFrame.frames = c ++ base := by
      rw [State.popFrame, (leaving.level (l := .strict)).frames_eq id, hframes₁,
        List.cons_append, List.tail_cons]
    have hleft : Ledger.Accords base ⟨frame :: c, R'⟩
        [⟨.left frame.rule.name j e' tree, s₂.popFrame⟩] ⟨c, R'⟩ :=
      .left (l := ⟨c, R'⟩) hafter (.nil _)
    exact ⟨R', .entered hinside ((hbody.append hleaving).append hleft), hsub, hfault',
      (hexplains.trans hexplains').trans (.of_eq rfl)⟩
  | guard _ _ _ hend ih =>
    obtain ⟨R', hbody, hsub, hfault, hexplains⟩ := ih c R hframes
    refine ⟨R', hbody, hsub, fun f hf => ?_, hexplains⟩
    rcases hend with rfl | ⟨cause, _, rfl⟩
    · exact hfault f hf
    · cases hf
  | predicate _ _ hwork hend ih =>
    obtain ⟨R', hbody, hsub, _, hexplains⟩ := ih c R hframes
    refine ⟨R', hbody, hsub, fun f hf => ?_, hexplains.trans (.of_eq hwork.diagnostics_eq)⟩
    rcases hend with rfl | ⟨cause, rfl⟩
    · cases hf
    · cases hf
  | @attempt e s s₁ ms _ body ih =>
    obtain ⟨R', hbody, hsub, _, hexplains⟩ := ih c R hframes
    have hframes₁ : s₁.frames = c ++ base := (body.level.frames_eq hk).trans hframes
    have hnoted : Ledger.Accords base ⟨c, R'⟩ [⟨.noted (.attempted e), s₁⟩] ⟨c, R'⟩ :=
      .noted hframes₁ trivial (.nil _)
    exact ⟨R', hbody.append hnoted, hsub, fun _ he => (nomatch he), hexplains⟩
  | trans first _ ih ih' =>
    obtain ⟨R₁, hfirst, hsub, _, hexplains⟩ := ih c R hframes
    obtain ⟨R', hrest, hsub', hfault, hexplains'⟩ :=
      ih' c R₁ ((first.level.frames_eq hk).trans hframes)
    exact ⟨R', hfirst.append hrest, List.Subset.trans hsub hsub', hfault,
      (hexplains.mono hsub').trans hexplains'⟩

end Course

end Lookahead
