import Lookahead.Automaton.Prediction
import Lookahead.Proofs.Logged
import Lookahead.Proofs.Recognizer.Speculation

/-!
# Predictions with a log

`Observer.predict` is `predict` with a log.  What is logged is up to the observer: it may have
something to tell of every state that the walk is at, and it comes with hooks that have logs of
their own.  All other parts of a prediction are taken over as they are (`Logged.silent`), so
forgetting the log gives back the prediction (`Observer.forget_predict`).

What a prediction keeps by way of its log, its hooks keep (`Observer.predict_within`).
-/

namespace Lookahead

open Recognizer

variable {S X ε α : Type}

/-- What is logged of a prediction: entries for the states that the walk is at, and the hooks with
logs of their own. -/
structure Observer (ε : Type) (hooks : Hooks S X) where
  reached : Nat → List ε
  predicate : Nat → Logged ε (Recognizer S X) Bool
  /-- A speculative parse, given the mark that it is under. -/
  speculate : Mark → (decision alternative : Nat) → Logged ε (Recognizer S X) Unit
  forget_predicate (id : Nat) : (predicate id).forget = hooks.predicate id
  forget_speculate (m : Mark) (decision alternative : Nat) :
    (speculate m decision alternative).forget = hooks.speculate decision alternative

/-! ## Speculation -/

namespace Logged

variable [Cursor S]

/-- Run `body` in a speculation, with the log of `body`. -/
def speculating (raise : Bool) (ending : Cursor.GuardEnd) (body : Logged ε (Recognizer S X) α) :
    Logged ε (Recognizer S X) α := do
  let m ← silent (beginSpeculation raise)
  let outcome ← body.attempt
  silent (endSpeculation raise m ending)
  silent (.ofExcept outcome)

/-- A syntactic predicate, whose fragment is given the mark that it is under. -/
def synpred (fragment : Mark → Logged ε (Recognizer S X) Unit) : Logged ε (Recognizer S X) Bool := do
  let m ← silent (beginSpeculation true)
  let outcome ← (fragment m).attempt
  silent (updateState fun s => { s with failed := false })
  silent (endSpeculation true m .restore)
  silent (.ofExcept (answer outcome))

/-- Do something at another place and come back, with the log of what is done there. -/
def visiting (i : Nat) (body : Logged ε (Recognizer S X) α) : Logged ε (Recognizer S X) α := do
  let here ← silent index
  silent (seek i)
  let outcome ← body.attempt
  silent (seek here)
  silent (.ofExcept outcome)

@[simp] lemma forget_speculating (raise : Bool) (ending : Cursor.GuardEnd)
    (body : Logged ε (Recognizer S X) α) :
    forget (speculating raise ending body) = Recognizer.speculating raise ending body.forget := by
  simp only [speculating, Recognizer.speculating, forget_bind, forget_silent, forget_attempt]

lemma forget_synpred {fragment : Mark → Logged ε (Recognizer S X) Unit}
    {x : Action (Recognizer S X) Unit} (h : ∀ m, forget (fragment m) = x) :
    forget (synpred fragment) = Recognizer.synpred x := by
  simp only [synpred, Recognizer.synpred, forget_bind, forget_silent, forget_attempt, h]
  congr 1
  funext m
  congr 1
  funext outcome
  rcases outcome with (_ | _ | _) | _ <;> rfl

@[simp] lemma forget_visiting (i : Nat) (body : Logged ε (Recognizer S X) α) :
    forget (visiting i body) = Recognizer.visiting i body.forget := by
  simp only [visiting, Recognizer.visiting, forget_bind, forget_silent, forget_attempt]

end Logged

/-! ## The prediction -/

namespace Observer

open Logged

variable [Cursor S] {hooks : Hooks S X} (w : Observer ε hooks)

/-- Is an edge open? Only a predicate that is asked can log something. -/
def isOpen (start : Nat) (e : PredicatedEdge) : Logged ε (Recognizer S X) Bool :=
  match e.predicate with
  | some predicate => visiting start (w.predicate predicate)
  | none => return true

/-- The target of the first open edge for a type, with the log of the predicates that are asked. -/
def firstOpen (start : Nat) (type : TokenType) :
    List PredicatedEdge → Logged ε (Recognizer S X) (Option Nat)
  | [] => return none
  | e :: rest => do
    if (e.type.map (· == type)).getD true then
      if ← w.isOpen start e then return some e.target
      else firstOpen start type rest
    else firstOpen start type rest

/-- The first of some alternatives that parses, with the log of all that are tried. -/
def firstParsing (decision start : Nat) (tryAll : Bool) :
    List Nat → Logged ε (Recognizer S X) (Option Nat)
  | [] => return none
  | alternative :: rest => do
    if ← visiting start (synpred fun m => w.speculate m decision alternative) then
      if tryAll then discard (firstParsing decision start tryAll rest)
      return some alternative
    else firstParsing decision start tryAll rest

/-- The lowest alternative that parses, unless speculation is as deep as it may be. -/
def simulate (a : Automaton) (start : Nat) (alternatives : List Nat) :
    Logged ε (Recognizer S X) (Option Nat) := do
  let options ← silent (readState State.options)
  if options.maxSpeculationDepth ≤ (← silent (readState State.backtracking)) then return none
  else
    w.firstParsing a.decision start options.reportAmbiguities (Automaton.ascending alternatives)

/-- Apply the means of a special state, with the log of all that it asks and tries. -/
def resolve (a : Automaton) (start : Nat) (special : SpecialState) :
    Logged ε (Recognizer S X) Resolution := do
  let type ← silent (lookahead 1)
  match ← w.firstOpen start type special.edges with
  | some target => return .state target
  | none =>
    let parsed ←
      if special.simulate.isEmpty then pure none
      else w.simulate a start special.simulate
    match parsed with
    | some alternative => return .alternative alternative
    | none => return (special.fallback.map .state).getD .stuck

/-- Be at state `s`, which is logged. -/
def arrivingAt (a : Automaton) (s : Nat)
    (follow : SpecialState → Logged ε (Recognizer S X) Settled) :
    Logged ε (Recognizer S X) Settled := do
  tell (w.reached s)
  let state ← silent (.ofExcept ((a.state s).mapError .misuse))
  match state.special with
  | none => return .state s state
  | some index =>
    match a.special index with
    | some special => follow special
    | none => silent (noViable a s)

/-- Follow special states from state `s`, in at most `hops` hops, and log all states on the way. -/
def settle (a : Automaton) (start : Nat) : (hops s : Nat) → Logged ε (Recognizer S X) Settled
  | 0, s => w.arrivingAt a s fun _ => silent (noViable a s)
  | hops + 1, s => w.arrivingAt a s fun special => do
    match ← w.resolve a start special with
    | .alternative n => return .alternative n
    | .state next => if next = s then silent (noViable a s) else settle a start hops next
    | .stuck => silent (noViable a s)

/-- Find the alternative at state `s`, or go on by `onward`, with the logs of both. -/
def deciding (a : Automaton) (start s : Nat) (onward : Nat → Logged ε (Recognizer S X) Nat) :
    Logged ε (Recognizer S X) Nat := do
  match ← w.settle a start a.stateCount s with
  | .alternative n => return n
  | .state s state =>
    match state.accept with
    | some n => return n
    | none => onward s

/-- Find the alternative from state `s`, over at most `budget` units, and log all states on the
way. -/
def walk (a : Automaton) (start : Nat) : (budget s : Nat) → Logged ε (Recognizer S X) Nat
  | 0, s => w.deciding a start s fun s => silent (noViable a s)
  | budget + 1, s => w.deciding a start s fun s => do
    match a.step s (← silent (lookahead 1)) with
    | .accept n => return n
    | .next target | .special target =>
      silent consume
      walk a start budget target
    | .none => silent (noViable a s)

/-- What a prediction does under its mark: the walk from state 0 with the lookahead that the options
allow. -/
def decide (a : Automaton) : Logged ε (Recognizer S X) Nat := do
  let start ← silent index
  let options ← silent (readState State.options)
  w.walk a start options.maxLookahead 0

/-- A prediction with the log of its walk. -/
def predict (a : Automaton) : Logged ε (Recognizer S X) Nat :=
  speculating false .restore (w.decide a)

/-! ## Forgetting the log -/

variable {a : Automaton} {start : Nat}

@[simp] lemma forget_isOpen (e : PredicatedEdge) :
    forget (w.isOpen start e) = Recognizer.isOpen hooks start e := by
  rw [isOpen, Recognizer.isOpen]
  cases e.predicate with
  | none => rfl
  | some predicate => rw [forget_visiting, w.forget_predicate]

@[simp] lemma forget_firstOpen (type : TokenType) (edges : List PredicatedEdge) :
    forget (w.firstOpen start type edges) = Recognizer.firstOpen hooks start type edges := by
  induction edges with
  | nil => rfl
  | cons e rest ih =>
    rw [firstOpen, Recognizer.firstOpen, ← ih]
    split
    · rw [forget_bind, forget_isOpen]
      congr 1
      funext isOpen
      cases isOpen <;> rfl
    · rfl

@[simp] lemma forget_firstParsing (decision : Nat) (tryAll : Bool) (alternatives : List Nat) :
    forget (w.firstParsing decision start tryAll alternatives) =
      Recognizer.firstParsing hooks decision start tryAll alternatives := by
  induction alternatives with
  | nil => rfl
  | cons n rest ih =>
    rw [firstParsing, Recognizer.firstParsing, forget_bind, forget_visiting,
      forget_synpred fun m => w.forget_speculate m decision n, ← ih]
    congr 1
    funext parses
    cases parses with
    | false => rfl
    | true =>
      cases tryAll with
      | false => rfl
      | true => simp only [if_true, forget_bind, forget_discard, forget_pure]

@[simp] lemma forget_simulate (alternatives : List Nat) :
    forget (w.simulate a start alternatives) = Recognizer.simulate hooks a start alternatives := by
  rw [simulate, Recognizer.simulate, forget_bind, forget_silent]
  congr 1
  funext options
  rw [forget_bind, forget_silent]
  congr 1
  funext depth
  split
  · rfl
  · exact w.forget_firstParsing _ _ _

@[simp] lemma forget_resolve (special : SpecialState) :
    forget (w.resolve a start special) = Recognizer.resolve hooks a start special := by
  rw [resolve, Recognizer.resolve, forget_bind, forget_silent]
  congr 1
  funext type
  rw [forget_bind, forget_firstOpen]
  congr 1
  funext target
  cases target with
  | some target => rfl
  | none =>
    simp only
    split
    all_goals
      rw [forget_bind]
      first
        | rw [forget_simulate]
        | rw [forget_pure]
      congr 1
      funext parsed
      cases parsed <;> rfl

lemma forget_arrivingAt (s : Nat) {follow : SpecialState → Logged ε (Recognizer S X) Settled}
    {follow' : SpecialState → Action (Recognizer S X) Settled}
    (h : ∀ special, forget (follow special) = follow' special) :
    forget (w.arrivingAt a s follow) = Recognizer.arrivingAt a s follow' := by
  rw [arrivingAt, Recognizer.arrivingAt, forget_bind, forget_tell, pure_bind, forget_bind,
    forget_silent]
  congr 1
  funext state
  cases state.special with
  | none => rfl
  | some index =>
    simp only
    cases a.special index with
    | none => exact forget_silent _
    | some special => exact h special

@[simp] lemma forget_settle (hops s : Nat) :
    forget (w.settle a start hops s) = Recognizer.settle hooks a start hops s := by
  induction hops generalizing s with
  | zero => exact w.forget_arrivingAt s fun _ => forget_silent _
  | succ hops ih =>
    refine w.forget_arrivingAt s fun special => ?_
    rw [forget_bind, forget_resolve]
    congr 1
    funext resolution
    cases resolution with
    | state next =>
      simp only
      split
      · exact forget_silent _
      · exact ih next
    | alternative n => rfl
    | stuck => exact forget_silent _

lemma forget_deciding (s : Nat) {onward : Nat → Logged ε (Recognizer S X) Nat}
    {onward' : Nat → Action (Recognizer S X) Nat} (h : ∀ t, forget (onward t) = onward' t) :
    forget (w.deciding a start s onward) = Recognizer.deciding hooks a start s onward' := by
  rw [deciding, Recognizer.deciding, forget_bind, forget_settle]
  congr 1
  funext settled
  cases settled with
  | state t state =>
    simp only
    cases state.accept with
    | none => exact h t
    | some n => rfl
  | alternative n => rfl

@[simp] lemma forget_walk (budget s : Nat) :
    forget (w.walk a start budget s) = Recognizer.walk hooks a start budget s := by
  induction budget generalizing s with
  | zero => exact w.forget_deciding s fun t => forget_silent _
  | succ budget ih =>
    refine w.forget_deciding s fun t => ?_
    rw [forget_bind, forget_silent]
    congr 1
    funext type
    cases a.step t type with
    | accept n => rfl
    | next u | special u => simp only [forget_bind, forget_silent, ih]
    | none => exact forget_silent _

/-- **Forgetting the log gives back the prediction**, so that what the log says is said of the
prediction itself. -/
theorem forget_predict (a : Automaton) : forget (w.predict a) = Recognizer.predict hooks a := by
  simp only [predict, Recognizer.predict, decide, forget_speculating, forget_bind, forget_silent,
    forget_walk]

/-! ## What a prediction keeps -/

/-- What a walk asks of its surroundings keeps `R`, by way of what the observer logs. -/
structure Kept (R : Recognizer S X → List ε → Recognizer S X → Prop) : Prop where
  reached (s : Nat) (r : Recognizer S X) : R r (w.reached s) r
  lookahead : Action.Within (Silently R) (lookahead 1)
  consume : Action.Within (Silently R) consume
  seek (i : Nat) : Action.Within (Silently R) (seek i)
  fail {α : Type} (kind : FailureKind) (expected : Option TokenSet) :
    Action.Within (Silently R) (fail kind expected : Action (Recognizer S X) α)
  speculating {α : Type} (raise : Bool) (ending : Cursor.GuardEnd)
    {x : Logged ε (Recognizer S X) α} (hx : Within R x) : Within R (speculating raise ending x)
  predicate (id : Nat) : Within R (w.predicate id)
  synpred (decision alternative : Nat) :
    Within R (synpred fun m => w.speculate m decision alternative)

variable {w} {R : Recognizer S X → List ε → Recognizer S X → Prop} [Composes R]

namespace Kept

variable (h : w.Kept R)

include h

lemma visiting (i : Nat) {body : Logged ε (Recognizer S X) α} (hbody : Within R body) :
    Within R (Logged.visiting i body) :=
  (Within.read _).bind fun here => (Within.silent (h.seek i)).bind fun _ =>
    hbody.attempt.bind fun outcome => (Within.silent (h.seek here)).bind fun _ =>
      Within.ofExcept outcome

omit [Composes R] in
lemma noViable (a : Automaton) (s : Nat) :
    Within R (silent (noViable a s : Action (Recognizer S X) α)) :=
  Within.silent (h.fail _ _)

lemma firstOpen (type : TokenType) (edges : List PredicatedEdge) :
    Within R (w.firstOpen start type edges) := by
  induction edges with
  | nil => exact Within.pure _
  | cons e rest ih =>
    have hopen : Within R (w.isOpen start e) := by
      unfold isOpen
      split
      · exact h.visiting start (h.predicate _)
      · exact Within.pure _
    exact Within.ite (hopen.bind fun b => Within.ite (Within.pure _) ih) ih

lemma firstParsing (decision : Nat) (tryAll : Bool) (alternatives : List Nat) :
    Within R (w.firstParsing decision start tryAll alternatives) := by
  induction alternatives with
  | nil => exact Within.pure _
  | cons n rest ih =>
    refine (h.visiting start (h.synpred decision n)).bind fun parses => Within.ite ?_ ih
    exact Within.ite (ih.discard.bind fun _ => Within.pure _) (Within.pure _)

lemma resolve (a : Automaton) (special : SpecialState) : Within R (w.resolve a start special) := by
  refine (Within.silent h.lookahead).bind fun type =>
    (h.firstOpen type special.edges).bind fun target => ?_
  split
  · exact Within.pure _
  · refine Within.ite ?_ ?_
    · exact Within.pure _
    · refine Within.bind ?_ fun parsed => ?_
      · exact (Within.read _).bind fun options =>
          (Within.read _).bind fun depth =>
            Within.ite (Within.pure _) (h.firstParsing _ _ _)
      · cases parsed <;> exact Within.pure _

lemma arrivingAt (a : Automaton) (s : Nat)
    {follow : SpecialState → Logged ε (Recognizer S X) Settled}
    (hfollow : ∀ special, Within R (follow special)) : Within R (w.arrivingAt a s follow) := by
  refine (Within.tell (h.reached s)).bind fun _ =>
    (Within.ofExcept _).bind fun state => ?_
  split
  · exact Within.pure _
  · split
    · exact hfollow _
    · exact h.noViable a s

lemma settle (a : Automaton) (hops s : Nat) : Within R (w.settle a start hops s) := by
  induction hops generalizing s with
  | zero => exact h.arrivingAt a s fun _ => h.noViable a s
  | succ hops ih =>
    refine h.arrivingAt a s fun special => (h.resolve a special).bind fun resolution => ?_
    split
    · exact Within.pure _
    · exact Within.ite (h.noViable a s) (ih _)
    · exact h.noViable a s

lemma deciding (a : Automaton) (s : Nat) {onward : Nat → Logged ε (Recognizer S X) Nat}
    (honward : ∀ t, Within R (onward t)) : Within R (w.deciding a start s onward) := by
  refine (h.settle a a.stateCount s).bind fun settled => ?_
  split
  · exact Within.pure _
  · split
    · exact Within.pure _
    · exact honward _

lemma walk (a : Automaton) (budget s : Nat) : Within R (w.walk a start budget s) := by
  induction budget generalizing s with
  | zero => exact h.deciding a s fun t => h.noViable a t
  | succ budget ih =>
    refine h.deciding a s fun t => (Within.silent h.lookahead).bind fun type => ?_
    split
    · exact Within.pure _
    · exact (Within.silent h.consume).bind fun _ => ih _
    · exact (Within.silent h.consume).bind fun _ => ih _
    · exact h.noViable a t

/-- A prediction keeps a relation between what was before and after it, if the operations do that it
asks of its surroundings. -/
theorem predict (a : Automaton) : Within R (w.predict a) := by
  refine h.speculating false .restore ((Within.read _).bind fun start => ?_)
  exact (Within.read _).bind fun options => h.walk a _ 0

end Kept

end Observer

end Lookahead
