import Lookahead.Proofs.Recognizer.Records

/-!
# Programs with records

A program that speculates with records is echoed by the same program without (`echo_run`).  The
induction is on the fuel of the first run.  Where that run makes a record, the run of the rule's
body is echoed by every unaided recognizer at the place, so that the record is right; where it
replays one, the record is right for the unaided recognizer as well (`echo_call`).

What has to be known of a kind of recognizer is that its instructions are `Faithful`.
-/

namespace Lookahead

open Action Cursor Recognizer
open Cursor.View (Ready spot marks)

/-- A statement that leaves marks and the depth of backtracking to guards. -/
def Statement.HandsOff {ι : Type} : Statement ι → Prop
  | .mark | .rewind _ | .release _ | .setBacktracking _ => False
  | _ => True

variable {S X ι α : Type} [Cursor S] [View S] {c : Setting S X ι} {m n : Nat} {i j : Footing S}
  {fuel fuel' : Nat} {r r' s : Recognizer S X}

/-- There is room for a run with some fuel and for another one that echoes it: neither comes to the
bound of its predictions, and the second one has the fuel to do what is only replayed in the
first. -/
structure Room (c : Setting S X ι) (m : Nat) (j : Footing S) (fuel fuel' : Nat) : Prop where
  le : j.depth + fuel ≤ c.options.maxSpeculationDepth
  le' : j.depth' + fuel' ≤ j.bound
  slack : fuel + m ≤ fuel'

omit [Cursor S] in
lemma Room.below (h : Room c m j (fuel + 1) (fuel' + 1)) (hi : i.depth ≤ j.depth + 1)
    (hi' : i.depth' ≤ j.depth' + 1) (hbound : i.bound = j.bound) : Room c m i fuel fuel' := by
  have hle := h.le
  have hle' := h.le'
  have hslack := h.slack
  exact ⟨by omega, by omega, by omega⟩

/-! ## Instructions -/

/-- There is no record from which a rule that starts at the cursor could be replayed. -/
def Unrecorded (n : Nat) (r : Recognizer S X) : Prop :=
  r.state.options.memoize = true → r.state.memo.find? n (Cursor.index r.input) = none

/-- The second recognizer has just entered a rule: nothing that matters is different, and the unit
at the cursor was read. -/
structure Opens (r r₀ : Recognizer S X) : Prop where
  undisturbed : Undisturbed r r₀
  input_eq : r₀.input = (Cursor.symbol r.input).2

/-- The record of an outcome: a success with the place where it stopped, and a failure for any
fault. -/
def MemoEntry.ofOutcome (o : Except Fault α) (stop : Nat) : MemoEntry :=
  match o with
  | .ok _ => .parsed stop
  | .error _ => .failed

/-- The second recognizer has just left a rule that the first one had run from a place. -/
structure Departs (n start : Nat) (o : Except Fault Unit) (r₁ r' : Recognizer S X) : Prop where
  input_eq : r'.input = r₁.input
  trace : ∃ rule i tree, r'.trace = r₁.trace.push (.exited rule i (Fault.ofOutcome o) tree)
  memo_eq : r'.state.memo =
    if r₁.state.options.memoize then
      r₁.state.memo.insert n start (.ofOutcome o (Cursor.index r₁.input))
    else r₁.state.memo
  options_eq : r'.state.options = r₁.state.options
  backtracking_eq : r'.state.backtracking = r₁.state.backtracking

omit [View S] in
/-- A rule is left with its outcome recorded and its frame popped. -/
lemma departs_recorded (start : RuleStart) (o : Except Fault Unit) (own : X) (name : String)
    (i : Nat) (tree : Option String) {r₁ : Recognizer S X} (hr₁ : 0 < r₁.state.backtracking) :
    Departs start.rule.index start.index o r₁
      { r₁ with
        state := (recorded start (Cursor.index r₁.input) o r₁.state).popFrame
        own
        trace := r₁.trace.push (.exited name i (Fault.ofOutcome o) tree) } := by
  have hrecorded : recorded start (Cursor.index r₁.input) o r₁.state =
      if r₁.state.options.memoize then
        r₁.state.memoize start.rule start.index (.ofOutcome o (Cursor.index r₁.input))
      else r₁.state := by
    unfold recorded
    rw [decide_eq_true hr₁, Bool.true_and]
    rfl
  obtain ⟨memo, hmemo⟩ := recorded_eq start (Cursor.index r₁.input) o r₁.state
  constructor
  case input_eq => rfl
  case trace => exact ⟨_, _, _, rfl⟩
  case memo_eq =>
    show (recorded start _ o r₁.state).memo = _
    rw [hrecorded]
    split <;> rfl
  case options_eq =>
    show (recorded start _ o r₁.state).options = _
    rw [hmemo]
  case backtracking_eq =>
    show (recorded start _ o r₁.state).backtracking = _
    rw [hmemo]

/-- In a speculation, the instruction `i` calls the rule `n`: it runs the body, or goes on from the
record if there is one. -/
structure Calls (c : Setting S X ι) (i : ι) (n : Nat) : Prop where
  anew {r : Recognizer S X} : Ready r.input → 0 < r.state.backtracking → Unrecorded n r →
    ∃ r₀, Opens r r₀ ∧ ∀ run : Block ι → Action (Recognizer S X) Unit,
      (∀ o r', c.dialect.perform c.grammar run i r = some (o, r') →
        ∃ o₁ r₁, run (c.grammar.body n) r₀ = some (o₁, r₁)) ∧
      ∀ o r₁, run (c.grammar.body n) r₀ = some (o, r₁) → 0 < r₁.state.backtracking →
        ∃ r', c.dialect.perform c.grammar run i r = some (o, r') ∧
          Departs n (Cursor.index r.input) o r₁ r'
  failed {r : Recognizer S X} : 0 < r.state.backtracking → r.state.options.memoize = true →
    r.state.memo.find? n (Cursor.index r.input) = some .failed →
    ∀ run, ∃ r', c.dialect.perform c.grammar run i r = some (.error .backtracking, r') ∧
      Undisturbed r r' ∧ r'.input = r.input
  parsed {r : Recognizer S X} {stop : Nat} : 0 < r.state.backtracking →
    r.state.options.memoize = true →
    r.state.memo.find? n (Cursor.index r.input) = some (.parsed stop) →
    ∀ run, ∃ r', c.dialect.perform c.grammar run i r = some (.ok (), r') ∧
      Undisturbed r r' ∧ r'.input = Cursor.seek r.input stop

/-- What has to be known of a kind of recognizer, some of whose instructions are rule calls. -/
structure Faithful (c : Setting S X ι) (calls : ι → Option Nat) : Prop where
  apart {m : Nat} {j : Footing S} {x y : Action (Recognizer S X) Unit} :
    Echoing c m j x y → Echoing c m j (c.dialect.apart x) (c.dialect.apart y)
  apart_within {R : Recognizer S X → Recognizer S X → Prop} [IsPreorder (Recognizer S X) R]
    {x : Action (Recognizer S X) Unit} :
    (∀ r r', Undisturbed r r' → R r r') → Within R x → Within R (c.dialect.apart x)
  perform {m : Nat} {j : Footing S} {i : ι} :
    calls i = none → ∀ run run', Echoing c m j (c.dialect.perform c.grammar run i)
      (c.dialect.perform c.grammar run' i)
  perform_within {R : Recognizer S X → Recognizer S X → Prop} [IsPreorder (Recognizer S X) R]
    {run : Block ι → Action (Recognizer S X) Unit} :
    (∀ r r', Undisturbed r r' → R r r') →
    (∀ {β : Type} (start : RuleStart) (o : Except Fault β), Within R (record start o)) →
    (∀ n, Within R (run (c.grammar.body n))) → ∀ i, Within R (c.dialect.perform c.grammar run i)
  call {i : ι} {n : Nat} : calls i = some n → Calls c i n

/-! ## What every run keeps -/

instance : IsPreorder (Recognizer S X) Amasses where
  refl _ := ⟨fun _ => id, fun _ _ => id⟩
  trans _ _ _ h h' := ⟨fun e he => h'.trace e (h.trace e he),
    fun rule start hsome => h'.keys rule start (h.keys rule start hsome)⟩

omit [View S] in
lemma amasses_record (start : RuleStart) (o : Except Fault α) :
    Within Amasses (record start o : Action (Recognizer S X) Unit) := by
  have hinsert (stop : Nat) : Within Amasses (updateState fun s =>
      s.memoize start.rule start.index (match o with
        | .ok _ => .parsed stop
        | .error _ => .failed) : Action (Recognizer S X) Unit) := by
    refine Within.update fun r => ⟨fun _ => id, fun rule i hsome => ?_⟩
    show ((r.state.memo.insert _ _ _).find? rule i).isSome
    rw [MemoTable.find?_insert]
    split
    · rfl
    · exact hsome
  exact (Within.read _).bind fun memoizing =>
    Within.ite ((Within.read _).bind hinsert) (Within.pure _)

omit [View S] in
/-- The rest is as it was, as far as plain statements are concerned that do not look. -/
lemma undisturbed_plain {t : Statement ι} (ht : t.HandsOff) (hplain : t.Plain)
    (hlook : t ≠ .observe) (d : Dialect S X ι) (g : Grammar ι)
    (run : Block ι → Action (Recognizer S X) Unit) (fuel : Nat) :
    Within Undisturbed (Grammar.execute d g run fuel t) := by
  cases t with
  | consume => exact undisturbed_consume
  | seek i => exact undisturbed_seek i
  | setLastError i =>
    exact undisturbed_updateState (f := fun s => { s with lastErrorIndex := i }) (fun _ => rfl)
      (fun _ => rfl) fun _ => rfl
  | pushFrame rule follow =>
    exact (Within.read _).bind fun i => undisturbed_updateState
      (f := fun s => s.pushFrame rule follow i) (fun _ => rfl) (fun _ => rfl) fun _ => rfl
  | popFrame =>
    exact undisturbed_updateState (f := State.popFrame) (fun _ => rfl) (fun _ => rfl) fun _ => rfl
  | observe => exact absurd rfl hlook
  | mark | rewind | release | setBacktracking => exact ht.elim
  | ifHolds | whileHolds | untilHolds | oneOrMore | switch | predict | loop | require | synpred
  | speculating | attempt | earlyExit | perform => exact hplain.elim

/-- A recognizer that has looked. -/
def looked (r : Recognizer S X) : Recognizer S X :=
  { r with
    input := (Cursor.lookahead r.input 1).2
    trace := r.trace.push (.observed ⟨Cursor.index r.input, (Cursor.lookahead r.input 1).1,
      Cursor.markDepth (Cursor.lookahead r.input 1).2, r.state⟩) }

omit [View S] in
lemma observe_eq (d : Dialect S X ι) (g : Grammar ι)
    (run : Block ι → Action (Recognizer S X) Unit) (fuel : Nat) :
    Grammar.execute d g run fuel .observe = .update looked := rfl

omit [View S] in
lemma amasses_looked (r : Recognizer S X) : Amasses r (looked r) :=
  ⟨fun _ he => Array.mem_push.2 (.inl he), fun _ _ => id⟩

lemma Honest.looked (h : Honest c r) (hoptions : r.state.options = c.options) :
    Honest c (looked r) := by
  refine ⟨h.now, fun look hlook => ?_⟩
  rcases Array.mem_push.1 hlook with hlook | hlook
  · exact h.seen look hlook
  · obtain rfl := Event.observed.inj hlook
    exact ⟨h.now, hoptions⟩

/-- Backtracking is as deep as before. -/
def SameDepth (r r' : Recognizer S X) : Prop := r'.state.backtracking = r.state.backtracking

instance : IsPreorder (Recognizer S X) SameDepth where
  refl _ := rfl
  trans _ _ _ h h' := Eq.trans h' h

section

variable {calls : ι → Option Nat} (hc : Faithful c calls) (hg : c.grammar.All Statement.HandsOff)

include hc hg

lemma sameDepth_kept : Grammar.Kept c.dialect c.grammar Statement.HandsOff SameDepth := by
  have hkept {β : Type} {x : Action (Recognizer S X) β} (hx : Within Undisturbed x) :
      Within SameDepth x :=
    hx.mono fun _ _ h => h.backtracking_eq
  have hguard {β : Type} (raise : Bool) (ending : GuardEnd) {x : Action (Recognizer S X) β}
      (hx : Within SameDepth x) : Within SameDepth (speculating raise ending x) := by
    intro r o r' hrun
    obtain ⟨outcome, r₁, hbody, hout⟩ := speculating_eq_some.1 hrun
    obtain ⟨-, rfl⟩ := Prod.mk.inj hout
    have hdepth : r₁.state.backtracking = r.state.backtracking + raise.toNat := hx hbody
    exact Nat.sub_eq_of_eq_add hdepth
  constructor
  case lookahead => exact fun k => hkept (undisturbed_lookahead k)
  case symbol => exact hkept undisturbed_symbol
  case consume => exact Within.update fun _ => rfl
  case seek => exact fun i => Within.update fun _ => rfl
  case note => exact fun e _ => Within.update fun _ => rfl
  case fail => exact fun kind expected => hkept (undisturbed_fail kind expected)
  case synpred =>
    intro x hx
    have hclear : Within SameDepth (.update cleared : Action (Recognizer S X) Unit) :=
      Within.update fun _ => rfl
    rw [synpred_eq]
    refine (hguard true .restore ?_).bind fun o => Within.ofExcept _
    exact hx.attempt.bind fun o => hclear.bind fun _ => Within.pure _
  case speculating => exact fun raise ending x hx => hguard raise ending hx
  case apart => exact fun hx => hc.apart_within (fun _ _ h => h.backtracking_eq) hx
  case plain =>
    intro t ht hplain run fuel
    by_cases hlook : t = .observe
    · subst hlook
      exact Within.update fun _ => rfl
    · exact hkept (undisturbed_plain ht hplain hlook _ _ _ _)
  case perform =>
    intro i _ run hrun
    refine hc.perform_within (fun _ _ h => h.backtracking_eq) (fun start o => ?_)
      (fun n => hrun _ (hg.body n)) i
    exact (Within.read _).bind fun memoizing =>
      Within.ite ((Within.read _).bind fun stop => Within.update fun _ => rfl) (Within.pure _)

/-- Whatever comes of a run, backtracking is as deep as before. -/
lemma depth_of_run {b : Block ι} (hb : Block.All Statement.HandsOff b) {o : Except Fault Unit}
    (hrun : c.run fuel b r = some (o, r')) : r'.state.backtracking = r.state.backtracking :=
  Grammar.run_within (sameDepth_kept hc hg) hg fuel hb hrun

end

/-! ## Decisions

The blocks of a program are run by `run` and `run'`, which echo each other where there is room. -/

variable [Legible S]

section

variable {calls : ι → Option Nat} {run run' : Block ι → Action (Recognizer S X) Unit}
  (hc : Faithful c calls) (hg : c.grammar.All Statement.HandsOff)
  (hpositional : c.grammar.Positional)
  (hblocks : ∀ j b, Room c m j fuel fuel' → Block.All Statement.HandsOff b →
    Echoing c m j (run b) (run' b))

include hc hg hblocks

include hpositional in
lemma echo_evaluate (hroom : Room c m j fuel fuel') (id : Nat) :
    Echoing c m j (Grammar.evaluate c.dialect c.grammar run id)
      (Grammar.evaluate c.dialect c.grammar run' id) := by
  unfold Grammar.evaluate
  rcases hpredicate : c.grammar.predicate? id with _ | predicate
  · exact echo_fault fun _ h => by cases h
  · refine echo_index.bind fun index => ?_
    have hdone (value : Bool) : Echoing c m j (do
        note (.evaluated id index value)
        return value : Action (Recognizer S X) Bool) (do
        note (.evaluated id index value)
        return value) :=
      (echo_note fun _ h => by cases h).bind fun _ => .pure value
    cases predicate with
    | constant value => exact hdone value
    | text texts => exact echo_symbol.bind fun token => hdone (texts.contains token.text)
    | lookahead test => exact (echo_lookahead _).bind fun type => hdone (test.types.contains type)
    | consume value => exact echo_consume.bind fun _ => hdone value
    | depth least => exact absurd hpredicate (hpositional id least)
    | run block =>
      exact (hc.apart (hblocks j block hroom (hg.predicate hpredicate))).bind fun _ => hdone true

lemma echo_speculate (hroom : Room c m j fuel fuel') (decision n : Nat) :
    Echoing c m j (Grammar.speculate c.dialect c.grammar run decision n)
      (Grammar.speculate c.dialect c.grammar run' decision n) := by
  refine echo_index.bind fun index => echo_read_any fun depth depth' => ?_
  refine (echo_note fun _ h => by cases h).bind fun _ => ?_
  rcases hblock : c.grammar.simulation? decision n with _ | block
  · exact echo_fault fun _ h => by cases h
  · exact hc.apart (hblocks j block hroom (hg.simulation hblock))

/-- Neither recognizer is held back from a simulation. -/
lemma echo_simulate (hroom : Room c m j (fuel + 1) (fuel' + 1)) (a : Automaton) (start : Nat)
    (alternatives : List Nat) :
    Echoing c m j (simulate (Grammar.hooks c.dialect c.grammar run) a start alternatives)
      (simulate (Grammar.hooks c.dialect c.grammar run') a start alternatives) := by
  have hle := hroom.le
  have hle' := hroom.le'
  have hparsing (tryAll : Bool) (ns : List Nat) : Echoing c m j
      (firstParsing (Grammar.hooks c.dialect c.grammar run) a.decision start tryAll ns)
      (firstParsing (Grammar.hooks c.dialect c.grammar run') a.decision start tryAll ns) := by
    refine firstParsing_paired _ _ (fun n => echo_visiting (echo_synpred ?_) start) ns
    intro i hi hi' hbound
    exact echo_speculate hc hg hblocks (hroom.below (by omega) (by omega) hbound) _ n
  refine Couples.of_eq (hparsing c.options.reportAmbiguities (Automaton.ascending alternatives))
    ?_ fun r s h => ⟨?_, ?_⟩
  · exact (Within.read _).bind fun options => (Within.read _).bind fun depth =>
      Within.ite (Within.pure none) (hparsing _ _).fades
  · have hbound : ¬c.options.maxSpeculationDepth ≤ j.depth := by omega
    simp only [simulate, bind_apply, readState_apply, h.options_eq, h.depth_eq]
    exact congrFun (if_neg hbound) r
  · have hbound : ¬j.bound ≤ j.depth' := by omega
    simp only [simulate, bind_apply, readState_apply, h.options_eq', h.depth_eq']
    exact congrFun (if_neg hbound) s

include hpositional in
lemma echo_predict (hroom : Room c m j (fuel + 1) (fuel' + 1)) (a : Automaton) :
    Echoing c m j (predict (Grammar.hooks c.dialect c.grammar run) a)
      (predict (Grammar.hooks c.dialect c.grammar run') a) := by
  refine echo_speculating .restore fun i hi hi' hbound => ?_
  rw [Bool.toNat_false, Nat.add_zero] at hi hi'
  have hhere : Room c m i (fuel + 1) (fuel' + 1) :=
    ⟨hi ▸ hroom.le, by rw [hi', hbound]; exact hroom.le', hroom.slack⟩
  refine echo_index.bind fun start => ?_
  have hpartners : Partners (Candid c m) (Echoes c i) start
      (Grammar.hooks c.dialect c.grammar run) (Grammar.hooks c.dialect c.grammar run') :=
    { lookahead := echo_lookahead 1
      consume := echo_consume
      fail := echo_fail
      misuse := fun cause => echo_fault fun _ h => by cases h
      predicate := fun id => echo_visiting
        (echo_evaluate hc hg hpositional hblocks (hhere.below (by omega) (by omega) rfl) id) start
      simulate := fun a alternatives => echo_simulate hc hg hblocks hhere a start alternatives }
  show Echoing c m i
    (readState (fun s => s.options.maxLookahead) >>= fun budget =>
      walk (Grammar.hooks c.dialect c.grammar run) a start budget 0)
    (readState (fun s => s.options.maxLookahead) >>= fun budget =>
      walk (Grammar.hooks c.dialect c.grammar run') a start budget 0)
  refine Couples.read_bind (fun r s h => ?_) fun budget => hpartners.walk a budget 0
  show s.state.options.maxLookahead = r.state.options.maxLookahead
  rw [h.options_eq, h.options_eq']
  rfl

end

/-! ## Statements -/

lemma echo_plain {t : Statement ι} (ht : t.HandsOff) (hplain : t.Plain) (d : Dialect S X ι)
    (g : Grammar ι) (run run' : Block ι → Action (Recognizer S X) Unit) (fuel fuel' : Nat) :
    Echoing c m j (Grammar.execute d g run fuel t) (Grammar.execute d g run' fuel' t) := by
  cases t with
  | consume => exact echo_consume
  | seek i => exact echo_seek i
  | setLastError i =>
    exact echo_updateState (f := fun s => { s with lastErrorIndex := i }) (fun _ => rfl)
      (fun _ => rfl) fun _ => rfl
  | pushFrame rule follow =>
    exact echo_index.bind fun i => echo_updateState (f := fun s => s.pushFrame rule follow i)
      (fun _ => rfl) (fun _ => rfl) fun _ => rfl
  | popFrame =>
    exact echo_updateState (f := State.popFrame) (fun _ => rfl) (fun _ => rfl) fun _ => rfl
  | observe =>
    rw [observe_eq, observe_eq]
    refine Couples.update (fun r => (amasses_looked r).fades) fun r s h => ?_
    refine { h with
      placed := h.placed.lookahead 1
      placed' := h.placed'.lookahead 1
      spot_eq := fun hfault => ?_
      honest := h.honest.looked h.options_eq }
    show spot (Cursor.lookahead s.input 1).2 = spot (Cursor.lookahead r.input 1).2
    rw [(Lawful.lookahead 1 h.placed.ready).spot_eq, (Lawful.lookahead 1 h.placed'.ready).spot_eq]
    exact h.spot_eq hfault
  | mark | rewind | release | setBacktracking => exact ht.elim
  | ifHolds | whileHolds | untilHolds | oneOrMore | switch | predict | loop | require | synpred
  | speculating | attempt | earlyExit | perform => exact hplain.elim

omit [Legible S] in
/-- What comes of a failed speculation is not gone on from in a straight run. -/
lemma echo_attempt {d : Dialect S X ι} {g : Grammar ι}
    {run run' : Block ι → Action (Recognizer S X) Unit} {b : Block ι}
    (hb : Echoing c m j (run b) (run' b)) :
    Echoing c m j (Grammar.execute d g run fuel (.attempt b))
      (Grammar.execute d g run' fuel' (.attempt b)) := by
  refine Couples.attempt_bind hb fun o => ?_
  rcases o with fault | _
  · have hnoted (q : Recognizer S X) :
        Undisturbed q { q with trace := q.trace.push (.attempted (some fault)) } :=
      undisturbed_trace fun _ h => by cases h
    refine ⟨Within.update fun q => (hnoted q).fades, fun r o r' hrun hcandid s h => ?_⟩
    obtain ⟨rfl, rfl⟩ := Prod.mk.inj (Option.some.inj hrun)
    have hstraight : (Event.attempted (some fault)).Straight :=
      hcandid.straight _ (Array.mem_push.2 (.inr rfl))
    have hspot : spot s.input = spot r.input := by
      refine h.spot_eq fun hfault => ?_
      obtain rfl : fault = .backtracking := Option.some.inj hfault
      exact hstraight
    exact ⟨_, rfl, h.onward (hnoted r) rfl rfl h.placed h.placed' (fun _ => hspot)
      fun f hf => by cases hf⟩
  · exact echo_note fun _ h => by cases h

/-! ## Rule calls -/

section

variable {i : ι} {start start' : Nat} {o o' : Except Fault Unit} {fault : Option Fault}
  {r₀ r₁ s₀ s₁ s' q : Recognizer S X}

omit [Legible S] in
lemma Truthful.insert {memo : MemoTable} {e : MemoEntry} (h : Truthful c memo)
    (he : Right c n start e) : Truthful c (memo.insert n start e) := by
  intro rule i e' hfind
  rw [MemoTable.find?_insert] at hfind
  split at hfind
  · rename_i hkey
    obtain ⟨rfl, rfl⟩ := Prod.mk.inj hkey
    obtain rfl := Option.some.inj hfind
    exact he
  · exact h rule i e' hfind

namespace Departs

omit [View S] [Legible S] in
lemma amasses (h : Departs n start o r₁ r') : Amasses r₁ r' := by
  obtain ⟨rule, i, tree, htrace⟩ := h.trace
  refine ⟨fun e he => htrace ▸ Array.mem_push.2 (.inl he), fun rule' i' hsome => ?_⟩
  rw [h.memo_eq]
  split
  · rw [MemoTable.find?_insert]
    split
    · rfl
    · exact hsome
  · exact hsome

omit [Legible S] in
lemma honest (h : Departs n start o r₁ r') (hr : Honest c r₁)
    (hright : Right c n start (.ofOutcome o (Cursor.index r₁.input))) : Honest c r' := by
  obtain ⟨rule, i, tree, htrace⟩ := h.trace
  refine ⟨?_, fun look hlook => ?_⟩
  · rw [h.memo_eq]
    split
    · exact hr.now.insert hright
    · exact hr.now
  · rw [htrace] at hlook
    rcases Array.mem_push.1 hlook with hlook | hlook
    · exact hr.seen look hlook
    · cases hlook

omit [View S] [Legible S] in
/-- A rule that is left because of a misuse is not straight. -/
lemma ne_misuse (h : Departs n start o r₁ r') (hstraight : ∀ e ∈ r'.trace, e.Straight)
    (cause : Misuse) : o ≠ .error (.misuse cause) := by
  rintro rfl
  obtain ⟨rule, i, tree, htrace⟩ := h.trace
  exact hstraight _ (htrace ▸ Array.mem_push.2 (.inr rfl))

end Departs

omit [Legible S] in
lemma Echoes.closed (h : Echoes c j fault r₁ s₁) (hr : Departs n start o r₁ r')
    (hs : Departs n start' o' s₁ s') (hhonest : Honest c r') : Echoes c j fault r' s' where
  placed := hr.input_eq ▸ h.placed
  placed' := hs.input_eq ▸ h.placed'
  spot_eq hfault := by
    rw [hr.input_eq, hs.input_eq]
    exact h.spot_eq hfault
  depth_eq := hr.backtracking_eq.trans h.depth_eq
  depth_eq' := hs.backtracking_eq.trans h.depth_eq'
  options_eq := hr.options_eq.trans h.options_eq
  options_eq' := hs.options_eq.trans h.options_eq'
  honest := hhonest
  shallow := h.shallow

lemma Echoes.opened (h : Echoes c j none r s) (hr : Opens r r₀) (hs : Opens s s₀) :
    Echoes c j none r₀ s₀ := by
  refine h.onward hr.undisturbed hs.undisturbed.backtracking_eq hs.undisturbed.options_eq
    (hr.input_eq ▸ h.placed.symbol) (hs.input_eq ▸ h.placed'.symbol) (fun _ => ?_) h.shallow
  rw [hr.input_eq, hs.input_eq, (Lawful.symbol h.placed.ready).spot_eq,
    (Lawful.symbol h.placed'.ready).spot_eq]
  exact h.spot_eq (by simp)

variable (hbody : ∀ j fuel', Room c m j fuel fuel' →
  Echoing c m j (c.runRule fuel n) (c.runRule fuel' n))

include hbody

/-- What a run of a rule's body comes to is a right record: any unaided recognizer echoes it. -/
lemma yields_of_body (h : Echoes c j none r s) (hroom : Room c m j fuel fuel')
    (hrun : c.runRule fuel n r = some (o, r₁)) (hcandid : Candid c m r₁)
    (hmisuse : ∀ cause, o ≠ .error (.misuse cause)) :
    Yields c n (Cursor.index r.input) (fuel + m) (.ofOutcome o (Cursor.index r₁.input)) := by
  intro fuel₂ hfuel q hq hpos
  obtain ⟨bound, hoptions, hbound⟩ := hq.unbound
  have hle : r.state.backtracking + fuel ≤ c.options.maxSpeculationDepth :=
    h.depth_eq.symm ▸ hroom.le
  have hroom₂ : Room c m (.over r q bound h.pos hpos) fuel fuel₂ := ⟨hle, hbound, hfuel⟩
  obtain ⟨q', hrun', h₁⟩ := (hbody _ fuel₂ hroom₂).follows hrun hcandid q
    (h.trusted.echoes h.placed.ready h.pos hq hpos hoptions)
  refine ⟨o, q', hrun', ?_, ?_, h₁.depth_eq', h₁.options_eq'.trans hoptions.symm⟩
  · rcases o with (f | _ | cause) | _
    · exact absurd rfl (h₁.shallow f)
    · rfl
    · exact absurd rfl (hmisuse cause)
    · exact ⟨rfl, h₁.index_eq⟩
  · rw [hq.input_eq]
    exact h₁.placed'

/-- A rule call that is not replayed. -/
lemma echo_anew (hcall : Calls c i n) (h : Echoes c j none r s) (hroom : Room c m j fuel fuel')
    (hdepth : ∀ {q q' : Recognizer S X} {o : Except Fault Unit},
      c.runRule fuel n q = some (o, q') → q'.state.backtracking = q.state.backtracking)
    (hmissing : Unrecorded n r) (hmissing' : Unrecorded n s)
    (hrun : c.dialect.perform c.grammar (c.run fuel) i r = some (o, r'))
    (hcandid : Candid c m r') :
    ∃ s', c.dialect.perform c.grammar (c.run fuel') i s = some (o, s') ∧
      Echoes c j (Fault.ofOutcome o) r' s' := by
  obtain ⟨r₀, hopens, hr⟩ := hcall.anew h.placed.ready h.pos hmissing
  obtain ⟨s₀, hopens', hs⟩ := hcall.anew h.placed'.ready h.pos' hmissing'
  obtain ⟨o₁, r₁, hrun₁⟩ := (hr (c.run fuel)).1 o r' hrun
  have h₀ : Echoes c j none r₀ s₀ := h.opened hopens hopens'
  have hpos : 0 < r₁.state.backtracking := by
    rw [hdepth hrun₁]
    exact h₀.pos
  obtain ⟨r₂, hrun₂, hdeparts⟩ := (hr (c.run fuel)).2 o₁ r₁ hrun₁ hpos
  obtain ⟨rfl, rfl⟩ := Prod.mk.inj (Option.some.inj (hrun.symm.trans hrun₂))
  have hcandid₁ : Candid c m r₁ := hdeparts.amasses.fades hcandid
  obtain ⟨s₁, hrun', h₁⟩ := (hbody j fuel' hroom).follows hrun₁ hcandid₁ s₀ h₀
  obtain ⟨s', hperform, hdeparts'⟩ := (hs (c.run fuel')).2 o s₁ hrun' h₁.pos'
  have hindex : Cursor.index r₀.input = Cursor.index r.input := by
    rw [hopens.input_eq, Lawful.index_eq, Lawful.index_eq,
      (Lawful.symbol h.placed.ready).spot_eq]
  have hyields := yields_of_body hbody h₀ hroom hrun₁ hcandid₁
    (hdeparts.ne_misuse hcandid.straight)
  rw [hindex] at hyields
  have hright : Right c n (Cursor.index r.input) (.ofOutcome o (Cursor.index r₁.input)) :=
    ⟨⟨r.input, h.placed.ready, h.placed.input_eq, rfl⟩, _, hyields⟩
  exact ⟨s', hperform, h₁.closed hdeparts hdeparts' (hdeparts.honest h₁.honest hright)⟩

omit hbody in
/-- A rule call without records comes to what a right record tells. -/
lemma Yields.call {e : MemoEntry} (hyields : Yields c n (Cursor.index r.input) m e)
    (hcall : Calls c i n) (h : Echoes c j none r s) (hroom : Room c m j fuel fuel')
    (hmissing' : Unrecorded n s) :
    ∃ o s', c.dialect.perform c.grammar (c.run fuel') i s = some (o, s') ∧
      e.Tells o (Cursor.index s'.input) ∧ Placed c.input j.marks' s'.input ∧
      s'.state.backtracking = s.state.backtracking ∧ s'.state.options = s.state.options := by
  obtain ⟨s₀, hopens', hs⟩ := hcall.anew h.placed'.ready h.pos' hmissing'
  have hplaced₀ : Placed c.input j.marks' s₀.input := hopens'.input_eq ▸ h.placed'.symbol
  have hdepth₀ : s₀.state.backtracking = j.depth' :=
    hopens'.undisturbed.backtracking_eq.trans h.depth_eq'
  have hunaided : Unaided c (Cursor.index r.input) fuel' s₀ := by
    refine ⟨hplaced₀.ready, hplaced₀.input_eq, ?_, j.bound,
      hopens'.undisturbed.options_eq.trans h.options_eq', hdepth₀ ▸ hroom.le'⟩
    rw [← h.index_eq, hopens'.input_eq, Lawful.index_eq, Lawful.index_eq,
      (Lawful.symbol h.placed'.ready).spot_eq]
  have hslack : m ≤ fuel' := Nat.le_trans (Nat.le_add_left m fuel) hroom.slack
  obtain ⟨o, s₁, hrun₁, htells, habides⟩ :=
    hyields fuel' hslack s₀ hunaided (hdepth₀ ▸ j.pos')
  have hplaced₁ : Placed c.input j.marks' s₁.input := by
    have hplaced := habides.placed
    rw [hplaced₀.input_eq, hplaced₀.marks_eq] at hplaced
    exact hplaced
  have hdepth₁ : s₁.state.backtracking = j.depth' := habides.backtracking_eq.trans hdepth₀
  obtain ⟨s', hperform, hdeparts'⟩ := (hs (c.run fuel')).2 o s₁ hrun₁ (hdepth₁ ▸ j.pos')
  refine ⟨o, s', hperform, hdeparts'.input_eq ▸ htells, hdeparts'.input_eq ▸ hplaced₁, ?_, ?_⟩
  · exact (hdeparts'.backtracking_eq.trans hdepth₁).trans h.depth_eq'.symm
  · exact hdeparts'.options_eq.trans (habides.options_eq.trans hopens'.undisturbed.options_eq)

omit hbody in
/-- A rule call that is replayed from a record. -/
lemma echo_replayed {e : MemoEntry} (hcall : Calls c i n) (h : Echoes c j none r s)
    (hroom : Room c m j fuel fuel') (hmissing' : Unrecorded n s)
    (hmemoize : r.state.options.memoize = true)
    (hentry : r.state.memo.find? n (Cursor.index r.input) = some e) (hcandid : Candid c m r)
    (hrun : c.dialect.perform c.grammar (c.run fuel) i r = some (o, r')) :
    ∃ s', c.dialect.perform c.grammar (c.run fuel') i s = some (o, s') ∧
      Echoes c j (Fault.ofOutcome o) r' s' := by
  obtain ⟨k, hk⟩ := (h.honest.now n _ e hentry).yields
  have hyields : Yields c n (Cursor.index r.input) m e :=
    hcandid.timely n _ (by rw [hentry]; rfl) e k hk
  obtain ⟨o', s', hperform, htells, hplaced', hdepth', hoptions'⟩ :=
    hyields.call hcall h hroom hmissing'
  cases e with
  | failed =>
    obtain rfl : o' = .error .backtracking := htells
    obtain ⟨r₂, hrun₂, hundisturbed, hinput⟩ := hcall.failed h.pos hmemoize hentry (c.run fuel)
    obtain ⟨rfl, rfl⟩ := Prod.mk.inj (Option.some.inj (hrun.symm.trans hrun₂))
    exact ⟨s', hperform, h.onward hundisturbed hdepth' hoptions' (hinput ▸ h.placed) hplaced'
      (fun hfault => absurd rfl hfault) fun f hf => by cases hf⟩
  | parsed stop =>
    obtain ⟨rfl, hstop⟩ : o' = .ok () ∧ Cursor.index s'.input = stop := htells
    obtain ⟨r₂, hrun₂, hundisturbed, hinput⟩ := hcall.parsed h.pos hmemoize hentry (c.run fuel)
    obtain ⟨rfl, rfl⟩ := Prod.mk.inj (Option.some.inj (hrun.symm.trans hrun₂))
    refine ⟨s', hperform, h.onward hundisturbed hdepth' hoptions' (hinput ▸ h.placed.seek stop)
      hplaced' (fun _ => ?_) fun f hf => by cases hf⟩
    rw [hinput, ← hstop]
    exact (spot_seek h.placed.ready hplaced'.ready
      (hplaced'.input_eq.trans h.placed.input_eq.symm)).symm

lemma echo_call (hcall : Calls c i n) (hroom : Room c m j fuel fuel')
    (hdepth : ∀ {q q' : Recognizer S X} {o : Except Fault Unit},
      c.runRule fuel n q = some (o, q') → q'.state.backtracking = q.state.backtracking)
    (hfades : Within (Fades (Candid c m)) (c.dialect.perform c.grammar (c.run fuel) i)) :
    Echoing c m j (c.dialect.perform c.grammar (c.run fuel) i)
      (c.dialect.perform c.grammar (c.run fuel') i) := by
  refine ⟨hfades, fun r o r' hrun hcandid s h => ?_⟩
  have hmissing' : Unrecorded n s := by
    intro hmemoize
    rw [h.options_eq'] at hmemoize
    cases hmemoize
  by_cases hmissing : Unrecorded n r
  · exact echo_anew hbody hcall h hroom hdepth hmissing hmissing' hrun hcandid
  · obtain ⟨hmemoize, hfound⟩ := Classical.not_imp.1 hmissing
    obtain ⟨e, hentry⟩ := Option.ne_none_iff_exists'.1 hfound
    exact echo_replayed hcall h hroom hmissing' hmemoize hentry (hfades hrun hcandid) hrun

end

/-! ## Runs -/

section

variable {calls : ι → Option Nat} (hc : Faithful c calls) (hg : c.grammar.All Statement.HandsOff)
  (hpositional : c.grammar.Positional)

include hc hg

/-- An instruction is echoed if runs of blocks are. -/
lemma echo_instruction
    (hblocks : ∀ {i : Footing S} {fuel' : Nat} {b : Block ι}, Room c m i fuel fuel' →
      Block.All Statement.HandsOff b → Echoing c m i (c.run fuel b) (c.run fuel' b))
    (hroom : Room c m j fuel fuel') (i : ι) :
    Echoing c m j (c.dialect.perform c.grammar (c.run fuel) i)
      (c.dialect.perform c.grammar (c.run fuel') i) := by
  rcases hcalls : calls i with _ | n
  · exact hc.perform hcalls _ _
  · refine echo_call (fun i fuel₂ hi => hblocks hi (hg.body n)) (hc.call hcalls) hroom
      (fun hrun => depth_of_run hc hg (hg.body n) hrun) ?_
    exact hc.perform_within (fun _ _ h => h.fades)
      (fun start o => (amasses_record start o).mono fun _ _ h => h.fades)
      (fun n => (hblocks hroom (hg.body n)).fades) i

include hpositional

/-- **A run with records is echoed by one without.** There is room for both (`Room`), and the block
leaves marks and the depth of backtracking to guards. -/
theorem echo_run (hroom : Room c m j fuel fuel') {b : Block ι}
    (hb : Block.All Statement.HandsOff b) : Echoing c m j (c.run fuel b) (c.run fuel' b) := by
  induction fuel generalizing fuel' j b with
  | zero => exact Couples.unending
  | succ fuel ih =>
    have hslack := hroom.slack
    obtain ⟨fuel', rfl⟩ : ∃ k, fuel' = k + 1 := ⟨fuel' - 1, by omega⟩
    have hhere : Room c m j fuel fuel' := hroom.below (by omega) (by omega) rfl
    have hblocks (i : Footing S) (b : Block ι) (hi : Room c m i fuel fuel')
        (hb : Block.All Statement.HandsOff b) : Echoing c m i (c.run fuel b) (c.run fuel' b) :=
      ih hi hb
    have hconcord : Grammar.Concord (Candid c m) (Echoes c j) c.dialect c.dialect c.grammar
        Statement.HandsOff (c.run fuel) (c.run fuel') fuel fuel' := by
      constructor
      case block => exact fun hb => hblocks j _ hhere hb
      case lookahead => exact echo_lookahead
      case fail => exact echo_fail
      case index => exact echo_index
      case note =>
        intro e he
        exact echo_note fun look h => by
          subst h
          exact he
      case evaluate => exact echo_evaluate hc hg hpositional hblocks hhere
      case predict => exact echo_predict hc hg hpositional hblocks hroom
      case synpred =>
        exact fun _ hb => echo_synpred fun i hi hi' hbound =>
          hc.apart (hblocks i _ (hroom.below (by omega) (by omega) hbound) hb)
      case speculating =>
        intro raise ending b _ hb
        have hraise := raise.toNat_le
        exact echo_speculating ending fun i hi hi' hbound =>
          hblocks i _ (hroom.below (by omega) (by omega) hbound) hb
      case attempt => exact fun _ hb => echo_attempt (hblocks j _ hhere hb)
      case plain => exact fun ht hplain => echo_plain ht hplain _ _ _ _ _ _
      case perform => exact fun _ => echo_instruction hc hg (fun hi hb => ih hi hb) hhere _
    exact .forM fun s hs => hconcord.execute (by omega) (hb s hs)

end

end Lookahead
