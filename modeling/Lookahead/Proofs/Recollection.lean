import Lookahead.Proofs.Grammar.Underway
import Lookahead.Proofs.Parser.Memoization
import Lookahead.Proofs.SpeculationDepth
import Lookahead.Proofs.Walker.FirstFailure

/-!
# Records can be relied on

In a run from the start, every record tells what becomes of its rule's body at its place, and every
syntactic predicate answers what it answers without records (`Setting.Reliable`), at any point of
the run and in every speculation.  This holds of all parser grammars and all tree grammars that
leave marks and the depth of backtracking to guards.

The bound of speculations must not have had an effect.  A run may thus be thought of as one with a
greater bound (`Recognizer.bounded`), which the records are right for.
-/

namespace Lookahead

open Action Cursor Recognizer

variable {S X ι α : Type}

/-! ## The bound of speculations -/

/-- The options with another bound on the depth of speculation. -/
def Options.bounded (limit : Nat) (options : Options) : Options :=
  { options with maxSpeculationDepth := limit }

/-- The state with another bound on the depth of speculation. -/
def State.bounded (limit : Nat) (s : State) : State :=
  { s with options := s.options.bounded limit }

/-- The event as the trace of a recognizer with another bound has it; only looks show the
options. -/
def Event.bounded (limit : Nat) : Event → Event
  | .observed look => .observed { look with state := look.state.bounded limit }
  | e => e

namespace Recognizer

/-- The recognizer as it would be if it had had another bound of speculations from the start on. -/
def bounded (limit : Nat) (r : Recognizer S X) : Recognizer S X :=
  { r with
    state := r.state.bounded limit
    trace := r.trace.map (Event.bounded limit) }

variable {limit : Nat} {r : Recognizer S X} {look : Snapshot}

lemma observed_of_bounded (h : .observed look ∈ (r.bounded limit).trace) :
    ∃ look', .observed look' ∈ r.trace ∧ look.state = look'.state.bounded limit := by
  obtain ⟨e, he, heq⟩ := Array.mem_map.1 h
  cases e with
  | observed look' =>
    obtain rfl := Event.observed.inj heq
    exact ⟨look', he, rfl⟩
  | _ => cases heq

lemma bounded_observed (h : .observed look ∈ r.trace) :
    .observed { look with state := look.state.bounded limit } ∈ (r.bounded limit).trace :=
  Array.mem_map_of_mem h

lemma straight_bounded (h : ∀ e ∈ r.trace, e.Straight) :
    ∀ e ∈ (r.bounded limit).trace, e.Straight := by
  intro e he
  obtain ⟨e', he', rfl⟩ := Array.mem_map.1 he
  have hstraight := h e' he'
  cases e' with
  | observed => trivial
  | _ => exact hstraight

end Recognizer

/-- The action comes to an end, and nothing was in its way.  It has skipped no simulation, so that
it does the same with a bound that no speculation comes to; no rule was left because of a misuse;
and nothing was gone on from a failed speculation. -/
structure Unhindered (fuel : Nat) (x : Action (Recognizer S X) α) (r : Recognizer S X)
    (o : Except Fault α) (r' : Recognizer S X) : Prop where
  run : x r = some (o, r')
  unskipped : ∃ limit, r.state.backtracking + fuel ≤ limit ∧
    x (r.bounded limit) = some (o, r'.bounded limit)
  straight : ∀ e ∈ r'.trace, e.Straight

/-! ## Runs -/

variable [Cursor S] [View S]

namespace Setting

variable (c : Setting S X ι)

/-- The setting with another bound on the depth of speculation. -/
def bounded (limit : Nat) : Setting S X ι := { c with options := c.options.bounded limit }

/-- A recognizer that has not run, over the setting's input and with its options. -/
structure Starts (r : Recognizer S X) : Prop where
  reached : Reached r.input
  input_eq : View.input r.input = c.input
  options_eq : r.state.options = c.options
  memo_eq : r.state.memo = .empty
  depth_eq : r.state.backtracking = 0
  trace_eq : r.trace = #[]

end Setting

/-- The recognizer `r'` has the records of a run that has come to `r`: those of now, or those that
somebody saw who looked on the way.  Where it stands in the input, under which marks, how deep it
backtracks and in which rules does not matter. -/
structure Seen (r r' : Recognizer S X) : Prop where
  records : r'.state.memo = r.state.memo ∧ r'.state.options = r.state.options ∨
    ∃ look, .observed look ∈ r.trace ∧ r'.state.memo = look.state.memo ∧
      r'.state.options = look.state.options
  usable : Usable r'.input
  input_eq : View.input r'.input = View.input r.input
  trace : ∀ look, .observed look ∈ r'.trace → .observed look ∈ r.trace

namespace Setting

variable (c : Setting S X ι)

/-- A run passes through the recognizer `r'`, and nothing was in its way up to there: it has skipped
no simulation, so that it passes through the same with a bound that no speculation comes to; no rule
was left because of a misuse; and nothing was gone on from a failed speculation.  Nothing is said
about what comes afterwards, which need not come to an end. -/
structure Passes (fuel : Nat) (b : Block ι) (r r' : Recognizer S X) : Prop where
  visits : Grammar.VisitsWithin c.dialect c.grammar fuel b r r'
  unskipped : ∃ limit, r.state.backtracking + fuel ≤ limit ∧
    Grammar.VisitsWithin c.dialect c.grammar fuel b (r.bounded limit) (r'.bounded limit)
  straight : ∀ e ∈ r'.trace, e.Straight

/-- A recognizer with the records that there are at some point of a run from the start.  The run
may pass through that point and go on, with or without coming to an end, or end there. -/
inductive Met (q : Recognizer S X) : Prop
  | underway {fuel : Nat} {b : Block ι} {r r' : Recognizer S X}
      (hb : Block.All Statement.HandsOff b) (hr : c.Starts r) (h : c.Passes fuel b r r')
      (hq : Seen r' q)
  | after {fuel : Nat} {b : Block ι} {r r' : Recognizer S X} {o : Except Fault Unit}
      (hb : Block.All Statement.HandsOff b) (hr : c.Starts r)
      (hrun : Unhindered fuel (c.run fuel b) r o r') (hq : Seen r' q)

/-- All records are right in the runs from the start, and all syntactic predicates answer what they
answer without records. -/
structure Reliable : Prop where
  truthful {q : Recognizer S X} : c.Met q → Truthful c q.state.memo
  answers {fuel : Nat} {q q' : Recognizer S X} {f : Fragment ι} {holds : Bool} :
    c.Met q → f.HandsOff → Unhindered (fuel + 1) (synpred (c.fragment fuel f)) q (.ok holds) q' →
      c.Answers f (Cursor.index (Cursor.mark q.input).2) holds

end Setting

section

variable {c : Setting S X ι} {limit rule start fuel : Nat} {e : MemoEntry} {memo : MemoTable}
  {r r' q s : Recognizer S X}

/-- What there is without records and without a bound does not hang on the bound. -/
lemma Unaided.of_bounded (h : Unaided (c.bounded limit) start fuel s) : Unaided c start fuel s :=
  ⟨h.ready, h.input_eq, h.index_eq, h.unbound⟩

lemma Unaided.bounded (h : Unaided c start fuel s) (limit : Nat) :
    Unaided (c.bounded limit) start fuel s :=
  ⟨h.ready, h.input_eq, h.index_eq, h.unbound⟩

lemma Truthful.bounded (h : Truthful c memo) (limit : Nat) : Truthful (c.bounded limit) memo := by
  intro rule start e hfind
  obtain ⟨hplace, m, hyields⟩ := h rule start e hfind
  exact ⟨hplace, m, fun fuel hfuel s hs hpos => hyields fuel hfuel s hs.of_bounded hpos⟩

lemma Truthful.of_bounded (h : Truthful (c.bounded limit) memo) : Truthful c memo := by
  intro rule start e hfind
  obtain ⟨hplace, m, hyields⟩ := h rule start e hfind
  exact ⟨hplace, m, fun fuel hfuel s hs hpos => hyields fuel hfuel s (hs.bounded limit) hpos⟩

lemma Setting.Answers.of_bounded {f : Fragment ι} {holds : Bool}
    (h : (c.bounded limit).Answers f start holds) : c.Answers f start holds := by
  obtain ⟨n, hanswers⟩ := h
  exact ⟨n, fun fuel hfuel s hs => hanswers fuel hfuel s (hs.bounded limit)⟩

lemma Setting.Starts.bounded (h : c.Starts r) (limit : Nat) :
    (c.bounded limit).Starts (r.bounded limit) where
  reached := h.reached
  input_eq := h.input_eq
  options_eq := congrArg (Options.bounded limit) h.options_eq
  memo_eq := h.memo_eq
  depth_eq := h.depth_eq
  trace_eq := (congrArg (Array.map (Event.bounded limit)) h.trace_eq).trans (Array.map_empty)

lemma Setting.Starts.trusted (h : c.Starts r) : Trusted c r where
  usable := .inr h.reached
  input_eq := h.input_eq
  options_eq := h.options_eq
  honest := by
    refine ⟨h.memo_eq ▸ truthful_empty c, fun look hlook => ?_⟩
    rw [h.trace_eq] at hlook
    exact absurd hlook (Array.not_mem_empty _)

lemma Trusted.bounded_eq (h : Trusted c r) : r.bounded c.options.maxSpeculationDepth = r := by
  have hoptions {s : State} (hs : s.options = c.options) :
      s.bounded c.options.maxSpeculationDepth = s := by
    rw [State.bounded, hs]
    show { s with options := c.options } = s
    rw [← hs]
  have htrace : r.trace.map (Event.bounded c.options.maxSpeculationDepth) = r.trace := by
    refine (Array.map_congr_left fun e he => ?_).trans (Array.map_id r.trace)
    cases e with
    | observed look =>
      obtain ⟨-, hlook⟩ := h.honest.seen look he
      rw [Event.bounded, hoptions hlook]
      rfl
    | _ => rfl
  rw [Recognizer.bounded, hoptions h.options_eq, htrace]

/-- Right records are right wherever they are seen. -/
lemma Seen.trusted (hq : Seen r' q) (h : Trusted (c.bounded limit) (r'.bounded limit))
    (limit' : Nat) : Trusted (c.bounded limit') (q.bounded limit') := by
  have hlook (look : Snapshot) (hlook : .observed look ∈ r'.trace) :
      Truthful (c.bounded limit') look.state.memo ∧
        look.state.options.bounded limit' = c.options.bounded limit' := by
    obtain ⟨htruthful, hoptions⟩ := h.honest.seen _ (bounded_observed hlook)
    have hrebound := congrArg (Options.bounded limit') hoptions
    exact ⟨htruthful.of_bounded.bounded limit', hrebound⟩
  have hrecords : Truthful (c.bounded limit') q.state.memo ∧
      q.state.options.bounded limit' = c.options.bounded limit' := by
    obtain ⟨hmemo, hoptions⟩ | ⟨look, hmem, hmemo, hoptions⟩ := hq.records
    · have hrebound := congrArg (Options.bounded limit') h.options_eq
      rw [hmemo, hoptions]
      exact ⟨h.honest.now.of_bounded.bounded limit', hrebound⟩
    · rw [hmemo, hoptions]
      exact hlook look hmem
  refine ⟨hq.usable, hq.input_eq.trans h.input_eq, hrecords.2, hrecords.1, fun look hmem => ?_⟩
  obtain ⟨look', hmem', hsame⟩ := observed_of_bounded hmem
  rw [hsame]
  exact hlook look' (hq.trace _ hmem')

end

lemma Seen.refl {r : Recognizer S X} (h : Usable r.input) : Seen r r :=
  ⟨.inl ⟨rfl, rfl⟩, h, rfl, fun _ => id⟩

section

variable [Legible S] {c : Setting S X ι} {calls : ι → Option Nat}
  (hc : ∀ limit, Faithful (c.bounded limit) calls) (hd : Grammar.Levelled c.dialect c.grammar)
  (hg : c.grammar.All Statement.HandsOff) (hpositional : c.grammar.Positional)

include hc hd hg hpositional

/-- The records at all points of the runs from the start are right. -/
lemma Setting.Met.trusted {q : Recognizer S X} (h : c.Met q) (limit : Nat) :
    Trusted (c.bounded limit) (q.bounded limit) := by
  cases h with
  | underway hb hr h hq =>
    obtain ⟨bound, hle, hvisits⟩ := h.unskipped
    rw [hr.depth_eq, Nat.zero_add] at hle
    exact hq.trusted (trusted_of_visits (hc bound) hd hg hpositional hb hle
      (hr.bounded bound).trusted hr.depth_eq hvisits (straight_bounded h.straight)) limit
  | after hb hr hrun hq =>
    obtain ⟨bound, hle, hbounded⟩ := hrun.unskipped
    rw [hr.depth_eq, Nat.zero_add] at hle
    exact hq.trusted (trusted_of_run (hc bound) hg hpositional hle hb (hr.bounded bound).trusted
      hr.depth_eq hbounded (straight_bounded hrun.straight)) limit

/-- Runs of recognizers with faithful instructions can be relied on. -/
lemma reliable_of_faithful : c.Reliable := by
  constructor
  case truthful =>
    intro q hq
    exact (hq.trusted hc hd hg hpositional 0).honest.now.of_bounded
  case answers =>
    intro fuel q q' f holds hq hf hanswer
    obtain ⟨limit, hle, hbounded⟩ := hanswer.unskipped
    exact (answers_of_synpred (hc limit) hg hpositional hf (hq.trusted hc hd hg hpositional limit)
      hle hbounded (straight_bounded hanswer.straight)).of_bounded

end

section

variable {c : Setting S X ι} {r r' : Recognizer S X}

/-- A bound that is not come to is no hindrance. -/
lemma Trusted.unhindered (fuel : Nat) {x : Action (Recognizer S X) α} {o : Except Fault α}
    (hr : Trusted c r) (hr' : Trusted c r')
    (hle : r.state.backtracking + fuel ≤ c.options.maxSpeculationDepth)
    (hrun : x r = some (o, r')) (hstraight : ∀ e ∈ r'.trace, e.Straight) :
    Unhindered fuel x r o r' := by
  refine ⟨hrun, ⟨c.options.maxSpeculationDepth, hle, ?_⟩, hstraight⟩
  rw [hr.bounded_eq, hr'.bounded_eq]
  exact hrun

lemma Trusted.passes {fuel : Nat} {b : Block ι} (hr : Trusted c r) (hr' : Trusted c r')
    (hle : r.state.backtracking + fuel ≤ c.options.maxSpeculationDepth)
    (hvisits : Grammar.VisitsWithin c.dialect c.grammar fuel b r r')
    (hstraight : ∀ e ∈ r'.trace, e.Straight) : c.Passes fuel b r r' := by
  refine ⟨hvisits, ⟨c.options.maxSpeculationDepth, hle, ?_⟩, hstraight⟩
  rw [hr.bounded_eq, hr'.bounded_eq]
  exact hvisits

lemma starts_ofInput {s : S} (hs : View.Fresh s) (d : Dialect S X ι) (g : Grammar ι) (own : X)
    (options : Options) (vocabulary : Vocabulary) :
    (⟨d, g, options, View.input s⟩ : Setting S X ι).Starts (.ofInput s own options vocabulary) :=
  ⟨⟨s, hs, Reaches.refl s⟩, rfl, rfl, rfl, rfl, rfl⟩

end

/-! ## Records that can be relied on -/

/-- **Records can be relied on**, in parsers and in walkers.  The grammar has one body for each
rule; its statements leave marks and the depth of backtracking to guards (`Statement.HandsOff`),
and no predicate asks how deep the recognizer is speculating (`Positional`).

In every run of such a grammar that starts with a fresh recognizer, every record is right at any
point up to which nothing has hindered the run (`Setting.Met`): that a rule has matched up to a
place means that its body, without records and without a bound on speculations, matches from its
start up to there, and that it has failed means that the body fails.  And every syntactic
predicate answers what it answers without records and without a bound (`Setting.Reliable`). -/
theorem records_reliable :
    (∀ {σ : Type} [TokenSource σ] (g : Grammar ParserInstruction) (options : Options)
        (input : View.Input (TokenStream σ)), g.All Statement.HandsOff → g.Positional →
        (Parser.setting g options input : Setting (TokenStream σ) _ _).Reliable) ∧
      ∀ (g : Grammar WalkerInstruction) (options : Options) (input : View.Input NodeStream),
        g.All Statement.HandsOff → g.Positional → (Walker.setting g options input).Reliable := by
  constructor
  · intro σ _ g options input hg hpositional
    exact reliable_of_faithful (fun limit => Parser.faithful_setting g _ input)
      (Parser.levelled g) hg hpositional
  · intro g options input hg hpositional
    exact reliable_of_faithful (fun limit => Walker.faithful_setting g _ input)
      (Walker.levelled g) hg hpositional

/-- The standard options, with records. -/
def recording : Options := { Options.standard with memoize := true }

namespace Parser

/-- A parser of items in front of a couple and the first token of one. -/
def itemsRecorded : Setting (TokenStream (List Token)) TreeBuilder ParserInstruction :=
  setting items recording (View.input (itemsAhead recording).input)

/-- Two rules are tried, one after the other. -/
def triedRules (first second : Nat) : Block ParserInstruction :=
  [.synpred [.perform (.call first .bare)] [] [], .synpred [.perform (.call second .bare)] [] []]

/-- An item is tried. -/
def triedItem : Fragment ParserInstruction := .block [.perform (.call 0 .bare)]

lemma starts_ofSource {σ : Type} [TokenSource σ] (g : Grammar ParserInstruction)
    (options : Options) (source : σ) (channel : Channel) (name : String)
    (vocabulary : Vocabulary) :
    (setting g options (View.input (TokenStream.ofSource source channel name))).Starts
      (Parser.ofSource source channel name vocabulary options) := by
  have hfresh : View.Fresh (TokenStream.ofSource source channel name) :=
    ⟨source, channel, name, rfl⟩
  exact starts_ofInput hfresh dialect g _ options vocabulary

lemma handsOff_items : items.All Statement.HandsOff := by
  apply Grammar.all_of_mem
  all_goals simp [items, Statement.all_iff, Statement.blocks, Statement.HandsOff]

lemma positional_items : items.Positional := by
  intro id least h
  simp [Grammar.predicate?, items] at h

/-- A couple is tried and then an item, which is a couple. -/
lemma tried_items (h : itemsRecorded.Reliable) :
    ∃ r, itemsRecorded.run 8 (triedRules 1 0) (itemsAhead recording) = some (.ok (), r) ∧
      r.state.memo.find? 0 0 = some (.parsed 2) ∧ Right itemsRecorded 0 0 (.parsed 2) ∧
      itemsRecorded.Answers triedItem 0 true := by
  have hfaithful : Faithful itemsRecorded called := faithful_setting _ _ _
  have hstart : itemsRecorded.Starts (itemsAhead recording) := starts_ofSource _ _ _ _ _ _
  have htried : Block.All Statement.HandsOff (triedRules 1 0) := by
    simp [triedRules, Statement.all_iff, Statement.blocks, Statement.HandsOff]
  have hitem : triedItem.HandsOff := by
    simp [triedItem, Fragment.HandsOff, Statement.all_iff, Statement.blocks, Statement.HandsOff]
  have hvalues : ((itemsRecorded.run 8 (triedRules 1 0) (itemsAhead recording)).map fun x =>
      ((x.1.toBool, x.2.state.memo.find? 0 0, x.2.state.backtracking,
          Cursor.index (Cursor.mark x.2.input).2),
        decide (∀ e ∈ x.2.trace, e.Straight),
        (synpred (itemsRecorded.fragment 8 triedItem) x.2).map fun y =>
          (y.1.toOption, decide (∀ e ∈ y.2.trace, e.Straight)))) =
      some ((true, some (.parsed 2), 0, 0), true, some (some true, true)) := by
    decide +kernel
  obtain ⟨⟨o, r⟩, hrun, hvalues⟩ := Option.map_eq_some_iff.1 hvalues
  simp only [Prod.mk.injEq, decide_eq_true_eq, Option.map_eq_some_iff, Prod.exists] at hvalues
  obtain ⟨⟨hok, hfind, hdepth, hindex⟩, hstraight, o', r', hanswer, hholds, hstraight'⟩ := hvalues
  rcases o with _ | ⟨⟩
  · cases hok
  rcases o' with _ | holds
  · cases hholds
  obtain rfl := Option.some.inj hholds
  have htrusted : Trusted itemsRecorded r := trusted_of_run hfaithful handsOff_items
    positional_items (by decide) htried hstart.trusted rfl hrun hstraight
  have htrusted' : Trusted itemsRecorded r' := trusted_of_trial hfaithful handsOff_items
    positional_items (by decide) hitem htrusted hdepth hanswer hstraight'
  have hunhindered := hstart.trusted.unhindered 8 htrusted (by decide) hrun hstraight
  have hunhindered' := htrusted.unhindered 9 htrusted' (by rw [hdepth]; decide) hanswer
    hstraight'
  have hmet : itemsRecorded.Met r := .after htried hstart hunhindered (.refl htrusted.usable)
  refine ⟨r, hrun, hfind, h.truthful hmet 0 0 _ hfind, ?_⟩
  rw [← hindex]
  exact h.answers hmet hitem hunhindered'

end Parser

namespace Walker

/-- A walker in front of a node of type 4. -/
def fiveAhead : Walker := .ofStream atFour.input recording (.tokens #[])

/-- A walker that looks for a node of type 5. -/
def fiveRecorded : Setting NodeStream Unit WalkerInstruction :=
  setting (five []) recording (View.input fiveAhead.input)

lemma handsOff_five : (five []).All Statement.HandsOff := by
  apply Grammar.all_of_mem
  all_goals simp [five, Statement.all_iff, Statement.blocks, Statement.HandsOff]

lemma positional_five : (five []).Positional := by
  intro id least h
  simp [Grammar.predicate?, five] at h

lemma starts_five : fiveRecorded.Starts fiveAhead := by
  have hfresh : View.Fresh atFour.input := ⟨rfl, rfl⟩
  exact starts_ofInput hfresh dialect _ _ _ _

lemma handsOff_tried :
    Block.All Statement.HandsOff [(.synpred [callFive] [] [] : Statement WalkerInstruction)] := by
  simp [callFive, Statement.all_iff, Statement.blocks, Statement.HandsOff]

/-- A node of type 5 is tried, which is not there. -/
lemma tried_five (h : fiveRecorded.Reliable) :
    ∃ w, fiveRecorded.run 8 [.synpred [callFive] [] []] fiveAhead = some (.ok (), w) ∧
      w.state.memo.find? 0 0 = some .failed ∧ Right fiveRecorded 0 0 .failed := by
  have hvalues : ((fiveRecorded.run 8 [.synpred [callFive] [] []] fiveAhead).map fun x =>
      (x.1.toBool, x.2.state.memo.find? 0 0, decide (∀ e ∈ x.2.trace, e.Straight))) =
      some (true, some .failed, true) := by
    decide +kernel
  obtain ⟨⟨o, w⟩, hrun, hvalues⟩ := Option.map_eq_some_iff.1 hvalues
  simp only [Prod.mk.injEq, decide_eq_true_eq] at hvalues
  obtain ⟨hok, hfind, hstraight⟩ := hvalues
  rcases o with _ | ⟨⟩
  · cases hok
  have hfaithful : Faithful fiveRecorded called := faithful_setting _ _ _
  have htrusted : Trusted fiveRecorded w := trusted_of_run hfaithful handsOff_five positional_five
    (by decide) handsOff_tried starts_five.trusted rfl hrun hstraight
  have hunhindered := starts_five.trusted.unhindered 8 htrusted (by decide) hrun hstraight
  have hmet : fiveRecorded.Met w :=
    .after handsOff_tried starts_five hunhindered (.refl htrusted.usable)
  exact ⟨w, hrun, hfind, h.truthful hmet 0 0 _ hfind⟩

/-- The node is looked for under a mark, with the depth of backtracking raised. -/
lemma begins_callFive : Grammar.BeginsWithin dialect (five []) 7 (.synpred [callFive] [] [])
    fiveAhead [callFive] (begun true fiveAhead) := by
  classical
  let run : Block WalkerInstruction → Action Walker Unit := fun b w =>
    if b = [callFive] ∧ w = begun true fiveAhead then none else (five []).run dialect 7 b w
  have hnone : run [callFive] (begun true fiveAhead) = none := if_pos ⟨rfl, rfl⟩
  have htried : synpred (run [callFive]) fiveAhead = none := by
    rw [synpred_eq, bind_apply, speculating_apply, bind_apply, attempt_apply, hnone]
    rfl
  have hexecute : Grammar.execute dialect (five []) run 7 (.synpred [callFive] [] []) fiveAhead =
      none := bind_of_none htried
  have hends : (Grammar.execute dialect (five []) ((five []).run dialect 7) 7
      (.synpred [callFive] [] []) fiveAhead).isSome = true := by
    decide +kernel
  refine ⟨run, fun b w hne => if_neg hne, fun heq => ?_⟩
  rw [← heq, hexecute] at hends
  cases hends

/-- The record that the rule has failed is there before the node is given up. -/
lemma tried_five_inside (h : fiveRecorded.Reliable) :
    ∃ w, fiveRecorded.Passes 8 [.synpred [callFive] [] []] fiveAhead w ∧
      w.state.backtracking = 1 ∧ w.state.memo.find? 0 0 = some .failed ∧
      Right fiveRecorded 0 0 .failed := by
  have hvalues : ((Grammar.execute dialect (five []) ((five []).run dialect 6) 6 callFive
      (begun true fiveAhead)).map fun x => (x.2.state.backtracking, x.2.state.memo.find? 0 0,
        decide (∀ e ∈ x.2.trace, e.Straight))) = some (1, some .failed, true) := by
    decide +kernel
  obtain ⟨⟨o, w⟩, hcall, hvalues⟩ := Option.map_eq_some_iff.1 hvalues
  simp only [Prod.mk.injEq, decide_eq_true_eq] at hvalues
  obtain ⟨hdepth, hfind, hstraight⟩ := hvalues
  have hvisits : Grammar.VisitsWithin dialect (five []) 8 [.synpred [callFive] [] []] fiveAhead w :=
    .inside begins_callFive (.finish hcall)
  have hfaithful : Faithful fiveRecorded called := faithful_setting _ _ _
  have htrusted : Trusted fiveRecorded w := trusted_of_visits hfaithful (levelled _)
    handsOff_five positional_five handsOff_tried (by decide) starts_five.trusted rfl hvisits
    hstraight
  have hpasses := starts_five.trusted.passes htrusted (by decide) hvisits hstraight
  have hmet : fiveRecorded.Met w :=
    .underway handsOff_tried starts_five hpasses (.refl htrusted.usable)
  exact ⟨w, hpasses, hdepth, hfind, h.truthful hmet 0 0 _ hfind⟩

end Walker

/-- A parser and a walker that have records to rely on, the walker in the midst of a speculation as
well. -/
theorem records_reliable_tried :
    (∃ r : Parser (List Token),
      Parser.itemsRecorded.run 8 (Parser.triedRules 1 0) (Parser.itemsAhead recording) =
          some (.ok (), r) ∧
        r.state.memo.find? 0 0 = some (.parsed 2) ∧ Right Parser.itemsRecorded 0 0 (.parsed 2) ∧
        Parser.itemsRecorded.Answers Parser.triedItem 0 true) ∧
      (∃ w : Walker,
        Walker.fiveRecorded.run 8 [.synpred [Walker.callFive] [] []] Walker.fiveAhead =
            some (.ok (), w) ∧
          w.state.memo.find? 0 0 = some .failed ∧ Right Walker.fiveRecorded 0 0 .failed) ∧
      ∃ w : Walker,
        Walker.fiveRecorded.Passes 8 [.synpred [Walker.callFive] [] []] Walker.fiveAhead w ∧
          w.state.backtracking = 1 ∧ w.state.memo.find? 0 0 = some .failed ∧
          Right Walker.fiveRecorded 0 0 .failed := by
  obtain ⟨hparsers, hwalkers⟩ := records_reliable
  have hfive : Walker.fiveRecorded.Reliable :=
    hwalkers _ _ _ Walker.handsOff_five Walker.positional_five
  refine ⟨?_, Walker.tried_five hfive, Walker.tried_five_inside hfive⟩
  exact Parser.tried_items (hparsers _ _ _ Parser.handsOff_items Parser.positional_items)

/-! ## Records that tell too little -/

namespace Parser

/-- Rules that come to more than where they stop, and rules that call them. -/
def sly : Grammar ParserInstruction where
  rules := [
    ("couple", [.perform (.token 4 .bare), .perform (.token 5 .bare)]),
    ("hasty", [.attempt [.perform (.call 0 .bare)], .perform (.token 6 .bare)]),
    ("marking", [.mark]),
    ("keeping", [.speculating false .keep [.perform (.call 2 .bare)]]),
    ("setting", [.setBacktracking 1]),
    ("five", [.perform (.token 5 .bare)]),
    ("sinking", [.speculating true .keep [.perform (.call 4 .bare)],
      .perform (.call 5 (.ofTypes [7]))])]
  predicates := []
  simulations := []

/-- The event tells of a misuse. -/
def misused : Event → Bool
  | .entered _ _ (some (.misuse _)) | .exited _ _ (some (.misuse _)) _ => true
  | .attempted (some (.misuse _)) => true
  | _ => false

/-- What a parser that records has recorded of the second rule, and whether somebody misused it;
and then what the body of the second rule comes to in a speculation without records. -/
def recordAndTruth (options : Options) (types : List TokenType) (first second : Nat) :
    Option (Option MemoEntry × Bool) × Option (Bool × Nat) :=
  ((runBlock sly 8 (triedRules first second)
      (inFrontOf types { options with memoize := true })).map fun result =>
        (result.2.state.memo.find? second 0, result.2.trace.any misused),
    (runBlock sly 8 (.setBacktracking 1 :: sly.body second) (inFrontOf types options)).map
      fun result => (result.1.toBool, Cursor.index result.2.input))

/-- A record is not right of a rule that goes on from a failed speculation, of one under which marks
were taken that a replay does not take, or of one under which the depth was set that a replay does
not set. -/
theorem records_tell_too_little :
    recordAndTruth .withoutRepairs [4, 6] 0 1 =
        (some (some .failed, false), some (true, 2)) ∧
      recordAndTruth .withoutRepairs [4] 2 3 =
        (some (some (.parsed 0), false), some (false, 0)) ∧
      recordAndTruth .withoutRepairs [4, 7] 4 6 =
        (some (some .failed, false), some (true, 1)) := by
  refine ⟨?_, ?_, ?_⟩
  all_goals decide +kernel

end Parser

end Lookahead
