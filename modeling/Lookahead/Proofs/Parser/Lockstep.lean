import Lookahead.Proofs.Parser.Replayable
import Lookahead.Proofs.Stream.Abreast

/-!
# Two parsers in lockstep

A `Trial` compares two runs of a program.  The first is a plain one: it records nothing, and its
predictions may nest speculations as deep as it takes.  The second one is the *twin* of the first, a
parser that differs in its options only, or a stranger that happens to speculate at the same place.

`Tied` says what the two parsers have in common between operations.  At depth 0 they are twins that
agree in everything but what recording brings along.  While they speculate, little else than the
input and the place matters, since every operation then comes down to something `Quiet`.

A twin may go on from a recorded outcome instead of running a rule.  `Recalls` says that this is the
outcome of every plain run that the record could stand for.
-/

namespace Lookahead

open Action Cursor Recognizer

/-- The options of a plain run: nothing is recorded, and speculations may be nested up to `depth`.
-/
def Options.plain (options : Options) (depth : Nat) : Options :=
  { options with memoize := false, maxSpeculationDepth := depth }

namespace State

/-- The states differ in nothing but what recording brings along, and in the options that a plain
run has of its own. -/
def Similar (s s' : State) : Prop :=
  ∃ failed memo memoize maxSpeculationDepth,
    s' = { s with failed, memo, options := { s.options with memoize, maxSpeculationDepth } }

/-- An update that treats similar states alike, and that sets neither the depth of backtracking nor
the records. -/
structure Modest (f : State → State) : Prop where
  backtracking_eq (s : State) : (f s).backtracking = s.backtracking
  options_eq (s : State) : (f s).options = s.options
  memo_eq (s : State) : (f s).memo = s.memo
  similar {s s' : State} : s.Similar s' → (f s).Similar (f s')

lemma modest_of {f : State → State} (hbacktracking : ∀ s, (f s).backtracking = s.backtracking)
    (hoptions : ∀ s, (f s).options = s.options) (hmemo : ∀ s, (f s).memo = s.memo)
    (h : ∀ (s : State) failed memo memoize maxSpeculationDepth, (f s).Similar
      (f { s with failed, memo, options := { s.options with memoize, maxSpeculationDepth } })) :
    Modest f := by
  refine ⟨hbacktracking, hoptions, hmemo, ?_⟩
  rintro s _ ⟨failed, memo, memoize, depth, rfl⟩
  exact h s failed memo memoize depth

end State

/-- The record is what becomes of a run that comes out as `o` and ends at a place. -/
def MemoEntry.Tells : MemoEntry → Except Fault Unit → Nat → Prop
  | .parsed stop, o, place => o = .ok () ∧ place = stop
  | .failed, o, _ => o = .error .backtracking

namespace Parser

variable {σ : Type} [TokenSource σ] {α : Type}

/-! ## Trials -/

/-- What two runs have in common. -/
structure Trial where
  grammar : Grammar ParserInstruction
  options : Options
  /-- How deep the speculations of a plain run may be nested. -/
  bound : Nat
  /-- Is the second parser the first one's twin? -/
  twin : Bool

namespace Trial

variable (c : Trial)

/-- The options of the first parser, which records nothing and has a bound of its own. -/
def plain : Options := c.options.plain c.bound

/-- The options of the second parser, which are the first one's if it is a stranger. -/
def second : Options := if c.twin then c.options else c.plain

/-- How deep a run may be nested so that its twin is not held back. -/
abbrev limit : Nat := c.options.maxSpeculationDepth

end Trial

/-- Where in their speculations two parsers are: over which input, how deep, and under which
marks. -/
structure Stage where
  input : Array Token × Channel
  depth : Nat
  depth' : Nat
  marks : List (Nat × Nat)
  marks' : List (Nat × Nat)

/-- The parser can run the body of a rule for comparison, with so much fuel. -/
structure Rehearses (c : Trial) (fuel : Nat) (q : Parser σ) : Prop where
  onToken : q.input.OnToken
  numbered : q.input.fill.Numbered
  options_eq : q.state.options = c.plain
  pos : 0 < q.state.backtracking
  room : q.state.backtracking + fuel ≤ c.bound
  root_eq : q.own.root = none

/-- Whatever is recorded is what becomes of all plain runs over the same input. -/
def Recalls (c : Trial) (s : TokenStream σ) (memo : MemoTable) : Prop :=
  ∀ rule start entry, memo.find? rule start = some entry →
    ∀ (fuel : Nat) (q : Parser σ) (o : Except Fault Unit) (q' : Parser σ), Rehearses c fuel q →
      View.input q.input = View.input s → q.input.place = start →
      c.grammar.run watchful fuel (c.grammar.body rule) q = some (o, q') → Fair c.limit q' →
      entry.Tells o q'.input.place

/-- What is recalled does not depend on the place. -/
lemma Recalls.of_input_eq {c : Trial} {s s' : TokenStream σ} {memo : MemoTable}
    (h : Recalls c s memo) (hinput : View.input s' = View.input s) : Recalls c s' memo := by
  intro rule start entry hentry fuel q o q' hq hq'
  exact h rule start entry hentry fuel q o q' hq (hq'.trans hinput)

/-- The inputs of two parsers. -/
structure Facing (i : Stage) (fault : Option Fault) (t t' : TokenStream σ) : Prop where
  parallel : t.Parallel t'
  input_eq : View.input t = i.input
  abreast : fault = none ∨ i.depth = 0 → t.Abreast t'
  started : 0 < i.depth ∨ i.marks ≠ [] → t.started = true ∧ t'.started = true
  numbered : t.fill.Numbered
  marks_eq : t.marks.entries = i.marks
  marks_eq' : t'.marks.entries = i.marks'

/-- The states of two parsers. -/
structure Counterparts (c : Trial) (i : Stage) (s s' : State) : Prop where
  options_eq : s.options = c.plain
  options_eq' : s'.options = c.second
  depth_eq : s.backtracking = i.depth
  depth_eq' : s'.backtracking = i.depth'
  similar : c.twin = true → s.Similar s'

/-- Two parsers in lockstep, after a fault if there was one.  A failed speculation may leave them at
different places, and a misuse records that are wrong. -/
structure Tied (c : Trial) (i : Stage) (fault : Option Fault) (r s : Parser σ) : Prop where
  facing : Facing i fault r.input s.input
  counterparts : Counterparts c i r.state s.state
  root_eq : s.own.root = r.own.root
  tree_eq : c.twin = true → s.own.tree = r.own.tree
  depth_eq : c.twin = true → i.depth' = i.depth
  pos : c.twin = false → 0 < i.depth ∧ 0 < i.depth'
  shallow : ∀ f, fault = some (.failed f) → i.depth = 0
  recalls : c.twin = true → (∀ cause, fault ≠ some (.misuse cause)) →
    Recalls c s.input s.state.memo

/-- Two actions that keep parsers in lockstep, where the first one comes to a fair end. -/
abbrev Lockstep (c : Trial) (i : Stage) (x y : Action (Parser σ) α) : Prop :=
  Paired (Fair c.limit) (Tied c i) x y

variable {c : Trial} {i : Stage} {fault fault' : Option Fault} {r s : Parser σ}

lemma Facing.moved {t t' u u' : TokenStream σ} (h : Facing i fault t t') (ht : t.Wanders u)
    (ht' : t'.Wanders u') (hu : u.Abreast u') : Facing i fault' u u' where
  parallel := hu.toParallel
  input_eq := ht.input_eq.trans h.input_eq
  abreast _ := hu
  started hi := ⟨ht.started (h.started hi).1, ht'.started (h.started hi).2⟩
  numbered := TokenStream.Numbered.of_input_eq h.numbered ht.input_eq
  marks_eq := by rw [ht.marks_eq, h.marks_eq]
  marks_eq' := by rw [ht'.marks_eq, h.marks_eq']

namespace Tied

lemma pos' (h : Tied c i fault r s) (hi : 0 < i.depth) : 0 < i.depth' := by
  cases htwin : c.twin with
  | true => rw [h.depth_eq htwin]; exact hi
  | false => exact (h.pos htwin).2

lemma backtracking_pos (h : Tied c i fault r s) (hi : 0 < i.depth) :
    0 < r.state.backtracking ∧ 0 < s.state.backtracking := by
  rw [h.counterparts.depth_eq, h.counterparts.depth_eq']
  exact ⟨hi, h.pos' hi⟩

/-- Strangers meet in speculations only. -/
lemma twin_of_depth (h : Tied c i fault r s) (hi : i.depth = 0) : c.twin = true := by
  by_contra htwin
  have hpos := (h.pos (by simpa using htwin)).1
  omega

lemma similar (h : Tied c i fault r s) (hi : i.depth = 0) : r.state.Similar s.state :=
  h.counterparts.similar (h.twin_of_depth hi)

lemma onToken (h : Tied c i fault r s) (hi : 0 < i.depth ∨ i.marks ≠ []) :
    r.input.OnToken ∧ s.input.OnToken := by
  obtain ⟨hstarted, hstarted'⟩ := h.facing.started hi
  exact ⟨h.facing.parallel.orderly.onToken hstarted,
    h.facing.parallel.orderly'.onToken hstarted'⟩

/-- Parsers at one place can leave a fault behind, unless it is a misuse. -/
lemma settled (h : Tied c i fault r s) (habreast : r.input.Abreast s.input)
    (hmisuse : ∀ cause, fault = some (.misuse cause) → fault' = some (.misuse cause))
    (hshallow : ∀ f, fault' = some (.failed f) → i.depth = 0) : Tied c i fault' r s where
  facing := { h.facing with abreast := fun _ => habreast }
  counterparts := h.counterparts
  root_eq := h.root_eq
  tree_eq := h.tree_eq
  depth_eq := h.depth_eq
  pos := h.pos
  shallow := hshallow
  recalls htwin hfault := h.recalls htwin fun cause hcause => hfault cause (hmisuse cause hcause)

/-- At depth 0 there is nothing else to a fault. -/
lemma of_depth (h : Tied c i fault r s) (hi : i.depth = 0)
    (hmisuse : ∀ cause, fault = some (.misuse cause) → fault' = some (.misuse cause)) :
    Tied c i fault' r s :=
  h.settled (h.facing.abreast (.inr hi)) hmisuse fun _ _ => hi

lemma faulted (h : Tied c i none r s) (hshallow : ∀ f, fault = some (.failed f) → i.depth = 0) :
    Tied c i fault r s :=
  h.settled (h.facing.abreast (.inl rfl)) (fun _ hcause => by cases hcause) hshallow

lemma moved {t t' : TokenStream σ} (h : Tied c i fault r s) (ht : r.input.Wanders t)
    (ht' : s.input.Wanders t') (hu : t.Abreast t') :
    Tied c i fault { r with input := t } { s with input := t' } where
  facing := h.facing.moved ht ht' hu
  counterparts := h.counterparts
  root_eq := h.root_eq
  tree_eq := h.tree_eq
  depth_eq := h.depth_eq
  pos := h.pos
  shallow := h.shallow
  recalls htwin hmisuse := (h.recalls htwin hmisuse).of_input_eq ht'.input_eq

lemma sought (h : Tied c i fault r s) (n : Nat) :
    Tied c i fault { r with input := Cursor.seek r.input n }
      { s with input := Cursor.seek s.input n } :=
  h.moved (TokenStream.wanders_seek _ n) (TokenStream.wanders_seek _ n)
    (h.facing.parallel.seek n)

lemma updated {f : State → State} (hf : State.Modest f) (h : Tied c i fault r s) :
    Tied c i fault { r with state := f r.state } { s with state := f s.state } where
  facing := h.facing
  counterparts :=
    { options_eq := (hf.options_eq _).trans h.counterparts.options_eq
      options_eq' := (hf.options_eq _).trans h.counterparts.options_eq'
      depth_eq := (hf.backtracking_eq _).trans h.counterparts.depth_eq
      depth_eq' := (hf.backtracking_eq _).trans h.counterparts.depth_eq'
      similar := fun htwin => hf.similar (h.counterparts.similar htwin) }
  root_eq := h.root_eq
  tree_eq := h.tree_eq
  depth_eq := h.depth_eq
  pos := h.pos
  shallow := h.shallow
  recalls htwin hmisuse := by
    show Recalls c s.input (f s.state).memo
    rw [hf.memo_eq]
    exact h.recalls htwin hmisuse

lemma traced {e e' : Event} (h : Tied c i fault r s) :
    Tied c i fault { r with trace := r.trace.push e } { s with trace := s.trace.push e' } :=
  { h with }

lemma rooted (h : Tied c i fault r s) (root : Option NodeId) :
    Tied c i fault { r with own := { r.own with root } } { s with own := { s.own with root } } :=
  { h with root_eq := rfl, tree_eq := h.tree_eq }

lemma planted {f : Tree → Tree} (h : Tied c i fault r s) :
    Tied c i fault { r with own := { r.own with tree := f r.own.tree } }
      { s with own := { s.own with tree := f s.own.tree } } :=
  { h with tree_eq := fun htwin => congrArg f (h.tree_eq htwin) }

end Tied

/-! ## Single operations -/

lemma lockstep_stepInput {f : TokenStream σ → α × TokenStream σ}
    (hf : ∀ s s' : TokenStream σ, s.Abreast s' → (f s').1 = (f s).1 ∧ (f s).2.Abreast (f s').2)
    (hw : ∀ s : TokenStream σ, s.Wanders (f s).2) :
    Lockstep c i (stepInput f : Action (Parser σ) α) (stepInput f) := by
  refine Couples.step (fun r => fades_of_trace_eq rfl) fun r s h => ?_
  obtain ⟨hvalue, hafter⟩ := hf _ _ (h.facing.abreast (.inl rfl))
  exact ⟨hvalue, h.moved (hw _) (hw _) hafter⟩

lemma lockstep_lookahead (k : Int) :
    Lockstep c i (lookahead k : Action (Parser σ) TokenType) (lookahead k) :=
  lockstep_stepInput (fun _ _ h => h.lookahead k) fun s => s.wanders_lookahead k

lemma lockstep_symbol : Lockstep c i (symbol : Action (Parser σ) Token) symbol :=
  lockstep_stepInput (fun _ _ h => h.symbol) fun s => s.wanders_symbol

lemma lockstep_lookBehind (k : Nat) :
    Lockstep c i (lookBehind k : Action (Parser σ) (Option Token)) (lookBehind k) :=
  lockstep_stepInput (fun _ _ h => h.lookBehind k) fun s => s.wanders_lookBehind k

lemma lockstep_consume : Lockstep c i (consume : Action (Parser σ) Unit) consume := by
  refine Couples.update (fun r => fades_of_trace_eq rfl) fun r s h => ?_
  exact h.moved (TokenStream.wanders_consume _) (TokenStream.wanders_consume _)
    (h.facing.abreast (.inl rfl)).consume

lemma lockstep_index : Lockstep c i (index : Action (Parser σ) Nat) index :=
  Couples.read fun _ _ h => ⟨(h.facing.abreast (.inl rfl)).place_eq, h⟩

lemma lockstep_update {f g : Parser σ → Parser σ} (hfades : ∀ r, Fades (Fair c.limit) r (f r))
    (h : ∀ r s, Tied c i none r s → Tied c i none (f r) (g s)) :
    Lockstep c i (Action.update f) (Action.update g) :=
  Couples.update hfades h

lemma lockstep_seek (n : Nat) : Lockstep c i (seek n : Action (Parser σ) Unit) (seek n) :=
  lockstep_update (fun _ => fades_of_trace_eq rfl) fun _ _ h => h.sought n

lemma lockstep_note (e e' : Event) : Lockstep c i (note e : Action (Parser σ) Unit) (note e') :=
  lockstep_update (fun _ => fades_push) fun _ _ h => h.traced

/-- The parser with an event traced that may depend on it. -/
def remarked (e : Parser σ → Event) (r : Parser σ) : Parser σ :=
  { r with trace := r.trace.push (e r) }

/-- What is traced makes no difference. -/
lemma couples_remark {e e' : Parser σ → Event} {x y : Action (Parser σ) α}
    {T : Except Fault α → Parser σ → Parser σ → Prop}
    (hxy : Couples (Fair c.limit) (Tied c i fault) x y T) :
    Couples (Fair c.limit) (Tied c i fault) (.update (remarked e) >>= fun _ => x)
      (.update (remarked e') >>= fun _ => y) T :=
  Couples.update_bind (fun _ => fades_push) (fun _ _ h => h.traced) hxy

lemma lockstep_updateState {f : State → State} (hf : State.Modest f) :
    Lockstep c i (updateState f : Action (Parser σ) Unit) (updateState f) :=
  lockstep_update (fun _ => fades_of_trace_eq rfl) fun _ _ h => h.updated hf

lemma lockstep_setRoot (root : Option NodeId) :
    Lockstep c i (setRoot root : Action (Parser σ) Unit) (setRoot root) :=
  lockstep_update (fun _ => fades_of_trace_eq rfl) fun _ _ h => h.rooted root

lemma lockstep_currentRoot :
    Lockstep c i (currentRoot : Action (Parser σ) (Option NodeId)) currentRoot :=
  Couples.read fun _ _ h => ⟨h.root_eq, h⟩

lemma lockstep_fault {e : Fault} (he : ∀ f, e = .failed f → i.depth = 0) :
    Lockstep c i (.fault e : Action (Parser σ) α) (.fault e) :=
  Couples.ofExcept (o := .error e) fun _ _ h => h.faulted fun f hf => he f (Option.some.inj hf)

lemma lockstep_giveUp : Lockstep c i (giveUp : Action (Parser σ) α) giveUp := by
  have hmodest : State.Modest fun s => { s with failed := true } :=
    State.modest_of (fun _ => rfl) (fun _ => rfl) (fun _ => rfl) fun _ _ _ _ _ =>
      ⟨_, _, _, _, rfl⟩
  exact (lockstep_updateState hmodest).bind fun _ => lockstep_fault fun f hf => by cases hf

lemma lockstep_matchAny : Lockstep c i (matchAny : Action (Parser σ) Token) matchAny := by
  have hmodest : State.Modest fun s => { s with recovering := false, failed := false } :=
    State.modest_of (fun _ => rfl) (fun _ => rfl) (fun _ => rfl) fun _ _ _ _ _ =>
      ⟨_, _, _, _, rfl⟩
  exact lockstep_symbol.bind fun token => lockstep_consume.bind fun _ =>
    (lockstep_updateState hmodest).bind fun _ => .pure token

/-- What is run with a root of its own. -/
lemma lockstep_withRoot {x y : Action (Parser σ) α} (hxy : Lockstep c i x y)
    (root : Option NodeId) : Lockstep c i (withRoot root x) (withRoot root y) := by
  refine lockstep_currentRoot.bind fun outer => (lockstep_setRoot root).bind fun _ => ?_
  refine Couples.attempt_bind hxy fun o => ?_
  refine Couples.read_bind (fun _ _ h => h.root_eq) fun inner => ?_
  refine Couples.update_bind (fun _ => fades_of_trace_eq rfl) (fun _ _ h => h.rooted outer) ?_
  cases o with
  | ok a => exact Paired.pure inner
  | error e => exact Couples.ofExcept (o := .error e) fun _ _ h => h

lemma lockstep_apart {x y : Action (Parser σ) Unit} (hxy : Lockstep c i x y) :
    Lockstep c i (dialect.apart x) (dialect.apart y) :=
  (lockstep_withRoot hxy none).discard

/-- What is done at another place: a move brings the parsers together, wherever a fault has left
them. -/
lemma lockstep_visiting {x y : Action (Parser σ) α} (hxy : Lockstep c i x y) (start : Nat) :
    Lockstep c i (visiting start x) (visiting start y) := by
  refine lockstep_index.bind fun here => (lockstep_seek start).bind fun _ => ?_
  refine Couples.attempt_bind hxy fun o => ?_
  exact Couples.update_bind (fun _ => fades_of_trace_eq rfl) (fun _ _ h => h.sought here)
    (Couples.ofExcept fun _ _ h => h)

end Parser

end Lookahead
