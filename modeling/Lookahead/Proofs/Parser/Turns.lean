import Lookahead.Proofs.Parser.Journal

/-!
# Turns of a run

A `Turn` is a resynchronization: where it began and ended, and which place the parser remembered as
that of its last resynchronization before and after it.  `turns` is the journal in which the turns
of a run are logged, whatever else is done between them.

All the rest of what a parser does heeds the place that is remembered (`Heeds`), unless a statement
assigns it.  So what a run keeps by way of its turns comes down to those two (`turns_within`).
-/

namespace Lookahead

open Action Cursor Recognizer

/-- A statement that does not assign the place of the last resynchronization by hand. -/
def Statement.Heedful {ι : Type} : Statement ι → Prop
  | .setLastError _ => False
  | _ => True

namespace Parser

open TokenStream

variable {σ : Type} [TokenSource σ] {α : Type} {r r' : Parser σ}

/-! ## What heeds the place -/

/-- The input was operated on, and the place where it was last resynchronized is remembered. -/
structure Heeds (r r' : Parser σ) : Prop where
  reaches : Reaches r.input r'.input
  lastErrorIndex_eq : r'.state.lastErrorIndex = r.state.lastErrorIndex

instance : IsPreorder (Parser σ) Heeds where
  refl _ := ⟨Reaches.refl _, rfl⟩
  trans _ _ _ h h' := ⟨h.reaches.trans h'.reaches, h'.lastErrorIndex_eq.trans h.lastErrorIndex_eq⟩

lemma Upkeep.heeds (h : Upkeep r r') : Heeds r r' := ⟨h.reaches, h.serves.lastErrorIndex_eq⟩

lemma heeds_of_upkeep {x : Action (Parser σ) α} (hx : Within Upkeep x) : Within Heeds x :=
  hx.mono fun _ _ h => h.heeds

lemma heeds_updateState {f : State → State} (hf : ∀ s, (f s).lastErrorIndex = s.lastErrorIndex) :
    Within Heeds (updateState f : Action (Parser σ) Unit) :=
  Within.update fun r => ⟨Reaches.refl _, hf r.state⟩

lemma heeds_note (e : Event) : Within Heeds (note e : Action (Parser σ) Unit) :=
  Within.update fun _ => ⟨Reaches.refl _, rfl⟩

lemma heeds_record (start : RuleStart) (outcome : Except Fault α) :
    Within Heeds (record start outcome : Action (Parser σ) Unit) :=
  (Within.read _).bind fun _ => Within.ite
    ((Within.read _).bind fun _ => heeds_updateState fun _ => rfl) (Within.pure _)

/-- The plain statements heed the place that is remembered, but for the one that assigns it. -/
lemma heeds_plain {s : Statement ParserInstruction} (hs : s.Heedful) (hplain : s.Plain)
    (g : Grammar ParserInstruction) (run : Block ParserInstruction → Action (Parser σ) Unit)
    (fuel : Nat) : Within Heeds (Grammar.execute dialect g run fuel s) := by
  have htry {f : TokenStream σ → Except Misuse (TokenStream σ)}
      (hf : ∀ s s', f s = .ok s' → Reaches s s') :
      Within Heeds (tryInput f : Action (Parser σ) Unit) := by
    intro r o r' h
    unfold tryInput at h
    split at h
    · rename_i input hinput
      obtain ⟨-, rfl⟩ := Prod.mk.inj (Option.some.inj h)
      exact ⟨hf _ _ hinput, rfl⟩
    · obtain ⟨-, rfl⟩ := Prod.mk.inj (Option.some.inj h)
      exact refl_of Heeds r
  have hmark : Within Heeds (mark : Action (Parser σ) Mark) :=
    heeds_of_upkeep (upkeep_stepInput fun s => (Step.mark s).reaches)
  have hseen : Within Heeds (snapshot : Action (Parser σ) Snapshot) :=
    (Within.read _).bind fun index =>
      (heeds_of_upkeep (upkeep_lookahead 1)).bind fun type => Within.read _
  cases s with
  | mark => exact hmark.bind fun m => Within.update fun r => ⟨Reaches.refl _, rfl⟩
  | rewind i => exact (Within.read _).bind fun m => htry fun s s' h => (Step.rewind h).reaches
  | release i => exact (Within.read _).bind fun m => htry fun s s' h => (Step.release h).reaches
  | consume => exact heeds_of_upkeep upkeep_consume
  | seek i => exact heeds_of_upkeep (upkeep_seek i)
  | setBacktracking depth =>
    exact heeds_updateState (f := fun s => { s with backtracking := depth }) fun _ => rfl
  | setLastError => exact hs.elim
  | pushFrame rule follow => exact (Within.read _).bind fun index => heeds_updateState fun _ => rfl
  | popFrame => exact heeds_updateState fun _ => rfl
  | observe => exact hseen.bind fun seen => heeds_note _
  | ifHolds | whileHolds | untilHolds | oneOrMore | switch | predict | loop | require | synpred
  | speculating | attempt | earlyExit | perform => exact hplain.elim

/-! ## Turns -/

/-- A resynchronization takes the cursor from `start` to `stop`.  The place of the last one is
`found` before it and `left` after it. -/
structure Turn where
  start : Nat
  stop : Nat
  found : Option Nat
  left : Option Nat
  deriving DecidableEq, Repr

/-- The resynchronizations of a run, in order, each logged by the operation itself; those of
speculative parses are among them. -/
def turns : Journal Turn σ where
  matched _ _ _ := []
  deleted _ _ _ := []
  inserted _ _ _ := []
  resynchronized r r' :=
    [⟨r.input.place, r'.input.place, r.state.lastErrorIndex, r'.state.lastErrorIndex⟩]
  decisions := id

section

variable {R : Parser σ → List Turn → Parser σ → Prop} [Logged.Composes R]
  (hheeds : ∀ r r', Heeds r r' → R r [] r')
  (hresync : ∀ report f, Logged.Within R (.telling (fun r _ r' => turns.resynchronized r r')
    (resynchronize report f)))

include hheeds

omit [Logged.Composes R] in
lemma silently_of_heeds {x : Action (Parser σ) α} (hx : Within Heeds x) :
    Within (Logged.Silently R) x :=
  hx.mono hheeds

omit [Logged.Composes R] in
lemma silently_of_upkeep {x : Action (Parser σ) α} (hx : Within Upkeep x) :
    Within (Logged.Silently R) x :=
  silently_of_heeds hheeds (heeds_of_upkeep hx)

omit [Logged.Composes R] in
/-- A success of which nothing is told. -/
lemma within_telling_nothing {x : Action (Parser σ) α} (hx : Within Upkeep x) :
    Logged.Within R (.telling (ofSuccess fun _ _ _ => []) x) := by
  refine Logged.Within.telling fun r o r' h => ?_
  cases o <;> exact hheeds _ _ (hx h).heeds

include hresync

omit [Logged.Composes R] in
lemma turns_keeps : (turns : Journal Turn σ).Keeps R where
  books _ hupkeep := silently_of_upkeep hheeds hupkeep
  note e _ := silently_of_heeds hheeds (heeds_note e)
  report f := silently_of_upkeep hheeds (upkeep_reportFailure f)
  record start o := silently_of_heeds hheeds (heeds_record start o)
  enterRule rule follow := silently_of_upkeep hheeds (upkeep_enterRule rule follow)
  matchAny := within_telling_nothing hheeds upkeep_matchAny
  deleteUnwanted _ := within_telling_nothing hheeds (upkeep_deleteUnwanted _)
  insertMissing type := within_telling_nothing hheeds (upkeep_insertMissing type)
  resynchronize := hresync

/-- A run keeps by way of its turns what the turns themselves keep and what heeds the place that is
remembered, if it also keeps what is assigned. -/
lemma turns_within {p : Statement ParserInstruction → Prop}
    (hassign : ∀ i, p (.setLastError i) → ∀ r : Parser σ,
      R r [] { r with state := { r.state with lastErrorIndex := i } })
    {g : Grammar ParserInstruction} (hg : g.All p) (fuel : Nat) {block : Block ParserInstruction}
    (hblock : Block.All p block) :
    Logged.Within R (turns.run g fuel block : Logged Turn (Parser σ) Unit) := by
  have hkeeps := turns_keeps hheeds hresync
  refine LoggedDialect.run_within (R := R) ?_ hg fuel hblock
  constructor
  case decisions => rfl
  case lookahead => exact fun k => silently_of_upkeep hheeds (upkeep_lookahead k)
  case symbol => exact silently_of_upkeep hheeds upkeep_symbol
  case consume => exact silently_of_upkeep hheeds upkeep_consume
  case seek => exact fun i => silently_of_upkeep hheeds (upkeep_seek i)
  case note => exact fun e _ => silently_of_heeds hheeds (heeds_note e)
  case fail => exact fun kind expected => silently_of_upkeep hheeds (upkeep_fail kind expected)
  case begun => exact fun raise r => hheeds _ _ ⟨(Step.mark r.input).reaches, rfl⟩
  case ended => exact fun raise ending m r => hheeds _ _ ⟨reaches_endGuard r.input m ending, rfl⟩
  case cleared => exact fun r => hheeds _ _ ⟨Reaches.refl _, rfl⟩
  case apart => exact fun hx => (hkeeps.withRoot hx).discard
  case plain =>
    intro s hs hplain run fuel
    by_cases hheedful : s.Heedful
    · exact silently_of_heeds hheeds (heeds_plain hheedful hplain g run fuel)
    · cases s with
      | setLastError i => exact Within.update (hassign i hs)
      | _ => exact absurd trivial hheedful
  case perform => exact fun _ _ hrun => hkeeps.perform (fun rule => hrun _ (hg.body rule)) _

end

end Parser

end Lookahead
