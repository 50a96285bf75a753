import Lookahead.Proofs.Parser.Course
import Lookahead.Proofs.Walker.Course

/-!
# The rule stack is balanced

Whatever a parser or a walker runs, and whatever comes of it, the rules in progress are at every
moment those that were entered and not left.  So the path of rules in a failure is that of the calls
in which it was raised, and as the diagnostics get their paths from failures, it is the one that is
reported, even if that is done when the rules are left.

Programs may do anything but push and pop frames by hand.
-/

namespace Lookahead

open Action Recognizer

variable {S X ι α : Type}

/-- The manner of programs that do whatever they like, as long as they leave the stack of rules to
rule calls. -/
def Manner.free : Manner := ⟨True, True, True, False, True, True⟩

namespace Recognizer

variable {e : Option Fault} {r r' : Recognizer S X} {x : Action (Recognizer S X) α}

/-- A run from `r` to `r'` comes out with the fault `e`, and its course is the moments `ms`, at
which the failures `raised` were raised.  At every moment the rules in progress, on top of those
from before, are the ones that the deeds up to this moment have entered and not left. -/
structure Balanced (e : Option Fault) (r r' : Recognizer S X) (ms : List Moment)
    (raised : List Failure) : Prop where
  course : Course .free e r.state ms r'.state
  trace_eq : r'.trace.toList = r.trace.toList ++ eventsOf ms
  at_moment : ∀ before m after, ms = before ++ m :: after →
    ∃ l, Ledger.of (before ++ [m]) = some l ∧ l.Holds r.state.frames m
  /-- All rules that were entered are left at the end. -/
  ledger_eq : Ledger.of ms = some ⟨[], raised⟩
  frames_eq : r'.state.frames = r.state.frames
  failure_mem : ∀ f, e = some (.failed f) → f ∈ raised
  explains : r.state.Explains raised r'.state

lemma Tells.balanced (h : Tells .free e r r') : ∃ ms raised, Balanced e r r' ms raised := by
  obtain ⟨ms, hcourse, htrace⟩ := h
  obtain ⟨raised, haccords, -, hfailure, hexplains⟩ :=
    hcourse.accords id [] [] (List.nil_append r.state.frames).symm
  refine ⟨ms, raised, hcourse, htrace, ?_, haccords.foldlM_eq, hcourse.level.frames_eq id,
    hfailure, hexplains⟩
  rintro before m after rfl
  exact haccords.at

/-- Every run of `x` is balanced, whatever its outcome. -/
def Balances (x : Action (Recognizer S X) α) : Prop :=
  ∀ ⦃r : Recognizer S X⦄ ⦃o : Except Fault α⦄ ⦃r' : Recognizer S X⦄, x r = some (o, r') →
    ∃ ms raised, Balanced (Fault.ofOutcome o) r r' ms raised

lemma Told.balances (h : Told .free x) : Balances x := fun _ _ _ hrun => (h hrun).balanced

end Recognizer

variable {σ : Type} [TokenSource σ]

/-- **The rule stack is balanced.**  No statement of the grammar pushes or pops a frame by hand;
for the first part in each half, no statement of the block that is run does so either.  Runs and
rule calls are any, from any state, and may match, fail, misuse something or give up.

For parsers and for walkers alike, each of them is balanced (`Balances`): it has a course that
leads from the state before to the state after and leaves the events that were traced; at every
moment of it the rules in progress are those that were entered and not left; a failure carries
their names, outermost first, from where it is raised to the diagnostics that are made of it;
and afterwards the stack of rules is what it was. -/
theorem rule_stack_balanced (fuel : Nat) :
    (∀ g : Grammar ParserInstruction, g.All (¬ ·.Reframes) →
      (∀ block, Block.All (¬ ·.Reframes) block →
        Balances (Parser.run g fuel block : Action (Parser σ) Unit)) ∧
      ∀ rule follow, Balances (Parser.callRule g fuel rule follow : Action (Parser σ) _)) ∧
    ∀ g : Grammar WalkerInstruction, g.All (¬ ·.Reframes) →
      (∀ block, Block.All (¬ ·.Reframes) block → Balances (Walker.run g fuel block)) ∧
      ∀ rule, Balances (Walker.call (g.rule rule) (Walker.run g fuel (g.body rule))) := by
  constructor
  · intro g hg
    have htelling : Grammar.Telling (S := TokenStream σ) .free Parser.dialect g (¬ ·.Reframes) :=
      Parser.telling trivial hg (fun _ _ _ => trivial) (fun _ _ _ => trivial) (fun _ h => h)
        (fun _ _ _ => trivial) (fun _ _ => .inl trivial)
    refine ⟨fun block hblock => (Grammar.told_run htelling hg fuel hblock).balances, ?_⟩
    intro rule follow
    have hbody := Grammar.told_run htelling hg fuel (hg.body rule)
    exact (Parser.told_call trivial (g.rule rule) follow hbody).balances
  · intro g hg
    have htelling : Grammar.Telling .free Walker.dialect g (¬ ·.Reframes) :=
      Walker.telling hg (fun _ _ _ => trivial) (fun _ _ _ => trivial) (fun _ h => h)
        (fun _ _ _ => trivial) (fun _ _ => .inl trivial)
    refine ⟨fun block hblock => (Grammar.told_run htelling hg fuel hblock).balances, ?_⟩
    intro rule
    have hbody := Grammar.told_run htelling hg fuel (hg.body rule)
    exact (Walker.told_call (g.rule rule) hbody).balances

/-- A rule that calls another one, which fails. -/
def nested : Grammar ParserInstruction :=
  ⟨[("sum", [.perform (.call 1 .bare)]), ("product", [.earlyExit 0])], [], []⟩

/-- The outer rule is called where a token stands that may follow it. -/
def nestedCall : Block ParserInstruction := [.perform (.call 0 (.ofTypes [4]))]

/-- The failure in the inner rule is reported under both rules. -/
theorem rule_stack_balanced_nested :
    ∃ (r r' : Parser (List Token)) (ms : List Moment) (raised : List Failure),
      Parser.run nested 4 nestedCall r = some (.ok (), r') ∧ Balanced none r r' ms raised ∧
      r'.state.diagnostics ≠ [] ∧ ∃ f ∈ raised, f.context = ⟨["sum", "product"]⟩ := by
  have hnested : nested.All (¬ ·.Reframes) := by
    apply Grammar.all_of_mem
    all_goals simp [nested, Statement.all_iff, Statement.blocks, Statement.Reframes]
  have hblock : Block.All (¬ ·.Reframes) nestedCall := by
    simp [nestedCall, Statement.all_iff, Statement.blocks, Statement.Reframes]
  let r : Parser (List Token) :=
    .ofStream (TokenStream.ofSource [Token.ofText 4 "a"] 0 "") .standard (.tokens #[])
  have hend : ((Parser.run nested 4 nestedCall r).map fun result =>
      (result.1.toBool, result.2.state.diagnostics.map Diagnostic.context)) =
        some (true, [⟨["sum", "product"]⟩]) := by
    decide +kernel
  obtain ⟨⟨o, r'⟩, hrun, hvalues⟩ := Option.map_eq_some_iff.1 hend
  obtain ⟨hok, hpaths⟩ := Prod.mk.inj hvalues
  obtain ⟨ms, raised, hbalanced⟩ := ((rule_stack_balanced 4).1 nested hnested).1 _ hblock hrun
  rcases o with fault | ⟨⟩
  · cases hok
  · refine ⟨r, r', ms, raised, hrun, hbalanced, ?_, ?_⟩
    · intro hnone
      simp [hnone] at hpaths
    · obtain ⟨paths, heq, hexplained⟩ := hbalanced.explains
      have hnew : paths = [⟨["sum", "product"]⟩] := (hpaths.symm.trans heq).symm
      exact hexplained _ (hnew ▸ List.mem_singleton_self _)

end Lookahead
