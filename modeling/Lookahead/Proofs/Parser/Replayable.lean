import Lookahead.Proofs.Grammar.Coupling
import Lookahead.Proofs.Parser.Silence

/-!
# What can be replayed

A recorded outcome of a rule says whether the rule matched and where it stopped, and nothing else.
It can stand for a run of the rule only if that run would have left nothing else behind.  This
module says what that asks of a program and of a run.

* No statement works on the state of the recognizer or on marks of its own, and what is matched at a
  raised depth is gone back on (`Statement.Repeatable`).
* The answer of a predicate depends on the place only (`Grammar.Positional`).
* No match ends a recovery during speculation.  `watchful` runs a program as `dialect` does, but
  does not come to an end if that happens.
* No more speculations are nested than may be, and no statement goes on from a speculative match
  that failed or from a misuse (`Fair`).
-/

namespace Lookahead

open Action Recognizer

/-- A statement that leaves nothing behind in the state that a rule call would have to restore. -/
def Statement.Repeatable {ι : Type} : Statement ι → Prop
  | .mark | .rewind _ | .release _ | .setBacktracking _ | .setLastError _ | .pushFrame _ _
  | .popFrame => False
  | .speculating raise ending _ => raise = true → ending ≠ .keep
  | _ => True

lemma Statement.Repeatable.discreet {ι : Type} (s : Statement ι) (h : s.Repeatable) :
    s.Discreet := by
  cases s <;> first | exact trivial | exact h

/-- The predicates do not ask how deep the recognizer is speculating, so that they depend on the
place alone. -/
def Grammar.Positional {ι : Type} (g : Grammar ι) : Prop :=
  ∀ id least, g.predicate? id ≠ some (.depth least)

/-- An event that does not tell that something was speculated deeper than `limit`, or that it was
gone on from a speculative match that failed or from a misuse. -/
def Event.Fair (limit : Nat) : Event → Prop
  | .speculated _ _ _ depth => depth ≤ limit
  | .attempted (some fault) => ∃ failure, fault = .failed failure
  | _ => True

instance (limit : Nat) : DecidablePred (Event.Fair limit)
  | .speculated _ _ _ depth => inferInstanceAs (Decidable (depth ≤ limit))
  | .attempted (some (.failed failure)) => isTrue ⟨failure, rfl⟩
  | .attempted (some .backtracking) => isFalse fun ⟨_, h⟩ => by cases h
  | .attempted (some (.misuse _)) => isFalse fun ⟨_, h⟩ => by cases h
  | .predicted .. | .tried _ | .evaluated .. | .matchedToken _ | .matchedNode _ | .rooted _
  | .entered .. | .exited .. | .attempted none | .observed _ | .emitted _ | .shown .. =>
    isTrue trivial

namespace Parser

variable {σ : Type} [TokenSource σ] {α : Type} {limit : Nat}

/-! ## Fair runs -/

/-- Everything that was traced is fair. -/
def Fair (limit : Nat) (r : Parser σ) : Prop := ∀ e ∈ r.trace, e.Fair limit

instance (r : Parser σ) : Decidable (Fair limit r) :=
  inferInstanceAs (Decidable (∀ e ∈ r.trace, e.Fair limit))

omit [TokenSource σ] in
lemma fair_push {e : Event} {r : Parser σ} :
    Fair limit { r with trace := r.trace.push e } ↔ Fair limit r ∧ e.Fair limit := by
  simp only [Fair, Array.mem_push, or_imp, forall_and, forall_eq]

omit [TokenSource σ] in
lemma fades_push {e : Event} {r : Parser σ} :
    Fades (Fair limit) r { r with trace := r.trace.push e } := fun h => (fair_push.1 h).1

omit [TokenSource σ] in
lemma fades_of_trace_eq {r r' : Parser σ} (h : r'.trace = r.trace) : Fades (Fair limit) r r' := by
  intro hfair
  rw [Fair, h] at hfair
  exact hfair

lemma fades_of_onward {x : Action (Parser σ) α} (h : Within Onward x) :
    Within (Fades (Fair limit)) x :=
  h.mono fun _ _ h => fades_of_trace_eq h.trace_eq

/-! ## Watchful runs -/

/-- Do something, and do not come to an end if it ends a recovery during speculation. -/
def watched (x : Action (Parser σ) α) : Action (Parser σ) α := fun r =>
  (x r).filter fun (_, r') =>
    r.state.backtracking = 0 || r'.state.recovering == r.state.recovering

omit [TokenSource σ] in
lemma watched_eq_some {x : Action (Parser σ) α} {o : Except Fault α} {r r' : Parser σ} :
    watched x r = some (o, r') ↔ x r = some (o, r') ∧
      (0 < r.state.backtracking → r'.state.recovering = r.state.recovering) := by
  rw [watched, Option.filter_eq_some_iff]
  simp [Nat.pos_iff_ne_zero, Classical.or_iff_not_imp_left]

omit [TokenSource σ] in
lemma within_watched {R : Parser σ → Parser σ → Prop} {x : Action (Parser σ) α}
    (h : Within R x) : Within R (watched x) :=
  fun _ _ _ hrun => h (watched_eq_some.1 hrun).1

omit [TokenSource σ] in
lemma couples_watched {F : Parser σ → Prop} {P : Parser σ → Parser σ → Prop}
    {Q : Except Fault α → Parser σ → Parser σ → Prop} {x y : Action (Parser σ) α}
    (h : Couples F P x y Q) : Couples F P (watched x) y Q :=
  ⟨within_watched h.fades, fun _ _ _ hrun => h.follows (watched_eq_some.1 hrun).1⟩

/-- The instructions of parser grammars, for runs in which no recovery ends during speculation. -/
def watchful : Dialect (TokenStream σ) TreeBuilder ParserInstruction where
  perform g run i := watched (perform g run i)
  apart := dialect.apart

/-- What programs keep, their watchful runs keep. -/
lemma kept_watchful {g : Grammar ParserInstruction} {p : Statement ParserInstruction → Prop}
    {R : Parser σ → Parser σ → Prop} (h : Grammar.Kept (S := TokenStream σ) dialect g p R) :
    Grammar.Kept (S := TokenStream σ) watchful g p R where
  lookahead := h.lookahead
  symbol := h.symbol
  consume := h.consume
  seek := h.seek
  note := h.note
  fail := h.fail
  synpred := h.synpred
  speculating := h.speculating
  apart := h.apart
  plain {s} hs hplain run fuel := by
    have hsame : Grammar.execute watchful g run fuel s = Grammar.execute dialect g run fuel s := by
      cases s <;> first | rfl | exact hplain.elim
    rw [hsame]
    exact h.plain hs hplain run fuel
  perform hi _ hrun := within_watched (h.perform hi hrun)

lemma quiet_watchful {g : Grammar ParserInstruction} (hg : g.All Statement.Repeatable) (fuel : Nat)
    {block : Block ParserInstruction} (hblock : Block.All Statement.Repeatable block) :
    Within Quiet (g.run watchful fuel block : Action (Parser σ) Unit) := by
  have hdiscreet := hg.mono Statement.Repeatable.discreet
  exact Grammar.run_within (kept_watchful (quiet_kept hdiscreet)) hdiscreet fuel
    (hblock.mono Statement.Repeatable.discreet)

end Parser

end Lookahead
