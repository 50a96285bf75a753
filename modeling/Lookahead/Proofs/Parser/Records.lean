import Lookahead.Proofs.Grammar.Soundness
import Lookahead.Proofs.Parser.Recall
import Lookahead.Proofs.Parser.Upkeep

/-!
# The records of parsers

Parsers are `Faithful`: in a speculation, an instruction does to the input what its types say,
whatever root there is to add to, and a rule call runs the rule's body or goes on from the record.
-/

namespace Lookahead

open Action Cursor Recognizer
open Cursor.View (Ready)

namespace Parser

variable {σ : Type} [TokenSource σ] {α : Type}
  {c : Setting (TokenStream σ) TreeBuilder ParserInstruction} {m : Nat}
  {j : Footing (TokenStream σ)} {r r' : Parser σ}

/-! ## What is left alone -/

lemma Upkeep.undisturbed (h : Upkeep r r') : Undisturbed r r' :=
  ⟨h.reaches, ⟨[], by simp [h.trace_eq], by simp⟩, h.serves.memo_eq, h.serves.options_eq,
    h.serves.backtracking_eq⟩

lemma undisturbed_of_upkeep {x : Action (Parser σ) α} (hx : Within Upkeep x) :
    Within Undisturbed x :=
  hx.mono fun _ _ h => h.undisturbed

lemma undisturbed_resynchronize (report : Report) (f : Failure) :
    Within Undisturbed (resynchronize report f : Action (Parser σ) Unit) := by
  have hrecovery : Within Undisturbed (stepState State.recoverySet : Action (Parser σ) TokenSet) :=
    Within.step fun _ => undisturbed_state rfl rfl rfl
  have hskip (stopAt : TokenType → Bool) :
      Within Undisturbed (stepInput fun s => s.skipUntil stopAt s.bound : Action (Parser σ) Nat) :=
    undisturbed_stepInput fun s => (TokenStream.roams_skipUntil stopAt s.bound s).reaches
  have hahead : Within Undisturbed (skipAhead report f : Action (Parser σ) Unit) := by
    refine (Within.read _).bind fun here =>
      Within.bind (undisturbed_updateState ?_ ?_ ?_) fun _ => ?_
    case refine_4 =>
      refine hrecovery.bind fun recovery => undisturbed_symbol.bind fun first => ?_
      refine (hskip _).bind fun skipped => undisturbed_symbol.bind fun resume => ?_
      refine Within.ite (Within.bind (undisturbed_updateState ?_ ?_ ?_) fun _ => Within.fault _)
        (Within.ite (undisturbed_updateState ?_ ?_ ?_) (Within.pure _))
      all_goals exact fun _ => rfl
    all_goals exact fun _ => rfl
  rw [resynchronize_eq]
  refine (Within.read _).bind fun here => (Within.read _).bind fun last => ?_
  split
  · exact undisturbed_consume.bind fun _ => hahead
  · exact hahead

/-! ## In a speculation -/

/-- The rule that an instruction calls, if it calls one. -/
def called : ParserInstruction → Option Nat
  | .call rule _ => some rule
  | _ => none

/-- Two operations that do nothing in a speculation. -/
lemma echo_idle {x y : Action (Parser σ) α} (a : α) (hx : Within Upkeep x)
    (hidle : ∀ r : Parser σ, 0 < r.state.backtracking → x r = some (.ok a, r))
    (hidle' : ∀ r : Parser σ, 0 < r.state.backtracking → y r = some (.ok a, r)) :
    Echoing c m j x y :=
  Couples.of_eq (Paired.pure a) (fades_of_undisturbed (undisturbed_of_upkeep hx))
    fun _ _ h => ⟨hidle _ h.pos, hidle' _ h.pos'⟩

lemma echo_matchAny : Echoing c m j (matchAny : Action (Parser σ) Token) matchAny := by
  have hnote : Echoing c m j (noteMatch : Action (Parser σ) Unit) noteMatch :=
    echo_updateState (fun _ => rfl) (fun _ => rfl) fun _ => rfl
  exact echo_symbol.bind fun token => echo_consume.bind fun _ => hnote.bind fun _ => .pure token

lemma echo_matchPlainly (matches' : TokenType → Bool) :
    Echoing c m j (matchPlainly matches' : Action (Parser σ) Token) (matchPlainly matches') :=
  (echo_lookahead 1).bind fun _ => .ite echo_matchAny echo_giveUp

lemma echo_matchToken (type : TokenType) (follow : TokenSet) :
    Echoing c m j (matchToken type follow : Action (Parser σ) Token) (matchToken type follow) :=
  echo_of_eq (fades_of_undisturbed (undisturbed_of_upkeep (upkeep_matchToken type follow)))
    (fun _ => matchToken_of_backtracking type follow) (echo_matchPlainly _)

lemma echo_matchSet (set follow : TokenSet) :
    Echoing c m j (matchSet set follow : Action (Parser σ) Token) (matchSet set follow) :=
  echo_of_eq (fades_of_undisturbed (undisturbed_of_upkeep (upkeep_matchSet set follow)))
    (fun _ => matchSet_of_backtracking set follow) (echo_matchPlainly _)

lemma echo_addLeaf (root root' : Option NodeId) (token : Token) :
    Echoing c m j (addLeaf root token : Action (Parser σ) Unit) (addLeaf root' token) :=
  echo_idle () (upkeep_addLeaf root token) (fun _ hr => addLeaf_of_backtracking hr root token)
    fun _ hr => addLeaf_of_backtracking hr root' token

lemma echo_addRoot (root root' : Option NodeId) (token : Token) :
    Echoing c m j (addRoot root token : Action (Parser σ) (Option NodeId)) (addRoot root' token) :=
  echo_idle none (upkeep_addRoot root token) (fun _ hr => addRoot_of_backtracking hr root token)
    fun _ hr => addRoot_of_backtracking hr root' token

/-- An instruction that calls no rule. -/
lemma echo_perform {g : Grammar ParserInstruction} {i : ParserInstruction} (hi : called i = none)
    (run run' : Block ParserInstruction → Action (Parser σ) Unit) :
    Echoing c m j (perform g run i) (perform g run' i) := by
  have hmatched (token : Token) : Echoing c m j
      (note (.matchedToken token) : Action (Parser σ) Unit) (note (.matchedToken token)) :=
    echo_note fun _ h => by cases h
  have hleaf (token : Token) :
      Echoing c m j (do addLeaf (← currentRoot) token : Action (Parser σ) Unit)
        (do addLeaf (← currentRoot) token) :=
    echo_read_any fun root root' => echo_addLeaf root root' token
  cases i with
  | token type follow => exact (echo_matchToken type follow).bind fun token => hmatched token
  | child type follow =>
    refine echo_read_any fun root root' => Paired.bind ?_ fun token => hmatched token
    exact (echo_matchToken type follow).bind fun token =>
      (echo_addLeaf root root' token).bind fun _ => .pure token
  | root type follow =>
    refine echo_read_any fun root root' => Paired.bind ?_ fun node => ?_
    · exact (echo_matchToken type follow).bind fun token => echo_addRoot root root' token
    · exact (echo_updateOwn _ _).bind fun _ => echo_note fun _ h => by cases h
  | set types follow =>
    exact (echo_matchSet types follow).bind fun token => (hmatched token).bind fun _ => hleaf token
  | any => exact echo_matchAny.bind fun token => (hmatched token).bind fun _ => hleaf token
  | call rule follow => cases hi

lemma apart_eq (x : Action (Parser σ) Unit) :
    (dialect.apart x : Action (Parser σ) Unit) = (do
      let outer ← currentRoot
      setRoot none
      let outcome ← x.attempt
      setRoot outer
      .ofExcept outcome) := by
  funext r
  show (Function.const _ () <$> withRoot none x) r = _
  simp only [map_eq_bind, withRoot, currentRoot, setRoot, bind_apply, readOwn_apply,
    updateOwn_apply, attempt_apply]
  rcases x { r with own := { r.own with root := none } } with _ | ⟨_ | _, r₁⟩
  all_goals rfl

lemma echo_apart {x y : Action (Parser σ) Unit} (hxy : Echoing c m j x y) :
    Echoing c m j (dialect.apart x) (dialect.apart y) := by
  rw [apart_eq, apart_eq]
  refine echo_read_any fun outer outer' => (echo_updateOwn _ _).bind fun _ => ?_
  refine Couples.attempt_bind hxy fun o => ?_
  exact Couples.update_bind (fun _ => (undisturbed_own _).fades)
    (fun _ _ h => h.resting (undisturbed_own _) rfl rfl rfl rfl) (Couples.ofExcept fun _ _ h => h)

/-! ## Rule calls -/

/-- The setting in which a parser runs a grammar over an input. -/
def setting (g : Grammar ParserInstruction) (options : Options)
    (input : View.Input (TokenStream σ)) :
    Setting (TokenStream σ) TreeBuilder ParserInstruction :=
  ⟨dialect, g, options, input⟩

/-- A call is done with when its rule is: in a speculation there is no tree to add. -/
lemma perform_call {g : Grammar ParserInstruction} {n : Nat} {follow : TokenSet}
    {run : Block ParserInstruction → Action (Parser σ) Unit} {o : Except Fault Unit}
    (hcall : call (g.rule n) follow (run (g.body n)) r = some (o.map fun _ => none, r'))
    (hr' : 0 < r'.state.backtracking) : perform g run (.call n follow) r = some (o, r') := by
  rw [perform, bind_apply, hcall]
  cases o with
  | error fault => rfl
  | ok _ => exact addSubtree_of_backtracking hr' r'.own.root none

lemma opens_inside (rule : Rule) (follow : TokenSet) (r : Parser σ) :
    Opens r (inside rule follow r) := by
  refine ⟨⟨(Step.symbol r.input).reaches, ⟨[.entered rule.name (startOf rule r).index none], ?_, ?_⟩,
    rfl, rfl, rfl⟩, rfl⟩
  · exact Array.toList_push
  · simp

lemma departs_outside {rule : Rule} {root : Option NodeId} {o : Except Fault Unit} {r₁ : Parser σ}
    (hr : Ready r.input) (hr₁ : 0 < r₁.state.backtracking) :
    Departs rule.index (Cursor.index r.input) o r₁ (outside (startOf rule r) root o r₁) := by
  have hindex : (startOf rule r).index = Cursor.index r.input :=
    (Lawful.symbol (S := TokenStream σ) hr).spot_eq
  rw [← hindex]
  exact departs_recorded (startOf rule r) o { r₁.own with root } rule.name _ none hr₁

lemma calls_setting (g : Grammar ParserInstruction) (options : Options)
    (input : View.Input (TokenStream σ)) (n : Nat) (follow : TokenSet) :
    Calls (setting g options input) (.call n follow) n := by
  constructor
  case anew =>
    intro r hready hr hunrecorded
    have hmissing : Missing (g.rule n) r := fun hmemoizing =>
      hunrecorded (Bool.and_eq_true_iff.1 hmemoizing).2
    refine ⟨inside (g.rule n) follow r, opens_inside _ _ r, fun run => ⟨?_, ?_⟩⟩
    · intro o r' hrun
      rcases bind_eq_some.1 hrun with ⟨node, r₁, hcall, -⟩ | ⟨e, hcall, -⟩
      · exact body_of_call hr hmissing hcall
      · exact body_of_call hr hmissing hcall
    · intro o r₁ hbody hr₁
      have hdeparts : Departs (g.rule n).index (Cursor.index r.input) o r₁
          (outside (startOf (g.rule n) r) r.own.root o r₁) := departs_outside hready hr₁
      exact ⟨_, perform_call (call_of_missing hr hmissing hbody hr₁)
        (hdeparts.backtracking_eq.symm ▸ hr₁), hdeparts⟩
  case failed =>
    intro r hr hmemoize hentry run
    have hcall : call (g.rule n) follow (run (g.body n)) r = _ :=
      call_of_failed follow _ (memoizing_of_speculating hr hmemoize) hentry
    exact ⟨_, perform_call (o := .error .backtracking) hcall hr,
      undisturbed_failed (fun _ h => by cases h), rfl⟩
  case parsed =>
    intro r stop hr hmemoize hentry run
    have hcall : call (g.rule n) follow (run (g.body n)) r = _ :=
      call_of_parsed follow _ (memoizing_of_speculating hr hmemoize) hentry
    exact ⟨_, perform_call (o := .ok ()) hcall hr,
      undisturbed_parsed (fun _ h => by cases h) stop, rfl⟩

/-- What is kept by everything that leaves the records alone, and by making records. -/
lemma perform_of_undisturbed {R : Parser σ → Parser σ → Prop} [IsPreorder (Parser σ) R]
    (h : ∀ r r', Undisturbed r r' → R r r')
    (hrecord : ∀ {β : Type} (start : RuleStart) (o : Except Fault β),
      Within R (record start o : Action (Parser σ) Unit))
    {g : Grammar ParserInstruction} {run : Block ParserInstruction → Action (Parser σ) Unit}
    (hrun : ∀ n, Within R (run (g.body n))) (i : ParserInstruction) :
    Within R (perform g run i) :=
  perform_of_upkeep (fun hx => (undisturbed_of_upkeep hx).mono h)
    (fun _ he => (undisturbed_note he).mono h) (fun start o => hrecord start o)
    (fun report f => (undisturbed_resynchronize report f).mono h) hrun i

/-- The instructions of parser grammars are as they have to be. -/
lemma faithful_setting (g : Grammar ParserInstruction) (options : Options)
    (input : View.Input (TokenStream σ)) : Faithful (setting g options input) called where
  apart := echo_apart
  apart_within h hx := (withRoot_within (fun _ =>
    (undisturbed_of_upkeep upkeep_updateOwn).mono h) hx).discard
  perform hi := echo_perform hi
  perform_within h hrecord hrun := perform_of_undisturbed h hrecord hrun
  call {i n} hi := by
    cases i with
    | call rule follow =>
      obtain rfl := Option.some.inj hi
      exact calls_setting g options input rule follow
    | token | child | root | set | any => cases hi

end Parser

end Lookahead
