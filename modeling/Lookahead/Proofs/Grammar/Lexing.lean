import Lookahead.Grammar.Lexing
import Lookahead.Proofs.Grammar.Logged
import Lookahead.Proofs.Lexer.Work

/-!
# The work of lexer grammars

Of the instructions of a lexer grammar only `beginToken`, `setText` and `emit` have something to
log.  `milestones` is the logged dialect that does so, with everything that is tried and taken back.
The log of a program tells how it has drafted its tokens, whatever the program does besides
(`drafts_run`).

A program that sets neither the cursor nor the depth of backtracking, pops no marks, and leaves it to
the lexer to begin and make tokens only ever logs texts (`drafting_run`), and does not fall back,
however it speculates and predicts (`working_run`).  Speculation is the reason that the latter takes
two relations.  What is tried may end anywhere, and only as a whole it ends where it began: it leaves
its mark open (`Tame`), and so it returns.
-/

namespace Lookahead

open Action Recognizer
open Cursor.View (Ready)

/-- An instruction that is no milestone in the making of a token, and calls no rule. -/
def LexerInstruction.Matches : LexerInstruction → Prop
  | .emit | .beginToken | .setText _ | .call _ => False
  | _ => True

/-- A statement of a program that only goes forward and speculates, and leaves it to the lexer to
begin its token and to make it. -/
def Statement.Onward : Statement LexerInstruction → Prop
  | .rewind _ | .release _ | .seek _ | .setBacktracking _ => False
  | .perform .emit | .perform .beginToken => False
  | _ => True

lemma Statement.Onward.keeping {s : Statement LexerInstruction} (h : s.Onward) : s.Keeping := by
  cases s <;> first | exact trivial | exact h

namespace Lexer

variable {α : Type} {l l' : Lexer}

/-! ## The log -/

/-- Carry out an instruction, and log whether it begins or makes a token or sets its text. -/
def logging (g : Grammar LexerInstruction)
    (run : Block LexerInstruction → Logged Milestone Lexer Unit) :
    LexerInstruction → Logged Milestone Lexer Unit
  | .emit => do
    let token ← .telling (fun l _ _ => [.makes l]) emit
    .silent (note (.emitted token))
  | .beginToken => .telling (fun l _ _ => [.begins l]) beginToken
  | .setText text => .telling (fun l _ _ => [.sets l text]) (setText text)
  | .call rule => run (g.body rule)
  | i => .silent (perform g (fun b => (run b).forget) i)

lemma forget_logging (g : Grammar LexerInstruction)
    (run : Block LexerInstruction → Logged Milestone Lexer Unit) (i : LexerInstruction) :
    (logging g run i).forget = perform g (fun b => (run b).forget) i := by
  cases i with
  | emit => simp only [logging, perform, Logged.forget_bind, Logged.forget_telling,
      Logged.forget_silent]
  | beginToken | setText => rw [logging, perform, Logged.forget_telling]
  | call => rfl
  | _ => exact Logged.forget_silent _

/-- The instructions of lexer grammars with their milestones. What is only tried counts as well. -/
def milestones : LoggedDialect Milestone dialect where
  perform := logging
  apart body := body
  decisions := id
  forget_perform := forget_logging
  forget_apart _ := rfl

/-- Run a block of a lexer grammar, and log where tokens were begun and made and texts set. -/
def runLogged (g : Grammar LexerInstruction) (fuel : Nat) (block : Block LexerInstruction) :
    Logged Milestone Lexer Unit :=
  milestones.run g fuel block

/-- **Forgetting the milestones gives back the run**, so that they are milestones of the run
itself. -/
theorem forget_runLogged (g : Grammar LexerInstruction) (fuel : Nat)
    (block : Block LexerInstruction) : (runLogged g fuel block).forget = run g fuel block :=
  milestones.forget_run g fuel block

/-! ## Operations -/

/-- A relation that is kept by all that matching does. -/
structure Matching (R : Lexer → Lexer → Prop) : Prop where
  lookahead (k : Int) : Within R (lookahead k)
  consume : Within R consume
  fail {α : Type} (kind : FailureKind) (expected : Option TokenSet) :
    Within R (fail kind expected : Action Lexer α)
  note (e : Event) : Within R (note e)
  /-- The draft is described further, but for its text. -/
  draft {f : TokenDraft → TokenDraft}
    (hf : ∀ d, (f d).start = d.start ∧ (f d).text = d.text ∧ (f d).emitted = d.emitted) :
    Within R (updateOwn f)

namespace Matching

variable {R : Lexer → Lexer → Prop} [IsPreorder Lexer R] (h : Matching R)

include h

lemma matchChar (c : Char) : Within R (matchChar c) :=
  (h.lookahead 1).bind fun _ => Within.ite h.consume (h.fail _ _)

lemma matchChars (cs : List Char) : Within R (matchChars cs) := by
  induction cs with
  | nil => exact Within.pure ()
  | cons c rest ih => exact (h.matchChar c).bind fun _ => ih

lemma matchAny : Within R matchAny :=
  (h.lookahead 1).bind fun _ => Within.ite (h.fail _ _) h.consume

lemma perform {g : Grammar LexerInstruction} {i : LexerInstruction} (hi : i.Matches)
    (run : Block LexerInstruction → Action Lexer Unit) : Within R (Lexer.perform g run i) := by
  cases i with
  | char c => exact h.matchChar c
  | range low high => exact (h.lookahead 1).bind fun _ => Within.ite h.consume (h.fail _ _)
  | chars cs => exact h.matchChars cs
  | set types => exact (h.lookahead 1).bind fun _ => Within.ite h.consume (h.fail _ _)
  | any => exact h.matchAny
  | noViable description => exact h.fail _ _
  | setType | setChannel | skip =>
    simp only [Lexer.perform, setType, setChannel, skip]
    exact h.draft fun _ => ⟨rfl, rfl, rfl⟩
  | observeDraft => exact (Within.read _).bind fun _ => h.note _
  | emit | beginToken | setText | call => exact hi.elim

/-- The instructions of a program that leaves its token to the lexer. -/
lemma onward {g : Grammar LexerInstruction} {i : LexerInstruction}
    (hi : Statement.Onward (.perform i)) {run : Block LexerInstruction → Action Lexer Unit}
    (hrun : ∀ rule, Within R (run (g.body rule))) (htext : ∀ text, Within R (setText text)) :
    Within R (Lexer.perform g run i) := by
  cases i with
  | call rule => exact hrun rule
  | setText text => exact htext text
  | emit | beginToken => exact hi.elim
  | _ => exact h.perform (by trivial) run

end Matching

/-! ## Work aside -/

/-- Work aside that leaves the cursor where it is. -/
structure Still (l l' : Lexer) : Prop extends Aside l l' where
  place_eq : l'.input.place = l.input.place

instance : IsPreorder Lexer Still where
  refl l := ⟨refl_of Aside l, rfl⟩
  trans _ _ _ h h' := ⟨trans_of Aside h.toAside h'.toAside, h'.place_eq.trans h.place_eq⟩

lemma still_stepInput {f : CharacterStream → α × CharacterStream}
    (hf : ∀ i, Cursor.Step i (f i).2) (hplace : ∀ i, (f i).2.place = i.place) :
    Within Still (stepInput f : Action Lexer α) := by
  unfold stepInput
  exact Within.step fun l => ⟨⟨(hf l.input).reaches, .refl _, rfl, rfl, rfl⟩, hplace l.input⟩

lemma still_updateState {f : State → State} (hf : ∀ s : State, s.Hushed (f s)) :
    Within Still (updateState f : Action Lexer Unit) := by
  unfold updateState
  exact Within.update fun l => ⟨⟨.refl _, hf l.state, rfl, rfl, rfl⟩, rfl⟩

lemma still_lookahead (k : Int) : Within Still (lookahead k : Action Lexer TokenType) :=
  still_stepInput (fun i => .lookahead i k) fun _ => rfl

lemma still_symbol : Within Still (symbol : Action Lexer Token) :=
  still_stepInput .symbol fun _ => rfl

lemma still_note (e : Event) : Within Still (note e : Action Lexer Unit) :=
  Within.update fun _ => ⟨⟨.refl _, .refl _, rfl, rfl, rfl⟩, rfl⟩

lemma still_draft {f : TokenDraft → TokenDraft}
    (hf : ∀ d, (f d).start = d.start ∧ (f d).text = d.text ∧ (f d).emitted = d.emitted) :
    Within Still (updateOwn f : Action Lexer Unit) :=
  Within.update fun l =>
    ⟨⟨.refl _, .refl _, (hf l.own).1, (hf l.own).2.1, (hf l.own).2.2⟩, rfl⟩

lemma still_fail (kind : FailureKind) (expected : Option TokenSet) :
    Within Still (fail kind expected : Action Lexer α) := by
  unfold Recognizer.fail giveUp failureHere stepState
  refine (Within.read _).bind fun depth => Within.ite ?_ ?_
  · refine Within.bind (still_updateState ?_) fun _ => Within.fault _
    exact fun s => ⟨rfl, rfl, rfl, rfl, id⟩
  · refine Within.bind ?_ fun f => Within.fault _
    refine still_symbol.bind fun found => (Within.read _).bind fun index => ?_
    exact Within.step fun l => ⟨⟨.refl _, ⟨rfl, rfl, rfl, rfl, id⟩, rfl, rfl, rfl⟩, rfl⟩

/-- The plain statements that do not operate on the cursor. -/
lemma still_plain {s : Statement LexerInstruction} (hplain : s.Plain)
    (hconsume : s ≠ .consume) (hseek : ∀ i, s ≠ .seek i) (hrewind : ∀ i, s ≠ .rewind i)
    (hrelease : ∀ i, s ≠ .release i) (g : Grammar LexerInstruction)
    (run : Block LexerInstruction → Action Lexer Unit) (fuel : Nat) :
    Within Still (Grammar.execute dialect g run fuel s) := by
  have hupdate (f : State → State) (hf : ∀ s : State, s.Hushed (f s)) :
      Within Still (updateState f : Action Lexer Unit) := still_updateState hf
  cases s with
  | mark =>
    refine (still_stepInput .mark fun _ => rfl).bind fun m => ?_
    exact Within.update fun _ => ⟨⟨.refl _, .refl _, rfl, rfl, rfl⟩, rfl⟩
  | setBacktracking depth =>
    exact hupdate (fun s => { s with backtracking := depth }) fun s => ⟨rfl, rfl, rfl, rfl, id⟩
  | setLastError i =>
    exact hupdate (fun s => { s with lastErrorIndex := i }) fun s => ⟨rfl, rfl, rfl, rfl, id⟩
  | pushFrame rule follow =>
    refine (Within.read _).bind fun index => still_updateState ?_
    exact fun s => ⟨rfl, rfl, rfl, rfl, id⟩
  | popFrame => exact hupdate State.popFrame fun s => ⟨rfl, rfl, rfl, rfl, id⟩
  | observe =>
    refine Within.bind ?_ fun seen => still_note _
    exact (Within.read _).bind fun index => (still_lookahead 1).bind fun type => Within.read _
  | consume => exact absurd rfl hconsume
  | seek i => exact absurd rfl (hseek i)
  | rewind i => exact absurd rfl (hrewind i)
  | release i => exact absurd rfl (hrelease i)
  | ifHolds | whileHolds | untilHolds | oneOrMore | switch | predict | loop | require | synpred
  | speculating | attempt | earlyExit | perform => exact hplain.elim

lemma aside_of_still {x : Action Lexer α} (hx : Within Still x) : Within Aside x :=
  hx.mono fun _ _ => Still.toAside

lemma aside_consume : Within Aside (consume : Action Lexer Unit) := by
  unfold Recognizer.consume
  exact Within.update fun l => ⟨(Cursor.Step.consume l.input).reaches, .refl _, rfl, rfl, rfl⟩

lemma aside_seek (i : Nat) : Within Aside (seek i : Action Lexer Unit) := by
  unfold Recognizer.seek
  exact Within.update fun l => ⟨(Cursor.Step.seek l.input i).reaches, .refl _, rfl, rfl, rfl⟩

lemma aside_tryInput {f : CharacterStream → Except Misuse CharacterStream}
    (hf : ∀ i i', f i = .ok i' → Cursor.Reaches i i') :
    Within Aside (tryInput f : Action Lexer Unit) := by
  intro l o l' h
  unfold tryInput at h
  split at h
  · rename_i input hinput
    obtain ⟨-, rfl⟩ := Prod.mk.inj (Option.some.inj h)
    exact ⟨hf _ _ hinput, .refl _, rfl, rfl, rfl⟩
  · obtain ⟨-, rfl⟩ := Prod.mk.inj (Option.some.inj h)
    exact refl_of Aside l

lemma aside_plain {s : Statement LexerInstruction} (hplain : s.Plain)
    (g : Grammar LexerInstruction) (run : Block LexerInstruction → Action Lexer Unit)
    (fuel : Nat) : Within Aside (Grammar.execute dialect g run fuel s) := by
  cases s with
  | consume => exact aside_consume
  | seek i => exact aside_seek i
  | rewind i =>
    exact (Within.read _).bind fun m =>
      aside_tryInput fun _ _ h => (Cursor.Step.rewind h).reaches
  | release i =>
    exact (Within.read _).bind fun m =>
      aside_tryInput fun _ _ h => (Cursor.Step.release h).reaches
  | _ => exact aside_of_still (still_plain hplain (by simp) (by simp) (by simp) (by simp) g run fuel)

lemma aside_matching : Matching Aside where
  lookahead k := aside_of_still (still_lookahead k)
  consume := aside_consume
  fail kind expected := aside_of_still (still_fail kind expected)
  note e := aside_of_still (still_note e)
  draft hf := aside_of_still (still_draft hf)

/-! ## Drafts -/

lemma drafts_logging {g : Grammar LexerInstruction}
    {run : Block LexerInstruction → Logged Milestone Lexer Unit}
    (hrun : ∀ rule, Logged.Within Drafts (run (g.body rule))) (i : LexerInstruction) :
    Logged.Within Drafts (logging g run i) := by
  cases i with
  | emit =>
    have hmakes : Logged.Within Drafts (.telling (fun l _ _ => [.makes l]) emit) := by
      refine Logged.Within.telling fun l o l' h => ?_
      obtain ⟨-, rfl⟩ := Prod.mk.inj (Option.some.inj h)
      exact drafts_milestone (.makes l)
    exact hmakes.bind fun token => Logged.Within.silent (aside_matching.note _)
  | beginToken =>
    rw [logging]
    refine Logged.Within.telling fun l o l' h => ?_
    obtain ⟨-, rfl⟩ := Prod.mk.inj (Option.some.inj h)
    exact drafts_milestone (.begins l)
  | setText text =>
    rw [logging]
    refine Logged.Within.telling fun l o l' h => ?_
    obtain ⟨-, rfl⟩ := Prod.mk.inj (Option.some.inj h)
    exact drafts_milestone (.sets l text)
  | call rule => exact hrun rule
  | _ => exact Logged.Within.silent (aside_matching.perform (by trivial) _)

/-- **The log of a program tells how it has drafted its tokens**: between two of its milestones, and
before the first and behind the last, the draft's beginning, text and token stay. -/
theorem drafts_run (g : Grammar LexerInstruction) (fuel : Nat) (block : Block LexerInstruction) :
    Logged.Within Drafts (runLogged g fuel block) := by
  refine LoggedDialect.run_within (p := fun _ => True) ?_ g.all_true fuel fun s _ => s.all_true
  constructor
  case decisions => rfl
  case lookahead => exact aside_matching.lookahead
  case symbol => exact aside_of_still still_symbol
  case consume => exact aside_consume
  case seek => exact aside_seek
  case note => exact fun e _ => aside_matching.note e
  case fail => exact aside_matching.fail
  case begun =>
    exact fun raise l => ⟨(Cursor.Step.mark l.input).reaches, State.hushed_deeper l.state raise,
      rfl, rfl, rfl⟩
  case ended =>
    exact fun raise ending m l => ⟨Cursor.reaches_endGuard l.input m ending,
      State.hushed_shallower l.state raise, rfl, rfl, rfl⟩
  case cleared => exact fun l => ⟨.refl _, ⟨rfl, rfl, rfl, rfl, id⟩, rfl, rfl, rfl⟩
  case apart => exact id
  case plain => exact fun _ hplain run fuel => aside_plain hplain g run fuel
  case perform => exact fun _ _ hrun => drafts_logging (fun rule => hrun _ fun s _ => s.all_true) _

/-- Nothing was logged but texts that were set. -/
def OnlySets (_ : Lexer) (log : List Milestone) (_ : Lexer) : Prop :=
  ∀ m ∈ log, ∃ l text, m = .sets l text

instance : Logged.Composes OnlySets where
  refl _ := by simp [OnlySets]
  trans h h' := List.forall_mem_append.2 ⟨h, h'⟩

lemma OnlySets.climbs {log : List Milestone} {i j : Nat} (h : OnlySets l log l') (hle : i ≤ j) :
    Climbs i log j := by
  induction log with
  | nil => exact hle
  | cons m rest ih =>
    obtain ⟨⟨k, text, rfl⟩, hrest⟩ := List.forall_mem_cons.1 h
    exact ih hrest

lemma onlySets_silent {x : Action Lexer α} : Within (Logged.Silently OnlySets) x :=
  fun l _ _ _ => Logged.Composes.refl (R := OnlySets) l

lemma onlySets_logging {g : Grammar LexerInstruction} {i : LexerInstruction}
    (hi : Statement.Onward (.perform i))
    {run : Block LexerInstruction → Logged Milestone Lexer Unit}
    (hrun : ∀ rule, Logged.Within OnlySets (run (g.body rule))) :
    Logged.Within OnlySets (logging g run i) := by
  cases i with
  | call rule => exact hrun rule
  | emit | beginToken => exact hi.elim
  | setText text =>
    rw [logging]
    refine Logged.Within.telling fun l o l' h m hm => ?_
    exact ⟨l, text, List.mem_singleton.1 hm⟩
  | _ => exact Logged.Within.silent onlySets_silent

/-- A program that leaves its token to the lexer logs nothing but texts. -/
lemma drafting_run {g : Grammar LexerInstruction} (hg : g.All Statement.Onward) (fuel : Nat)
    {block : Block LexerInstruction} (hblock : Block.All Statement.Onward block) :
    Logged.Within OnlySets (runLogged g fuel block) := by
  refine LoggedDialect.run_within (p := Statement.Onward) ?_ hg fuel hblock
  constructor
  case decisions => rfl
  case lookahead | symbol | consume | seek | note | fail | plain => intros; exact onlySets_silent
  case begun => exact fun _ r => Logged.Composes.refl (R := OnlySets) r
  case ended => exact fun _ _ _ r => Logged.Composes.refl (R := OnlySets) r
  case cleared => exact fun r => Logged.Composes.refl (R := OnlySets) r
  case apart => exact id
  case perform => exact fun hi _ hrun => onlySets_logging hi fun rule => hrun _ (hg.body rule)

/-! ## Tame work -/

lemma tame_matching : Matching Tame where
  lookahead := Tame.lookahead
  consume := Tame.consume
  fail := Tame.fail
  note _ := Within.update fun _ => Tame.of_input_eq rfl rfl
  draft _ := Within.update fun _ => Tame.of_input_eq rfl rfl

lemma tame_kept {g : Grammar LexerInstruction} (hg : g.All Statement.Onward) :
    g.Kept dialect Statement.Onward Tame where
  lookahead := Tame.lookahead
  symbol := Tame.symbol
  consume := Tame.consume
  seek := Tame.seek
  note e _ := tame_matching.note e
  fail := Tame.fail
  synpred := Tame.synpred
  speculating := Tame.speculating
  apart hx := hx
  plain hs hplain run fuel := Grammar.tame_plain hs.keeping hplain dialect g run fuel
  perform hi _ hrun := tame_matching.onward hi (fun rule => hrun _ (hg.body rule)) fun _ =>
    Within.update fun _ => Tame.of_input_eq rfl rfl

/-! ## Work that does not fall back -/

/-- Unless the input was unfit to begin with, it is fit, and the cursor is not in front of where it
was. -/
def Working (l l' : Lexer) : Prop :=
  Ready l.input → Ready l'.input ∧ l.input.place.index ≤ l'.input.place.index

instance : IsPreorder Lexer Working where
  refl _ hl := ⟨hl, Nat.le_refl _⟩
  trans _ _ _ h h' hl :=
    ⟨(h' (h hl).1).1, Nat.le_trans (h hl).2 (h' (h hl).1).2⟩

lemma working_of_still {x : Action Lexer α} (hx : Within Still x) : Within Working x := by
  intro l o l' h hl
  have hstill := hx h
  exact ⟨(hstill.reaches.ready hl).1, hstill.place_eq ▸ Nat.le_refl _⟩

lemma working_consume : Within Working (consume : Action Lexer Unit) := by
  intro l o l' h hl
  obtain ⟨hready, -⟩ := (aside_consume h).reaches.ready hl
  obtain ⟨-, rfl⟩ := Prod.mk.inj (Option.some.inj h)
  refine ⟨hready, ?_⟩
  have hplace := CharacterStream.step_index hl.1
  show l.input.place.index ≤ (CharacterStream.step l.input.source l.input.place).index
  rw [hplace]
  exact Nat.le_min.2 ⟨Nat.le_succ _, hl.1⟩

/-- A speculation that is taken back ends where it began. -/
lemma working_speculating_back {raise : Bool} {ending : Cursor.GuardEnd} (hending : ending ≠ .keep)
    {x : Action Lexer α} (htame : Within Tame x) : Within Working (speculating raise ending x) := by
  intro l o l' h hl
  obtain ⟨o₁, l₁, hrun, hend⟩ := speculating_eq_some.1 h
  obtain ⟨i, hi⟩ : ∃ i, i = (Cursor.endGuard l₁.input (Cursor.mark l.input).1 ending).2 :=
    ⟨_, rfl⟩
  rw [concluded, ← hi] at hend
  obtain ⟨-, rfl⟩ := Prod.mk.inj hend
  obtain ⟨hunder, -⟩ := (htame hrun).under hl
  obtain ⟨i', hrestore, hback⟩ := hunder.returned hl
  -- The mark is still open, so that either way of going back does.
  have hsame : i = i' := by
    rcases hrewind : Cursor.rewind l₁.input (Cursor.mark l.input).1 with cause | back
    · rw [Cursor.endGuard_restore_error hrewind] at hrestore
      cases hrestore
    · rw [Cursor.endGuard_back (by decide) hrewind] at hrestore
      rw [hi, Cursor.endGuard_back hending hrewind]
      exact (Prod.mk.inj hrestore).2
  subst hsame
  exact ⟨hback.ready, (congrArg Place.index hback.spot_eq).ge⟩

lemma place_endGuard_keep (s : CharacterStream) (m : Mark) :
    (Cursor.endGuard s m .keep).2.place.index = s.place.index := by
  rcases hrelease : Cursor.release s m with cause | s'
  · rw [Cursor.endGuard_keep_error hrelease]
  · rw [Cursor.endGuard_keep hrelease]
    obtain ⟨marks, -, rfl⟩ := Cursor.map_eq_ok.1 hrelease
    rfl

/-- A speculation that stays goes on from where its body ends. -/
lemma working_speculating_keep {raise : Bool} {x : Action Lexer α} (hx : Within Working x) :
    Within Working (speculating raise .keep x) := by
  intro l o l' h hl
  obtain ⟨o₁, l₁, hrun, hend⟩ := speculating_eq_some.1 h
  obtain ⟨i, hi⟩ : ∃ i, i = (Cursor.endGuard l₁.input (Cursor.mark l.input).1 .keep).2 :=
    ⟨_, rfl⟩
  rw [concluded, ← hi] at hend
  obtain ⟨-, rfl⟩ := Prod.mk.inj hend
  obtain ⟨hready, hle⟩ := hx hrun ((Cursor.Step.mark l.input).reaches.ready hl).1
  have hkept : i.place.index = l₁.input.place.index := hi ▸ place_endGuard_keep l₁.input _
  have hfit : Ready i := hi ▸ ((Cursor.reaches_endGuard l₁.input _ .keep).ready hready).1
  exact ⟨hfit, Nat.le_trans hle hkept.ge⟩

lemma working_synpred {x : Action Lexer Unit} (htame : Within Tame x) :
    Within Working (synpred x) := by
  intro l o l' h hl
  obtain ⟨hback, -⟩ := synpred_of_tame hl htame h
  exact ⟨hback.ready, (congrArg Place.index hback.spot_eq).ge⟩

lemma working_setText (text : String) : Within Working (setText text) := by
  refine Within.update fun l hl => ?_
  exact ⟨hl, Nat.le_refl _⟩

lemma working_matching : Matching Working where
  lookahead k := working_of_still (still_lookahead k)
  consume := working_consume
  fail kind expected := working_of_still (still_fail kind expected)
  note e := working_of_still (still_note e)
  draft hf := working_of_still (still_draft hf)

/-- **A program that only goes forward and speculates does not fall back**, whatever comes of it:
its input stays fit, and the cursor does not end in front of where it began. -/
theorem working_run {g : Grammar LexerInstruction} (hg : g.All Statement.Onward) (fuel : Nat)
    {block : Block LexerInstruction} (hblock : Block.All Statement.Onward block) :
    Within Working (run g fuel block) := by
  refine Grammar.run_of_conduct (fun fuel hrun => ?_) fuel hblock
  have htame (b : Block LexerInstruction) (hb : Block.All Statement.Onward b) :
      Within Tame (g.run dialect fuel b) := Grammar.run_within (tame_kept hg) hg fuel hb
  exact {
    block hb := hrun _ hb
    lookahead := working_matching.lookahead
    note e _ := working_matching.note e
    fail := working_matching.fail
    -- predicates at the cursor go forward with it
    evaluate id := Grammar.evaluate_within_of working_matching.lookahead
      (working_of_still still_symbol) (fun e _ => working_matching.note e)
      (fun _ _ => working_consume) fun block hblock => hrun _ (hg.predicate hblock)
    predict a := working_speculating_back (by decide)
      ((tame_kept hg).walk (Grammar.evaluate_within hg htame (tame_kept hg).asks)
        (Grammar.speculate_within hg htame (tame_kept hg)) a)
    synpred hb := working_synpred (htame _ hb)
    speculating {raise ending b} _ hb := by
      by_cases hending : ending = .keep
      · subst hending
        exact working_speculating_keep (hrun _ hb)
      · exact working_speculating_back hending (htame _ hb)
    plain {s} hs hplain := by
      cases s with
      | consume => exact working_consume
      | rewind | release | seek => exact hs.elim
      | _ =>
        exact working_of_still
          (still_plain hplain (by simp) (by simp) (by simp) (by simp) g _ fuel)
    perform hi :=
      working_matching.onward hi (fun rule => hrun _ (hg.body rule)) working_setText }

end Lexer

end Lookahead
