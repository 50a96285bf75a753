import Lookahead.Proofs.Parser.Journal
import Lookahead.Proofs.Stream.Crossing

/-!
# Every token is accounted for

A run of a parser moves its input in four ways: it matches a token, it drops one that is unwanted,
it puts one in, which moves nothing, and it passes over tokens to resynchronize.  Each of them is a
station, and `accounts` is the journal in which the stations of a run are logged.  What a prediction
or a syntactic predicate does is no station: both put the cursor back, whatever was tried.

`Course` is what the log of a run says: each station begins where the one before it ended, and what
the stations account for is the tokens between the two ends of the run, in order and without rest
(`run_accounts`).
-/

namespace Lookahead

open Action Cursor Recognizer
open Cursor.View (Ready spot marks)

/-- A statement that leaves it to predictions, syntactic predicates and instructions to move the
cursor, to pop marks and to speculate.  A mark must not be released by hand either: it may be that
of a speculation, which then cannot go back. -/
def Statement.Guided {ι : Type} : Statement ι → Prop
  | .rewind _ | .release _ | .consume | .seek _ | .setBacktracking _ | .speculating _ _ _ => False
  | _ => True

lemma Statement.Guided.keeping {ι : Type} {s : Statement ι} (h : s.Guided) : s.Keeping := by
  cases s <;> first | exact trivial | exact h

/-- No predicate of the grammar moves the cursor by itself, past a unit that nobody has matched. -/
def Grammar.Pure {ι : Type} (g : Grammar ι) : Prop :=
  ∀ id value, g.predicate? id ≠ some (.consume value)

namespace Parser

open TokenStream

variable {σ : Type} [TokenSource σ] {α β : Type} {r r₁ r' : Parser σ}

/-! ## Stations -/

/-- What a station does with the tokens at the cursor. -/
inductive Move where
  /-- The current token is taken. -/
  | matched (t : Token)
  /-- One token too many is dropped. -/
  | deleted (t : Token)
  /-- A token is put in. -/
  | inserted (t : Token)
  /-- Tokens are passed over to resynchronize. -/
  | passed (ts : List Token)
  deriving DecidableEq, Repr

/-- The tokens of the input that a station accounts for, the end of input apart. -/
def Move.tokens : Move → List Token
  | .matched t | .deleted t => [t].filter fun t => !t.isEof
  | .inserted _ => []
  | .passed ts => ts

/-- What a station does, and the places of the cursor before and after it. -/
structure Station where
  move : Move
  start : Nat
  stop : Nat
  deriving DecidableEq, Repr

/-- The token that is matched at a station, unless that is the end of input. -/
def Station.taken (st : Station) : Option Token :=
  match st.move with
  | .matched t => if t.isEof then none else some t
  | _ => none

/-- Each station begins where the one before it ended, and none goes backwards. -/
def Chained : Nat → List Station → Nat → Prop
  | i, [], j => i = j
  | i, st :: rest, j => st.start = i ∧ st.start ≤ st.stop ∧ Chained st.stop rest j

lemma Chained.append {log log' : List Station} {i j k : Nat} (h : Chained i log j)
    (h' : Chained j log' k) : Chained i (log ++ log') k := by
  induction log generalizing i with
  | nil =>
    obtain rfl : i = j := h
    exact h'
  | cons st rest ih =>
    obtain ⟨hstart, hle, hrest⟩ := h
    exact ⟨hstart, hle, ih hrest⟩

lemma Chained.le {log : List Station} {i j : Nat} (h : Chained i log j) : i ≤ j := by
  induction log generalizing i with
  | nil => exact Nat.le_of_eq h
  | cons st rest ih =>
    obtain ⟨rfl, hle, hrest⟩ := h
    exact Nat.le_trans hle (ih hrest)

/-- The stations of a run, each logged by the operation that takes the cursor on. Of predictions and
predicates, which go back, nothing is kept. -/
def accounts : Journal Station σ where
  matched r t r' := [⟨.matched t, r.input.place, r'.input.place⟩]
  deleted r t r' :=
    let next := (Cursor.consume r.input).place
    [⟨.deleted (Cursor.symbol r.input).1, r.input.place, next⟩,
      ⟨.matched t, next, r'.input.place⟩]
  inserted r t r' := [⟨.inserted t, r.input.place, r'.input.place⟩]
  resynchronized r r' :=
    let skipped := tokensBetween (View.input r.input) r.input.place r'.input.place
    [⟨.passed skipped, r.input.place, r'.input.place⟩]
  decisions _ := []

/-! ## Logs -/

/-- The input is read, and is where it was. -/
structure Waits (r r' : Parser σ) : Prop where
  stays : Stays r.input r'.input
  backtracking_eq : r'.state.backtracking = r.state.backtracking

instance : IsPreorder (Parser σ) Waits where
  refl _ := ⟨Stays.refl _, rfl⟩
  trans _ _ _ h h' := ⟨h.stays.trans h'.stays, h'.backtracking_eq.trans h.backtracking_eq⟩

/-- What a log says about the parsers before and after it: the stations lead from the one place to
the other, and account for all tokens between. -/
structure Course (r : Parser σ) (log : List Station) (r' : Parser σ) : Prop where
  ready : Ready r'.input
  input_eq : View.input r'.input = View.input r.input
  backtracking_eq : r'.state.backtracking = r.state.backtracking
  chained : Chained r.input.place log r'.input.place
  tokens_eq : log.flatMap (fun st => st.move.tokens) =
    tokensBetween (View.input r.input) r.input.place r'.input.place
  /-- A matched token stands where its station begins, which ends behind it. -/
  matched : ∀ st ∈ log, ∀ t, st.move = .matched t →
    r.input.fill.buffer[st.start]? = some t ∧ (t.isEof = false → st.start < st.stop)

namespace Course

/-- Where the cursor is back at its place, there is nothing to account for. -/
lemma of_place_eq (hready : Ready r'.input) (hinput : View.input r'.input = View.input r.input)
    (hplace : r'.input.place = r.input.place)
    (hdepth : r'.state.backtracking = r.state.backtracking) : Course r [] r' where
  ready := hready
  input_eq := hinput
  backtracking_eq := hdepth
  chained := hplace.symm
  tokens_eq := by rw [hplace, tokensBetween_self]; rfl
  matched := by simp

lemma of_waits (hr : Ready r.input) (h : Waits r r') : Course r [] r' := by
  obtain ⟨hready, hinput⟩ := h.stays.roams.reaches.ready hr
  exact of_place_eq hready hinput (h.stays.spot_eq hr) h.backtracking_eq

lemma trans {log log' : List Station} (h : Course r log r₁) (h' : Course r₁ log' r') :
    Course r (log ++ log') r' where
  ready := h'.ready
  input_eq := h'.input_eq.trans h.input_eq
  backtracking_eq := h'.backtracking_eq.trans h.backtracking_eq
  chained := h.chained.append h'.chained
  tokens_eq := by
    rw [List.flatMap_append, h.tokens_eq, h'.tokens_eq, h.input_eq,
      ← tokensBetween_append h.chained.le h'.chained.le]
  matched st hst t ht := by
    rcases List.mem_append.1 hst with hst | hst
    · exact h.matched st hst t ht
    · have hbuffer : r₁.input.fill.buffer = r.input.fill.buffer := congrArg Prod.fst h.input_eq
      rw [← hbuffer]
      exact h'.matched st hst t ht

/-- Where the cursor crosses a token, one station is enough. -/
lemma of_crosses {t : Token} {move : Move} (hmove : move = .matched t ∨ move = .deleted t)
    (hcross : r.input.Crosses r'.input t)
    (hdepth : r'.state.backtracking = r.state.backtracking) :
    Course r [⟨move, r.input.place, r'.input.place⟩] r' where
  ready := hcross.ready
  input_eq := hcross.input_eq
  backtracking_eq := hdepth
  chained := ⟨rfl, hcross.le, rfl⟩
  tokens_eq := by
    rw [hcross.tokens_eq]
    rcases hmove with rfl | rfl
    · simp [Move.tokens]
    · simp [Move.tokens]
  matched st hst u hu := by
    obtain rfl := List.mem_singleton.1 hst
    rcases hmove with rfl | rfl
    · obtain rfl := Move.matched.inj hu
      exact ⟨hcross.here, hcross.lt⟩
    · cases hu

end Course

/-! ## Operations -/

lemma Rests.waits (h : Rests r r') : Waits r r' :=
  ⟨h.stays, h.backtracking_eq⟩

lemma waits_of_rests {x : Action (Parser σ) α} (h : Within Rests x) : Within Waits x :=
  h.mono fun _ _ => Rests.waits

lemma waits_updateState {f : State → State} (hf : ∀ s, (f s).backtracking = s.backtracking) :
    Within Waits (updateState f : Action (Parser σ) Unit) :=
  Within.update fun r => ⟨Stays.refl _, hf r.state⟩

lemma waits_reportFailure (f : Failure) :
    Within Waits (reportFailure f : Action (Parser σ) Report) := by
  have hreport : Within Waits (stepState fun s => s.report f : Action (Parser σ) Report) :=
    Within.step fun r => ⟨Stays.refl _, report_backtracking r.state f⟩
  have hgivenUp : Within Waits (updateState fun s => s.escalate f : Action (Parser σ) Unit) :=
    waits_updateState fun _ => rfl
  refine hreport.bind fun report => ?_
  split
  · exact hgivenUp.bind fun _ => Within.fault _
  · exact Within.pure _

lemma waits_suggest (report : Report) (hint : String) :
    Within Waits (suggest report hint : Action (Parser σ) Unit) := by
  have hadd : Within Waits (updateState fun s => s.annotateLast hint : Action (Parser σ) Unit) :=
    waits_updateState fun _ => rfl
  exact Within.ite hadd (Within.pure _)

lemma waits_endRepair : Within Waits (endRepair : Action (Parser σ) Unit) := by
  refine waits_updateState ?_
  exact fun _ => rfl

/-- Putting a token in moves nothing. -/
lemma waits_insertMissing (type : TokenType) :
    Within Waits (insertMissing type : Action (Parser σ) Token) := by
  refine (waits_of_rests (rests_failureHere _ _)).bind fun failure => ?_
  refine (Within.read _).bind fun name => (waits_reportFailure failure).bind fun report => ?_
  exact (waits_suggest _ _).bind fun _ => waits_endRepair.bind fun _ => Within.pure _

/-- The current token is matched. -/
lemma matchAny_eq_some {o : Except Fault Token} (hr : Ready r.input)
    (h : matchAny r = some (o, r')) :
    ∃ t, o = .ok t ∧ r.input.Crosses r'.input t ∧
      r'.state.backtracking = r.state.backtracking := by
  obtain ⟨t, hsymbol, hcross⟩ := crosses_consume hr
  have hcurrent : Cursor.symbol r.input = (t, r.input) := hsymbol
  simp only [matchAny, Recognizer.symbol, bind_apply, stepInput_apply, hcurrent, consume_apply] at h
  obtain ⟨rfl, rfl⟩ := Prod.mk.inj (Option.some.inj h)
  exact ⟨t, rfl, hcross, rfl⟩

/-- One token is dropped and the next one is matched, or nothing was touched. -/
lemma deleteUnwanted_eq_some {expected : TokenSet} {o : Except Fault Token} (hr : Ready r.input)
    (h : deleteUnwanted expected r = some (o, r')) :
    ((∃ e, o = .error e) ∧ Waits r r') ∨
      ∃ t, o = .ok t ∧ r'.state.backtracking = r.state.backtracking ∧
        r.input.Crosses (Cursor.consume r.input) (Cursor.symbol r.input).1 ∧
        (Cursor.consume r.input).Crosses r'.input t := by
  have hbegins : Within Waits (failureHere .unwantedToken (some expected) >>= reportFailure :
      Action (Parser σ) Report) :=
    (waits_of_rests (rests_failureHere _ _)).bind waits_reportFailure
  rw [deleteUnwanted, ← bind_assoc] at h
  rcases bind_eq_some.1 h with ⟨report, r₁, hreport, h⟩ | ⟨e, hreport, rfl⟩
  · obtain ⟨u, hsymbol, hcross⟩ := crosses_consume hr
    have hcurrent : Cursor.symbol r.input = (u, r.input) := hsymbol
    have hwaits := hbegins hreport
    obtain ⟨hready₁, hinput₁⟩ := hwaits.stays.roams.reaches.ready hr
    have hplace₁ : r₁.input.place = r.input.place := hwaits.stays.spot_eq hr
    rw [bind_apply, consume_apply] at h
    obtain ⟨removed, r₂, hremoved, h⟩ := Returns.bind_eq_some returns_stepInput h
    obtain ⟨_, r₃, hsuggest, h⟩ := (returns_suggest _ _).bind_eq_some h
    have hafter := trans_of Waits (rests_lookBehind 1 hremoved).waits (waits_suggest _ _ hsuggest)
    obtain ⟨v, -, hcross₁⟩ := crosses_consume hready₁
    obtain ⟨hready₃, hinput₃⟩ := hafter.stays.roams.reaches.ready hcross₁.ready
    obtain ⟨t, hsymbol₃, hcross₃⟩ := crosses_consume hready₃
    have hcurrent₃ : Cursor.symbol r₃.input = (t, r₃.input) := hsymbol₃
    simp only [Recognizer.symbol, bind_apply, stepInput_apply, hcurrent₃, consume_apply, endRepair,
      updateState_apply, pure_apply] at h
    obtain ⟨rfl, rfl⟩ := Prod.mk.inj (Option.some.inj h)
    refine .inr ⟨t, rfl, hafter.backtracking_eq.trans hwaits.backtracking_eq, ?_, ?_⟩
    · rw [hcurrent]
      exact hcross
    · refine hcross₃.congr ?_ ?_
      · exact hinput₃.trans (hcross₁.input_eq.trans (hinput₁.trans hcross.input_eq.symm))
      · exact (hafter.stays.spot_eq hcross₁.ready).trans
          (place_consume_congr hr hready₁ hinput₁ hplace₁)
  · exact .inl ⟨⟨e, rfl⟩, hbegins hreport⟩

/-- The input is not moved backwards, and the books are kept. -/
structure Advances (r r' : Parser σ) : Prop where
  forward : r.input.Forward r'.input
  backtracking_eq : r'.state.backtracking = r.state.backtracking

instance : IsPreorder (Parser σ) Advances where
  refl r := ⟨refl_of Forward r.input, rfl⟩
  trans _ _ _ h h' := ⟨trans_of Forward h.forward h'.forward,
    h'.backtracking_eq.trans h.backtracking_eq⟩

lemma advances_resynchronize (report : Report) (f : Failure) :
    Within Advances (resynchronize report f : Action (Parser σ) Unit) := by
  apply resynchronize_within
  · intro r r' h
    exact ⟨forward_of_stays h.stays, h.backtracking_eq⟩
  · exact Within.update fun r => ⟨forward_consume r.input, rfl⟩
  · intro stopAt
    exact Within.step fun r => ⟨forward_skipUntil stopAt _ r.input, rfl⟩
  · intro _ d
    exact Within.update fun r => ⟨refl_of Forward r.input, rfl⟩

/-! ## Journeys -/

/-- A log tells how a parser gets from one state to another, unless it is speculating. -/
def Travels (r : Parser σ) (log : List Station) (r' : Parser σ) : Prop :=
  Ready r.input → r.state.backtracking = 0 → Course r log r'

instance : Logged.Composes (Travels (σ := σ)) where
  refl r hr _ := .of_waits hr (refl_of Waits r)
  trans h h' hr hreal :=
    (h hr hreal).trans (h' (h hr hreal).ready ((h hr hreal).backtracking_eq.trans hreal))

/-- What goes unlogged. -/
abbrev Unlogged : Parser σ → Parser σ → Prop := Logged.Silently Travels

lemma Waits.unlogged (h : Waits r r') : Unlogged r r' := fun hr _ => .of_waits hr h

lemma unlogged_of_waits {x : Action (Parser σ) α} (h : Within Waits x) : Within Unlogged x :=
  h.mono fun _ _ => Waits.unlogged

lemma unlogged_of_rests {x : Action (Parser σ) α} (h : Within Rests x) : Within Unlogged x :=
  unlogged_of_waits (waits_of_rests h)

lemma unlogged_note (e : Event) : Within Unlogged (note e : Action (Parser σ) Unit) :=
  unlogged_of_waits (Within.update fun _ => ⟨Stays.refl _, rfl⟩)

/-- Where the cursor is put back, there is nothing to log. -/
lemma unlogged_of_returned (hback : Returned r.input r'.input)
    (hdepth : r'.state.backtracking = r.state.backtracking) : Unlogged r r' :=
  fun _ _ => .of_place_eq hback.ready hback.input_eq hback.spot_eq hdepth

/-- Outside speculation nothing is recorded about rules, and so nothing is skipped. -/
lemma unlogged_enterRule (rule : Rule) (follow : TokenSet) :
    Within Unlogged (enterRule rule follow : Action (Parser σ) (Option RuleStart)) := by
  intro r o r' h hr hreal
  have hreplay : replay rule r = some (.ok false, r) := by
    simp [replay, bind_apply, isMemoizing, hreal]
  rw [enterRule, bind_apply, hreplay] at h
  exact (rests_enterAnew rule follow h).waits.unlogged hr hreal

lemma travels_matchAny : Logged.Within Travels (accounts.matchAny : Logged _ (Parser σ) Token) := by
  refine Logged.Within.telling fun r o r' h hr _ => ?_
  obtain ⟨t, rfl, hcross, hdepth⟩ := matchAny_eq_some hr h
  exact .of_crosses (.inl rfl) hcross hdepth

lemma travels_deleteUnwanted (expected : TokenSet) :
    Logged.Within Travels (accounts.deleteUnwanted expected : Logged _ (Parser σ) Token) := by
  refine Logged.Within.telling fun r o r' h hr _ => ?_
  rcases deleteUnwanted_eq_some hr h with ⟨⟨e, rfl⟩, hwaits⟩ | ⟨t, rfl, hdepth, hdrop, hcross⟩
  · exact .of_waits hr hwaits
  · have hdropped : Course r _ { r with input := Cursor.consume r.input } :=
      .of_crosses (.inr rfl) hdrop rfl
    exact hdropped.trans (.of_crosses (.inl rfl) hcross hdepth)

lemma travels_insertMissing (type : TokenType) :
    Logged.Within Travels (accounts.insertMissing type : Logged _ (Parser σ) Token) := by
  refine Logged.Within.telling fun r o r' h hr _ => ?_
  have hwaits := waits_insertMissing type h
  rcases o with e | t
  · exact .of_waits hr hwaits
  · have hplace : r'.input.place = r.input.place := hwaits.stays.spot_eq hr
    obtain ⟨hready, hinput⟩ := hwaits.stays.roams.reaches.ready hr
    refine ⟨hready, hinput, hwaits.backtracking_eq, ⟨rfl, Nat.le_of_eq hplace.symm, rfl⟩, ?_, ?_⟩
    · rw [hplace, tokensBetween_self]
      rfl
    · intro st hst u hu
      obtain rfl := List.mem_singleton.1 hst
      cases hu

lemma travels_resynchronize (report : Report) (f : Failure) :
    Logged.Within Travels (Logged.telling (fun r _ r' => accounts.resynchronized r r')
      (resynchronize report f : Action (Parser σ) Unit)) := by
  refine Logged.Within.telling fun r o r' h hr _ => ?_
  obtain ⟨hforward, hdepth⟩ := advances_resynchronize report f h
  obtain ⟨hready, hinput⟩ := hforward.roams.reaches.ready hr
  refine ⟨hready, hinput, hdepth, ⟨rfl, hforward.le hr, rfl⟩, List.append_nil _, ?_⟩
  intro st hst u hu
  obtain rfl := List.mem_singleton.1 hst
  cases hu

lemma travels_keeps : (accounts : Journal Station σ).Keeps Travels where
  books hrests _ := unlogged_of_rests hrests
  note e _ := unlogged_note e
  report f := unlogged_of_waits (waits_reportFailure f)
  record start o := unlogged_of_rests (rests_record start o)
  enterRule := unlogged_enterRule
  matchAny := travels_matchAny
  deleteUnwanted := travels_deleteUnwanted
  insertMissing := travels_insertMissing
  resynchronize := travels_resynchronize

/-! ## Runs -/

section

variable {g : Grammar ParserInstruction} {run : Block ParserInstruction → Action (Parser σ) Unit}

lemma unlogged_plain {s : Statement ParserInstruction} (hs : s.Guided) (hplain : s.Plain)
    (fuel : Nat) : Within Unlogged (Grammar.execute dialect g run fuel s) := by
  have hupdate {f : Parser σ → Parser σ} (hf : ∀ r, Waits r (f r)) : Within Unlogged (.update f) :=
    unlogged_of_waits (Within.update hf)
  cases s with
  | mark =>
    have hmark : Within Unlogged (mark : Action (Parser σ) Mark) :=
      unlogged_of_rests (rests_stepInput fun s => (Stay.mark s).stays)
    exact hmark.bind fun m => hupdate fun r => ⟨Stays.refl _, rfl⟩
  | setLastError i => exact hupdate fun r => ⟨Stays.refl _, rfl⟩
  | pushFrame rule follow =>
    exact (Within.read _).bind fun index => hupdate fun r => ⟨Stays.refl _, rfl⟩
  | popFrame => exact hupdate fun r => ⟨Stays.refl _, rfl⟩
  | observe =>
    have hseen : Within Unlogged (snapshot : Action (Parser σ) Snapshot) :=
      (Within.read _).bind fun index => (unlogged_of_rests (rests_lookahead 1)).bind fun type =>
        Within.read _
    exact hseen.bind fun seen => unlogged_note _
  | rewind | release | consume | seek | setBacktracking => exact hs.elim
  | ifHolds | whileHolds | untilHolds | oneOrMore | switch | predict | loop | require | synpred
  | speculating | attempt | earlyExit | perform => exact hplain.elim

end

section

variable {g : Grammar ParserInstruction}
  {run : Block ParserInstruction → Logged Station (Parser σ) Unit}

lemma travels_evaluate (hg : g.All Statement.Guided) (hpure : g.Pure)
    (hrun : ∀ b, Block.All Statement.Guided b → Logged.Within Travels (run b)) (id : Nat) :
    Logged.Within Travels (accounts.dialect.evaluate g run id) := by
  unfold LoggedDialect.evaluate
  split
  · rename_i block hblock
    refine (Logged.Within.read _).bind fun index => ?_
    refine (travels_keeps.withRoot (hrun _ (hg.predicate hblock))).discard.bind fun _ => ?_
    exact (Logged.Within.silent (unlogged_note _)).bind fun _ => Logged.Within.pure _
  · rename_i hother
    exact Logged.Within.silent (Grammar.evaluate_within_of
      (fun k => unlogged_of_rests (rests_lookahead k)) (unlogged_of_rests rests_symbol)
      (fun e _ => unlogged_note e) (fun value hvalue => absurd hvalue (hpure id value))
      fun block hblock => absurd hblock (hother block))

lemma travels_conduct (hg : g.All Statement.Guided) (hpure : g.Pure) (fuel : Nat)
    (hrun : ∀ b, Block.All Statement.Guided b →
      Logged.Within Travels (accounts.run g fuel b : Logged _ (Parser σ) Unit)) :
    (accounts.dialect (σ := σ)).Conduct g (accounts.run g fuel) Statement.Guided Travels fuel := by
  have hkeeping : g.All Statement.Keeping := hg.mono fun _ => Statement.Guided.keeping
  have htame := tame_kept (σ := σ) hkeeping
  have htameRun (b : Block ParserInstruction) (hb : Block.All Statement.Keeping b) :
      Within Tame ((accounts.run g fuel b).forget : Action (Parser σ) Unit) := by
    rw [accounts.forget_run]
    exact tame_run hkeeping fuel hb
  constructor
  case block => exact fun hb => hrun _ hb
  case lookahead => exact fun k => unlogged_of_rests (rests_lookahead k)
  case note => exact fun e _ => unlogged_note e
  case fail => exact fun kind expected => unlogged_of_rests (rests_fail kind expected)
  case evaluate => exact travels_evaluate hg hpure hrun
  case predict =>
    -- the prediction takes back what its hooks do
    intro a
    refine LoggedDialect.predict_within_of_erased rfl fun r o r' h hr _ => ?_
    have hpredicate (id : Nat) := Grammar.evaluate_within hkeeping htameRun htame.asks id
    have hspeculate (decision n : Nat) :=
      Grammar.speculate_within hkeeping htameRun htame decision n
    obtain ⟨hback, hdepth⟩ := speculating_of_tame hr (htame.walk hpredicate hspeculate a) h
    exact unlogged_of_returned hback hdepth hr ‹_›
  case synpred =>
    intro b hb
    have hfragment := htame.apart (htameRun b (hb.mono fun _ => Statement.Guided.keeping))
    refine LoggedDialect.synpred_within_of_erased rfl fun r o r' h hr _ => ?_
    obtain ⟨hback, hdepth⟩ := synpred_of_tame hr hfragment h
    exact unlogged_of_returned hback hdepth hr ‹_›
  case speculating => exact fun hs _ => hs.elim
  case plain => exact fun hs hplain => unlogged_plain hs hplain fuel
  case perform => exact fun _ => travels_keeps.perform (fun rule => hrun _ (hg.body rule)) _

end

lemma travels_run {g : Grammar ParserInstruction} (hg : g.All Statement.Guided) (hpure : g.Pure)
    (fuel : Nat) {block : Block ParserInstruction} (hblock : Block.All Statement.Guided block) :
    Logged.Within Travels (accounts.run g fuel block : Logged _ (Parser σ) Unit) :=
  LoggedDialect.run_of_conduct (fun fuel hrun => travels_conduct hg hpure fuel hrun) fuel hblock

/-- The tokens matched on the way, in order, without those that were dropped, put in or passed
over. -/
def takenTokens (log : List Station) : List Token := log.filterMap Station.taken

/-- Tokens that are matched one behind the other stand one behind the other. -/
lemma Chained.increasing {tokens : Array Token}
    (hindex : ∀ (i : Nat) (t : Token), tokens[i]? = some t → t.index = some i)
    {log : List Station} {i j : Nat} (h : Chained i log j)
    (hmatched : ∀ st ∈ log, ∀ t, st.move = .matched t →
      tokens[st.start]? = some t ∧ (t.isEof = false → st.start < st.stop)) :
    ∃ places : List Nat, (takenTokens log).map Token.index = places.map some ∧
      places.Pairwise (· < ·) ∧ ∀ p ∈ places, i ≤ p := by
  induction log generalizing i with
  | nil => exact ⟨[], rfl, .nil, by simp⟩
  | cons st rest ih =>
    obtain ⟨rfl, hle, hrest⟩ := h
    obtain ⟨places, hplaces, hincreasing, hbound⟩ :=
      ih hrest fun st' hst' => hmatched st' (List.mem_cons_of_mem _ hst')
    have hbound' (p : Nat) (hp : p ∈ places) : st.start ≤ p := Nat.le_trans hle (hbound p hp)
    cases htaken : st.taken with
    | none =>
      refine ⟨places, ?_, hincreasing, hbound'⟩
      rw [takenTokens, List.filterMap_cons_none htaken]
      exact hplaces
    | some t =>
      obtain ⟨hmove, heof⟩ : st.move = .matched t ∧ t.isEof = false := by
        unfold Station.taken at htaken
        split at htaken
        · rename_i u hu
          by_cases h : u.isEof = true
          · simp [h] at htaken
          · obtain rfl : u = t := by simpa [h] using htaken
            exact ⟨hu, by simpa using h⟩
        · cases htaken
      obtain ⟨hhere, hlt⟩ := hmatched st List.mem_cons_self t hmove
      refine ⟨st.start :: places, ?_, List.pairwise_cons.2 ⟨fun p hp => ?_, hincreasing⟩, ?_⟩
      · rw [takenTokens, List.filterMap_cons_some htaken, List.map_cons, List.map_cons,
          hindex _ t hhere]
        exact congrArg _ hplaces
      · exact Nat.lt_of_lt_of_le (hlt heof) (hbound p hp)
      · intro p hp
        rcases List.mem_cons.1 hp with rfl | hp
        · exact Nat.le_refl _
        · exact hbound' p hp

/-- **No token is lost or matched twice.**  Let a parser that is not speculating run a program from a
started stream, where the program leaves it to predictions, syntactic predicates, matches and rule
calls to move the cursor and to pop marks (`Guided`, and `Pure` for its semantic predicates).  However
the run comes out, it has a log of stations, which is that of the same run with a journal.  The
stations follow one another and never go backwards; the tokens that they match, drop and pass over
are all tokens of the channel between the first place and the last, each of them once; and what they
match has growing indices. -/
theorem run_accounts {g : Grammar ParserInstruction} (hg : g.All Statement.Guided)
    (hpure : g.Pure) (fuel : Nat) {block : Block ParserInstruction}
    (hblock : Block.All Statement.Guided block) {o : Except Fault Unit} (hlive : Live r.input)
    (hreal : r.state.backtracking = 0) (hrun : Parser.run g fuel block r = some (o, r')) :
    ∃ log, accounts.run g fuel block r = some (log, o, r') ∧
      Chained r.input.place log r'.input.place ∧
      log.flatMap (fun st => st.move.tokens) =
        tokensBetween (View.input r.input) r.input.place r'.input.place ∧
      ∃ places : List Nat, (takenTokens log).map Token.index = places.map some ∧
        places.Pairwise (· < ·) := by
  obtain ⟨log, hlog⟩ := accounts.exists_log_of_run hrun
  have hcourse := travels_run hg hpure fuel hblock hlog hlive.ready hreal
  obtain ⟨places, hplaces, hincreasing, -⟩ :=
    hcourse.chained.increasing (numbered_fill_of_live hlive) hcourse.matched
  exact ⟨log, hlog, hcourse.chained, hcourse.tokens_eq, places, hplaces, hincreasing⟩

/-- A rule that matches two tokens. -/
def pair : Grammar ParserInstruction :=
  ⟨[("pair", [.perform (.token 4 .bare), .perform (.token 5 .bare)])], [], []⟩

/-- A parser that mends its input, at a pair with one token too many. -/
def brokenPair : Parser (List Token) :=
  .ofStream ((TokenStream.ofSource
    [Token.ofText 4 "a", Token.ofText 6 "x", Token.ofText 5 "b"] 0 "").seek 0)
    .standard (.tokens #[])

/-- The pair is tried before it is matched. -/
def triedPair : Block ParserInstruction :=
  [.synpred [.perform (.call 0 .bare)] [] [], .perform (.call 0 .bare)]

/-- What is tried is not accounted for, and what is dropped is. -/
theorem run_accounts_pair :
    ∃ r' log, accounts.run pair 8 triedPair brokenPair = some (log, .ok (), r') ∧
      (log.flatMap fun st => st.move.tokens).map Token.type = [4, 6, 5] := by
  have hlive : Live brokenPair.input :=
    ⟨⟨_, ⟨_, _, _, rfl⟩, (Step.seek _ 0).reaches⟩, (TokenStream.movesTo_seek _ 0).started⟩
  have hpair : pair.All Statement.Guided := by
    apply Grammar.all_of_mem
    all_goals simp [pair, Statement.all_iff, Statement.blocks, Statement.Guided]
  have hblock : Block.All Statement.Guided triedPair := by
    simp [triedPair, Statement.all_iff, Statement.blocks, Statement.Guided]
  have hend : ((run pair 8 triedPair brokenPair).map fun result =>
      (result.1.toBool, (tokensBetween (View.input brokenPair.input) brokenPair.input.place
        result.2.input.place).map Token.type)) = some (true, [4, 6, 5]) := by
    decide +kernel
  obtain ⟨⟨o, r'⟩, hrun, hvalues⟩ := Option.map_eq_some_iff.1 hend
  obtain ⟨hok, htypes⟩ := Prod.mk.inj hvalues
  obtain ⟨log, hlog, -, htokens, -⟩ := run_accounts hpair
    (fun id value h => by simp [Grammar.predicate?, pair] at h) 8 hblock hlive rfl hrun
  rcases o with fault | ⟨⟩
  · cases hok
  · exact ⟨r', log, hlog, by rw [htokens, htypes]⟩

end Parser

end Lookahead
