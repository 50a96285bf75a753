import Lookahead.Proofs.Parser.Resynchronization
import Lookahead.Proofs.Parser.Turns

/-!
# Resynchronization makes progress

A resynchronization ends at the first token from its start on at which a rule in progress can be
resumed, and remembers its start (`Resynced.firstAt`).  Where a parser has resynchronized before, it
starts behind the current token.  That is said of each turn of a run (`Turn.Advances`), and so, of
three turns each of which begins where the one before has ended, the last has gone on
(`Turn.Advances.progress`).
-/

namespace Lookahead

open Action Cursor Recognizer
open Cursor.View (Ready)

namespace Parser

open TokenStream

variable {σ : Type} [TokenSource σ] {r r' : Parser σ}

/-! ## Turns in a row -/

/-- Is the end of input at a place? -/
def AtEnd (input : Array Token × Channel) (i : Nat) : Prop :=
  ∃ t, input.1[i]? = some t ∧ t.isEof = true

/-- A turn skips from the place that it leaves behind as the last one.  If it has found itself at
such a place, then that is a later one, except at the end of input. -/
def Turn.Advances (input : Array Token × Channel) (t : Turn) : Prop :=
  ∃ first, t.left = some first ∧ t.start ≤ first ∧ first ≤ t.stop ∧
    (t.found = some t.start → t.start < first ∨ AtEnd input t.start) ∧
    (t.found ≠ some t.start → first = t.start)

/-- The second turn begins where the first one has ended, and still remembers its place. -/
def Turn.Meets (t u : Turn) : Prop := u.start = t.stop ∧ u.found = t.left

instance (t u : Turn) : Decidable (t.Meets u) := inferInstanceAs (Decidable (_ ∧ _))

/-- **Three turns in a row make progress.**  The second or the third has skipped a token, or starts
behind the one at which the first has ended. -/
lemma Turn.Advances.progress {input : Array Token × Channel} {t u v : Turn}
    (ht : t.Advances input) (hu : u.Advances input) (hv : v.Advances input) (htu : t.Meets u)
    (huv : u.Meets v) : t.stop < v.stop ∨ AtEnd input t.stop := by
  obtain ⟨i, hti, -, -, -, -⟩ := ht
  obtain ⟨j, huj, hleJ, hju, hsame, hother⟩ := hu
  obtain ⟨k, -, hleK, hkv, hsame', -⟩ := hv
  obtain ⟨hstart, hfound⟩ := htu
  obtain ⟨hstart', hfound'⟩ := huv
  by_cases hfirst : u.found = some u.start
  · -- the second was forced to go on
    rw [← hstart]
    exact (hsame hfirst).imp_left fun hlt => by omega
  · obtain rfl : j = u.start := hother hfirst
    by_cases hsecond : v.found = some v.start
    · have hstay : u.start = v.start :=
        Option.some.inj (huj.symm.trans (hfound'.symm.trans hsecond))
      rw [← hstart, hstay]
      exact (hsame' hsecond).imp_left fun hlt => by omega
    · have hmoved : u.stop ≠ u.start := by
        intro hstay
        exact hsecond (hfound'.trans (huj.trans (congrArg some (hstay.symm.trans hstart'.symm))))
      exact .inl (by omega)

/-- The places that a parser remembers from one turn to the next: each turn finds what the one
before has left, from the first place to the last. -/
def Linked : Option Nat → List Turn → Option Nat → Prop
  | last, [], last' => last = last'
  | last, t :: rest, last' => t.found = last ∧ Linked t.left rest last'

lemma Linked.append {last last₁ last' : Option Nat} {log log' : List Turn}
    (h : Linked last log last₁) (h' : Linked last₁ log' last') :
    Linked last (log ++ log') last' := by
  induction log generalizing last with
  | nil =>
    obtain rfl : last = last₁ := h
    exact h'
  | cons t rest ih => exact ⟨h.1, ih h.2⟩

/-! ## Turns of a run -/

/-- The turns on the way from one parser to another are over its input, and advance. -/
def Turning (r : Parser σ) (log : List Turn) (r' : Parser σ) : Prop :=
  Ready r.input → Ready r'.input ∧ View.input r'.input = View.input r.input ∧
    ∀ t ∈ log, t.Advances (View.input r.input)

instance : Logged.Composes (Turning (σ := σ)) where
  refl _ hr := ⟨hr, rfl, by simp⟩
  trans h h' hr := by
    obtain ⟨hready, hinput, hlog⟩ := h hr
    obtain ⟨hready', hinput', hlog'⟩ := h' hready
    rw [hinput] at hlog'
    exact ⟨hready', hinput'.trans hinput, List.forall_mem_append.2 ⟨hlog, hlog'⟩⟩

/-- The turns on the way from one parser to another are linked. -/
def Remembering (r : Parser σ) (log : List Turn) (r' : Parser σ) : Prop :=
  Linked r.state.lastErrorIndex log r'.state.lastErrorIndex

omit [TokenSource σ] in
instance : Logged.Composes (Remembering (σ := σ)) where
  refl _ := rfl
  trans h h' := h.append h'

lemma turning_resynchronize (report : Report) (f : Failure) :
    Logged.Within Turning (.telling (fun r _ r' => turns.resynchronized r r')
      (resynchronize report f : Action (Parser σ) Unit)) := by
  refine Logged.Within.telling fun r o r' h hr => ?_
  obtain ⟨_, _, hrun, hwork⟩ := resynced_resynchronize hr report f
  obtain ⟨rfl, rfl⟩ := Prod.mk.inj (Option.some.inj (hrun.symm.trans h))
  obtain ⟨hle, hinput⟩ := hwork.le hr
  obtain ⟨t, -, hcross⟩ := crosses_consume hr
  have hnext : (Cursor.consume r.input).place =
      following r.input.fill.buffer r.input.channel r.input.place := place_consume hr
  refine ⟨hwork.ready, hinput, List.forall_mem_singleton.2
    ⟨skipStart r, hwork.state_eq.2, ?_, hle, fun hsame => ?_, fun hother => ?_⟩⟩
  · unfold skipStart
    split
    · exact hnext ▸ hcross.le
    · exact Nat.le_refl _
  · rw [skipStart, if_pos hsame, ← hnext]
    cases heof : t.isEof with
    | true => exact .inr ⟨t, hcross.here, heof⟩
    | false => exact .inl (hcross.lt heof)
  · rw [skipStart, if_neg hother]

/-- The turns of every run advance. -/
lemma turning_run (g : Grammar ParserInstruction) (fuel : Nat) (block : Block ParserInstruction) :
    Logged.Within Turning (turns.run g fuel block : Logged Turn (Parser σ) Unit) := by
  refine turns_within (fun r r' h hr => ?_) turning_resynchronize (fun i _ r hr => ?_) g.all_true
    fuel fun s _ => s.all_true
  · obtain ⟨hready, hinput⟩ := h.reaches.ready hr
    exact ⟨hready, hinput, by simp⟩
  · exact ⟨hr, rfl, by simp⟩

/-- The turns of a run are linked if no statement assigns the place that is remembered. -/
lemma remembering_run {g : Grammar ParserInstruction} (hg : g.All Statement.Heedful) (fuel : Nat)
    {block : Block ParserInstruction} (hblock : Block.All Statement.Heedful block) :
    Logged.Within Remembering (turns.run g fuel block : Logged Turn (Parser σ) Unit) :=
  turns_within (fun _ _ h => h.lastErrorIndex_eq.symm)
    (fun _ _ => Logged.Within.telling fun _ _ _ _ => ⟨rfl, rfl⟩) (fun _ h => h.elim) hg fuel hblock

/-! ## Where recovery resumes -/

omit [TokenSource σ] in
lemma has_resumable (r : Parser σ) (x : TokenType) :
    (resumable r).has x = true ↔ Resumes (r.state.taken false) x :=
  has_combinedFollow_false

/-- As long as the stack is not mistaken for another one, the parser resumes where a rule in progress
can be resumed. -/
lemma resumes_taken {s : State} (h : s.Unmistaken false) (x : TokenType) :
    Resumes (s.taken false) x ↔ Resumes (s.frames.map Frame.follow) x := by
  rw [← has_combinedFollow_false, ← has_combinedFollow_false]
  exact Bool.eq_iff_iff.1 (TokenSet.sameAs_iff.1 (combinedFollow_congr false h.taken) x)

/-- No follow set has the type of a unit that no token rule accepts. -/
lemma not_resumes_invalid (follows : List TokenSet) : ¬ Resumes follows .invalid := by
  rintro ⟨follow, -, hhas⟩
  simp [TokenSet.has, TokenSet.slot, TokenType.invalid, TokenType.eof] at hhas

/-- A resynchronization that succeeds ends at the first token that can resume. -/
lemma Resynced.firstAt {report : Report} {f : Failure} (hr : Ready r.input)
    (h : Resynced report f r (.ok ()) r') :
    FirstAt (View.input r.input) (fun t => Resumes (r.state.taken false) t.type) (skipStart r)
      r'.input.place := by
  obtain ⟨hready, hinput, hplace⟩ := skipInput_eq hr
  cases h with
  | resumed hskips hfirst hresume hlegal =>
    have hbuffer : (skipInput r).fill.buffer = r.input.fill.buffer := congrArg Prod.fst hinput
    have hfirstAt := hskips.firstAt hready (hbuffer ▸ hresume) hlegal
    rw [hinput, hplace] at hfirstAt
    simpa only [has_resumable] using hfirstAt

/-- A resynchronization that fails has come to the end of input, and nothing on the way could
resume. -/
lemma Resynced.nowhere {report : Report} {f : Failure} {e : Fault} (hr : Ready r.input)
    (h : Resynced report f r (.error e) r') :
    e = .failed f ∧ r'.state.escalated = true ∧ AtEnd (View.input r.input) r'.input.place ∧
      ∀ k t, skipStart r ≤ k → Stands (View.input r.input).1 (View.input r.input).2 k →
        (View.input r.input).1[k]? = some t → ¬ Resumes (r.state.taken false) t.type := by
  obtain ⟨hready, hinput, hplace⟩ := skipInput_eq hr
  cases h with
  | @exhausted n i last hskips hlast heof hlegal =>
    refine ⟨rfl, rfl, ⟨last, hlast, heof⟩, fun k t hk hstands ht => ?_⟩
    rw [← has_resumable]
    have hbuffer : (skipInput r).fill.buffer = r.input.fill.buffer := congrArg Prod.fst hinput
    have hchannel : (skipInput r).channel = r.input.channel := congrArg Prod.snd hinput
    have ht' : (skipInput r).fill.buffer[k]? = some t := hbuffer ▸ ht
    have hfill : (skipInput r).fill.Sound := (Extends.fill (skipInput r)).sound hready.sound
    have hsize : k < (skipInput r).fill.buffer.size := (Array.getElem?_eq_some_iff.1 ht').1
    -- the end of input is the last token there is
    have hend : i.place + 1 = (skipInput r).fill.buffer.size :=
      (hfill.last_of_isEof i.place last (hbuffer ▸ hlast) heof).1
    rcases Nat.lt_or_ge k i.place with hlt | hge
    · have hstands' : Stands (skipInput r).fill.buffer (skipInput r).channel k := by
        rw [hbuffer, hchannel]
        exact hstands
      rw [(hskips.passed_at hready (hplace ▸ hk) hlt hstands' ht').2]
      exact Bool.false_ne_true
    · obtain rfl : k = i.place := by omega
      obtain rfl : t = last := Option.some.inj (ht.symm.trans hlast)
      rw [beq_iff_eq.1 heof, hlegal]
      exact Bool.false_ne_true

/-- What comes of a failure that is recovered from, if the parser resumes at `legal` types: it ends
at the first token of such a type from where it skips, or there is none, and the failure is handed
on at the end of input by a parser that has given up. -/
inductive Landed (legal : TokenType → Prop) (f : Failure) (r : Parser σ) :
    Except Fault (Option NodeId) → Parser σ → Prop
  | resumed {node : NodeId} {r' : Parser σ}
      (hfirst : FirstAt (View.input r.input) (fun t => legal t.type) (skipStart r)
        r'.input.place) : Landed legal f r (.ok (some node)) r'
  | exhausted {r' : Parser σ} (hmode : r'.state.mode = .failed)
      (hend : AtEnd (View.input r.input) r'.input.place)
      (hnone : ∀ k t, skipStart r ≤ k → Stands (View.input r.input).1 (View.input r.input).2 k →
        (View.input r.input).1[k]? = some t → ¬ legal t.type) :
      Landed legal f r (.error (.failed f)) r'

omit [TokenSource σ] in
/-- A report leaves alone what the unions are given for. -/
lemma taken_reported (r : Parser σ) (f : Failure) :
    (reported r f).state.taken false = r.state.taken false := by
  unfold reported State.report
  split
  · rfl
  · dsimp only
    split <;> rfl

lemma landed_exitRule (start : RuleStart) {f : Failure} (hlive : Live r.input)
    (hrec : Recovers r f) :
    ∃ o r', exitRule start (.error (.failed f)) r = some (o, r') ∧
      r'.state.lastErrorIndex = some (skipStart r) ∧
      Landed (Resumes (r.state.taken false)) f r o r' := by
  have hready : Ready (reported r f).input := hlive.ready
  obtain ⟨o, r₁, hwork, hexit⟩ := exitRule_of_recovers start hlive.ready hrec
  have hlast := hwork.state_eq.2
  rw [skipStart_reported] at hlast
  refine ⟨_, _, hexit, ?_⟩
  cases o with
  | ok _ =>
    have hfirst := hwork.firstAt hready
    rw [skipStart_reported, taken_reported] at hfirst
    exact ⟨hlast, .resumed hfirst⟩
  | error e =>
    obtain ⟨rfl, hescalated, hend, hnone⟩ := hwork.nowhere hready
    rw [skipStart_reported, taken_reported] at hnone
    have hmode : (departed r₁).state.mode = .failed := if_pos hescalated
    exact ⟨hlast, .exhausted hmode hend hnone⟩

/-- **Recovery resumes at the first token at which it can, and makes progress.**  In every state in
which a failure is recovered from, the rule is left at the first token of a type that is in the
recovery set, from the cursor on or, where the parser has resynchronized from the cursor before,
from behind it; that place is remembered.  If there is no such token, then the failure is handed on
at the end of input, and the parser has given up.  The recovery set is the union for a stack with
the signature of the stack in progress.  That is the one in progress itself as long as no union is
known by its signature that was computed for another stack (`Unmistaken`); and then the legal types
are those in the follow sets of the rules in progress.

In every run, each of its turns is logged as it is made.  Of three turns in a row, each of which
begins where the one before has ended and remembers the same place, the last has gone on from where
the first has ended, unless that was the end of input.  What is remembered is always the same if no
statement assigns it. -/
theorem recovery_progresses :
    (∀ (start : RuleStart) (f : Failure) (r : Parser σ), Live r.input → Recovers r f →
      ∃ o r', exitRule start (.error (.failed f)) r = some (o, r') ∧
        r'.state.lastErrorIndex = some (skipStart r) ∧
        Landed (Resumes (r.state.taken false)) f r o r' ∧
        (r.state.Unmistaken false →
          Landed (Resumes (r.state.frames.map Frame.follow)) f r o r')) ∧
    (∀ follows, ¬ Resumes follows .invalid) ∧
    ∀ (g : Grammar ParserInstruction) (fuel : Nat) (block : Block ParserInstruction)
      (r r' : Parser σ) (o : Except Fault Unit), Live r.input →
      Parser.run g fuel block r = some (o, r') →
      ∃ log, turns.run g fuel block r = some (log, o, r') ∧
        (∀ before t u v behind, log = before ++ t :: u :: v :: behind → t.Meets u → u.Meets v →
          t.stop < v.stop ∨ AtEnd (View.input r.input) t.stop) ∧
        (g.All Statement.Heedful → Block.All Statement.Heedful block →
          Linked r.state.lastErrorIndex log r'.state.lastErrorIndex) := by
  refine ⟨fun start f r hlive hrec => ?_, not_resumes_invalid, ?_⟩
  · obtain ⟨o, r', hexit, hlast, hlanded⟩ := landed_exitRule start hlive hrec
    refine ⟨o, r', hexit, hlast, hlanded, fun hknown => ?_⟩
    have hlegal : Resumes (r.state.taken false) = Resumes (r.state.frames.map Frame.follow) :=
      funext fun x => propext (resumes_taken hknown x)
    rw [← hlegal]
    exact hlanded
  · intro g fuel block r r' o hlive hrun
    obtain ⟨log, hlog⟩ := turns.exists_log_of_run hrun
    obtain ⟨-, -, hadvances⟩ := turning_run g fuel block hlog hlive.ready
    refine ⟨log, hlog, fun before t u v behind heq htu huv => ?_, fun hg hblock =>
      remembering_run hg fuel hblock hlog⟩
    subst heq
    exact (hadvances t (by simp)).progress (hadvances u (by simp)) (hadvances v (by simp)) htu huv

/-- A rule that matches one token. -/
def single : Grammar ParserInstruction := ⟨[("single", [.perform (.token 4 .bare)])], [], []⟩

/-- A parser in a rule, in front of a token that nobody expects and two that may follow the rule. -/
def strayToken : Parser (List Token) :=
  let r : Parser (List Token) := .ofStream ((TokenStream.ofSource
    [Token.ofText 6 "x", Token.ofText 7 ";", Token.ofText 7 ";"] 0 "").seek 0)
    .standard (.tokens #[])
  { r with state := r.state.pushFrame (single.rule 0) (.ofTypes [7]) 0 }

/-- The failure of the rule. -/
def strayFailure : Failure :=
  .make .mismatchedSet (Token.ofText 6 "x") 0 none ⟨[]⟩ (.tokens #[])

/-- Three items in a row, none of which is there. -/
def threeItems : Block ParserInstruction :=
  [.perform (.call 0 .bare), .perform (.call 0 .bare), .perform (.call 0 .bare)]

/-- The first recovery skips a token, the second one stays, and the third one goes on. -/
theorem recovery_progresses_strayToken :
    (∃ node r', exitRule ⟨single.rule 0, 0, Token.ofText 6 "x"⟩ (.error (.failed strayFailure))
        strayToken = some (.ok (some node), r') ∧
      FirstAt (View.input strayToken.input)
        (fun t => Resumes (strayToken.state.frames.map Frame.follow) t.type) 0 1) ∧
    ∃ r' t u v, turns.run single 4 threeItems strayToken = some ([t, u, v], .ok (), r') ∧
      t.Meets u ∧ u.Meets v ∧ t.stop = 1 ∧ t.stop < v.stop := by
  have hlive : Live strayToken.input :=
    ⟨⟨_, ⟨_, _, _, rfl⟩, (Step.seek _ 0).reaches⟩, (TokenStream.movesTo_seek _ 0).started⟩
  constructor
  · obtain ⟨o, r', hexit, -, -, hlanded⟩ := recovery_progresses.1
      ⟨single.rule 0, 0, Token.ofText 6 "x"⟩ strayFailure strayToken hlive ⟨rfl, rfl, by decide⟩
    have hend : ((exitRule ⟨single.rule 0, 0, Token.ofText 6 "x"⟩ (.error (.failed strayFailure))
        strayToken).map fun result => (result.1.toBool, result.2.input.place)) =
          some (true, 1) := by
      decide +kernel
    rw [hexit] at hend
    obtain ⟨hok, hplace⟩ := Prod.mk.inj (Option.some.inj hend)
    rcases hlanded (State.unmistaken_of_known_eq_nil rfl false) with hfirst | ⟨-, -, -⟩
    · have hstart : skipStart strayToken = 0 := by decide +kernel
      rw [hstart, hplace] at hfirst
      exact ⟨_, r', hexit, hfirst⟩
    · cases hok
  · have hend : ((turns.run single 4 threeItems strayToken).map fun result =>
        (result.1, result.2.1.toBool)) =
          some ([⟨0, 1, none, some 0⟩, ⟨1, 1, some 0, some 1⟩, ⟨1, 2, some 1, some 2⟩], true) := by
      decide +kernel
    obtain ⟨⟨log, o, r'⟩, hlog, hvalues⟩ := Option.map_eq_some_iff.1 hend
    obtain ⟨rfl, hok⟩ := Prod.mk.inj hvalues
    rcases o with fault | ⟨⟩
    · cases hok
    · have hrun := Logged.forget_eq_some hlog
      rw [Journal.forget_run] at hrun
      obtain ⟨log', hlog', hprogress, -⟩ := recovery_progresses.2.2 _ _ _ _ _ _ hlive hrun
      obtain rfl := (Prod.mk.inj (Option.some.inj (hlog.symm.trans hlog'))).1
      refine ⟨r', _, _, _, hlog, by decide, by decide, rfl, ?_⟩
      refine (hprogress [] _ _ _ [] rfl (by decide) (by decide)).resolve_right ?_
      rintro ⟨token, hhere, heof⟩
      have hsemicolon : (View.input strayToken.input).1[1]? = some token := hhere
      have hnot : ((View.input strayToken.input).1[1]?.map Token.isEof) = some false := by
        decide +kernel
      rw [hsemicolon, Option.map_some, heof] at hnot
      cases hnot

/-- The types that are in a follow set by whose first word the second one is lost. -/
def losing : List TokenType :=
  [.eof, 1, 4, 6, 7, 11, 16, 17, 21, 23, 24, 26, 31, 35, 39, 41, 43, 45, 46, 48, 49, 50, 51, 52, 53,
    58, 61]

/-- Two items, neither of which is there, with one token in between. -/
def twoItems (types : List TokenType) : Block ParserInstruction :=
  [.perform (.call 0 (.ofTypes (70 :: types))), .perform .any,
    .perform (.call 0 (.ofTypes (71 :: types)))]

/-- Where two items lead in front of tokens of these types. -/
def endOfItems (types : List TokenType) : Option Nat :=
  (run single 4 (twoItems types) (.ofStream (.ofSource
    ([8, 70, 9, 71].map fun type => Token.ofText type "x") 0 "") .standard (.tokens #[]))).map
      fun result => result.2.input.place

-- The second item may be followed by the last token, but its stack is mistaken for the first one's.
example : endOfItems losing = some 4 ∧ endOfItems (62 :: losing) = some 3 := by decide +kernel

end Parser

end Lookahead
