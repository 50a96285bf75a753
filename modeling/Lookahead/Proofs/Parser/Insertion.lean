import Lookahead.Proofs.Parser.Matching
import Lookahead.Proofs.Recognizer.Follow

/-!
# When a token is put in

A parser that needs one token and is at another puts the one it needs in if the other could stand
behind it (`StandsBehind`).  That is a matter of the follow set of the match, and, if this one lets
the rule end, of what may really follow the rule in its callers.  So it rests on the unions that a
recognizer keeps being those of the rules in progress (`match_inserts_iff`).
-/

namespace Lookahead

open Action Cursor Recognizer
open Cursor.View (Ready spot)

namespace Parser

open TokenStream

variable {σ : Type} [TokenSource σ] {r r₁ r' : Parser σ}

/-- Could a unit of type `here` stand behind a token that `follow` belongs to, with these rules in
progress?  If the token can end its rule, then so can what may follow the rule in its callers; and
outside all rules anything can. -/
def StandsBehind (follow : TokenSet) (frames : List Frame) (here : TokenType) : Prop :=
  follow.isNil = false ∧
    (follow.has here = true ∧
        ¬ (here = .endOfRule ∧ follow.has .endOfRule = true ∧ frames ≠ []) ∨
      follow.has .endOfRule = true ∧ here ≠ .endOfRule ∧
        Succeeds (frames.map Frame.follow) here ∨
      follow.has .endOfRule = true ∧ frames = [])

/-- The outcomes of putting in a token of a type: it is delivered, or it was one error too many. -/
inductive PutsIn (type : TokenType) : Except Fault Token → Prop
  | delivered (text : String) (near : Token) : PutsIn type (.ok (.conjured type text near))
  | escalated {f : Failure} (hkind : f.kind = .missingToken type) :
    PutsIn type (.error (.failed f))

/-- The outcome of not mending the input, where a token of a type was asked for. -/
def Mismatches (type : TokenType) (o : Except Fault Token) : Prop :=
  ∃ f, o = .error (.failed f) ∧ f.kind = .mismatchedToken type

lemma Mismatches.not_putsIn {type : TokenType} {o : Except Fault Token} (h : Mismatches type o) :
    ¬ PutsIn type o := by
  obtain ⟨f, rfl, hkind⟩ := h
  rintro (_ | hmissing)
  rw [hkind] at hmissing
  cases hmissing

/-- With rules in progress the marker is taken out, and a type can stand behind if it is in either
set.  Outside all rules the marker stays, and everything can. -/
lemma viable_iff {follow exact : TokenSet} {frames : List Frame} {here : TokenType}
    (hend : follow.has .endOfRule = true)
    (hexact : exact.has here = true ↔ Succeeds (frames.map Frame.follow) here) :
    let set := follow.union exact
    let viable := if (!frames.isEmpty) = true then set.eraseType .endOfRule else set
    (viable.has here || viable.has .endOfRule) = true ↔ StandsBehind follow frames here := by
  have hfull : follow.isNil = false := by
    by_contra hnil
    have hnone := TokenSet.isNil_iff.1 (by simpa using hnil) .endOfRule
    rw [hend] at hnone
    cases hnone
  unfold StandsBehind
  rcases frames with _ | ⟨f, outer⟩
  · simp [TokenSet.has_union, hend, hfull]
  · simp only [List.isEmpty_cons, Bool.not_false, if_true, TokenSet.has_eraseType,
      TokenSet.has_union, Bool.or_eq_true, Bool.and_eq_true, decide_eq_true_eq, hexact, hfull,
      hend]
    simp [or_and_right, and_comm (a := Succeeds _ here)]

/-- The answer is about the current unit and the rules in progress. -/
lemma canFollow_apply (follow : TokenSet) {t : Token} (hr : Ready r.input)
    (hknown : r.state.Unmistaken true) (ht : r.input.fill.buffer[r.input.place]? = some t) :
    ∃ b r', canFollow follow r = some (.ok b, r') ∧
      (b = true ↔ StandsBehind follow r.state.frames t.type) := by
  have hcheck (viable : TokenSet) (s : State) :
      (do
        let type ← lookahead 1
        return viable.has type || viable.has .endOfRule : Action (Parser σ) Bool)
          { r with state := s } =
        some (.ok (viable.has t.type || viable.has .endOfRule), { r with state := s }) :=
    bind_of_ok (lookahead_one_apply (r := { r with state := s }) hr ht)
  unfold canFollow
  by_cases hnil : follow.isNil = true
  · exact ⟨false, r, by rw [if_pos hnil]; rfl, by simp [StandsBehind, hnil]⟩
  rw [if_neg hnil]
  by_cases hend : follow.has .endOfRule = true
  · rw [if_pos hend]
    have hexact : r.state.exactFollow.1.has t.type = true ↔
        Succeeds (r.state.frames.map Frame.follow) t.type := by
      rw [State.exactFollow, TokenSet.sameAs_iff.1 hknown.follow, has_combinedFollow_true]
    exact ⟨_, _, hcheck _ r.state.exactFollow.2, viable_iff hend hexact⟩
  · rw [if_neg hend]
    refine ⟨_, r, hcheck follow r.state, ?_⟩
    have hfull : follow.isNil = false := by simpa using hnil
    simp [StandsBehind, hend, hfull]

lemma canDelete_eq_false {type : TokenType}
    (hnext : r.state.options.deletion = true → (Cursor.lookahead r.input 2).1 ≠ type) :
    ∃ r', canDelete (· == type) r = some (.ok false, r') ∧ r'.state = r.state := by
  by_cases hdeletion : r.state.options.deletion = true
  · have hne : ((Cursor.lookahead r.input 2).1 == type) = false := by simpa using hnext hdeletion
    refine ⟨{ r with input := (Cursor.lookahead r.input 2).2 }, ?_, rfl⟩
    rw [canDelete, bind_of_ok (readState_apply _ r), if_pos hdeletion,
      bind_of_ok (lookahead_apply 2 r), hne]
    rfl
  · refine ⟨r, ?_, rfl⟩
    rw [canDelete, bind_of_ok (readState_apply _ r), if_neg hdeletion]
    rfl

lemma putsIn_insertMissing (type : TokenType) {near : Token} (hr : Ready r.input)
    (ht : r.input.fill.buffer[r.input.place]? = some near) :
    ∃ o r', insertMissing type r = some (o, r') ∧ PutsIn type o := by
  obtain ⟨o, r', hrun, -⟩ := keeps_insertMissing type r
  refine ⟨o, r', hrun, ?_⟩
  rcases insertMissing_eq_some hr ht hrun with ⟨f, rfl, hkind⟩ | ⟨text, rfl⟩
  · exact .escalated hkind
  · exact .delivered text near

lemma mismatches_fail (type : TokenType) (expected : Option TokenSet) {t : Token}
    (hr : Ready r.input) (ht : r.input.fill.buffer[r.input.place]? = some t)
    (hdepth : r.state.backtracking = 0) :
    ∃ o r', (fail (.mismatchedToken type) expected : Action (Parser σ) Token) r = some (o, r') ∧
      Mismatches type o := by
  obtain ⟨f, r', hfailure, hkind, -⟩ := failureHere_apply hr ht (.mismatchedToken type) expected
  refine ⟨.error (.failed f), r', ?_, f, rfl, hkind⟩
  rw [fail, bind_of_ok (readState_apply _ r), hdepth, if_neg (by simp), bind_of_ok hfailure]
  rfl

/-- The choice of a match that is at another type, outside backtracking, when nothing may be
dropped. -/
lemma matchToken_choice {type : TokenType} {follow : TokenSet} {t : Token} (hr : Ready r.input)
    (ht : r.input.fill.buffer[r.input.place]? = some t) (hmismatch : t.type ≠ type)
    (hdepth : r.state.backtracking = 0) (hinsertion : r.state.options.insertion = true)
    (hknown : r.state.Unmistaken true)
    (hnext : r.state.options.deletion = true → (Cursor.lookahead r.input 2).1 ≠ type) :
    ∃ o r', matchToken type follow r = some (o, r') ∧
      (StandsBehind follow r.state.frames t.type → PutsIn type o) ∧
      (¬ StandsBehind follow r.state.frames t.type → Mismatches type o) := by
  obtain ⟨r₁, hdelete, hstate⟩ := canDelete_eq_false hnext
  have hwaits := (rests_canDelete _ hdelete).waits
  obtain ⟨b, r₂, hfollow, hb⟩ := canFollow_apply follow (hwaits.here hr).1 (hstate ▸ hknown)
    (hwaits.current hr ht)
  have hinsert : canInsert follow r₁ = some (.ok b, r₂) := by
    rw [canInsert, bind_of_ok (readState_apply _ r₁), hstate, if_pos hinsertion]
    exact hfollow
  have hwaits := trans_of Waits hwaits (rests_canInsert follow hinsert).waits
  have hready := (hwaits.here hr).1
  have hcurrent := hwaits.current hr ht
  rw [hstate] at hb
  rw [matchToken_eq, bind_of_ok (lookahead_one_apply hr ht), if_neg hmismatch, isBacktracking,
    bind_of_ok (readState_apply _ r), hdepth, if_neg (by simp), bind_of_ok hdelete,
    if_neg (by simp), bind_of_ok hinsert]
  by_cases hchoice : b = true
  · obtain ⟨o, r', hrun, hputs⟩ := putsIn_insertMissing type hready hcurrent
    exact ⟨o, r', by rw [if_pos hchoice]; exact hrun, fun _ => hputs,
      fun h => absurd (hb.1 hchoice) h⟩
  · obtain ⟨o, r', hrun, hfails⟩ := mismatches_fail type (some (.ofTypes [type])) hready hcurrent
      (hwaits.backtracking_eq.trans hdepth)
    exact ⟨o, r', by rw [if_neg hchoice]; exact hrun, fun h => absurd (hb.2 h) hchoice,
      fun _ => hfails⟩

/-- **The follow sets that a recognizer works with are those of its rules in progress.**

A stack whose unions are kept by signature answers with the union for the frames that are on it, if
the signatures tell the stacks apart that came up.  A state is such a stack, whatever has been done
with it before, and answers with the unions for its frames if the signatures tell those stacks apart
and the ones for which it knew unions already.  The unions are the sets of the types that `Resumes`
and `Succeeds` say.  So a match that is at another type, outside backtracking, with insertion on and
nothing that may be dropped, puts a token in exactly if the current unit could stand behind it;
this is in every state in which no union is known by the signature of the stack that was computed
for another one. -/
theorem followSets_of_callStack :
    (∀ {κ : Type} [BEq κ] [LawfulBEq κ] (g : Signing κ) (calls : List StackCall) (exact : Bool),
      g.Separates (· ∈ standing [] calls) →
        ((calls.foldl (SignedStack.obey g) .empty).ask g exact).1.sameAs
          (combinedFollow exact ((calls.foldl StackCall.apply []).map Frame.follow)) = true) ∧
    (∀ (s : State) (calls : List StackCall),
      (calls.foldl State.obey s).signed = calls.foldl (SignedStack.obey s.signing) s.signed ∧
      (s.signing.Separates (s.Occurs calls) →
        (calls.foldl State.obey s).recoverySet.1.sameAs
          (combinedFollow false ((calls.foldl StackCall.apply s.frames).map Frame.follow)) = true ∧
        (calls.foldl State.obey s).exactFollow.1.sameAs
          (combinedFollow true ((calls.foldl StackCall.apply s.frames).map Frame.follow)) =
            true)) ∧
    (∀ (follows : List TokenSet) (x : TokenType),
      ((combinedFollow false follows).has x = true ↔ Resumes follows x) ∧
      ((combinedFollow true follows).has x = true ↔ Succeeds follows x)) ∧
    ∀ {σ : Type} [TokenSource σ] {r : Parser σ} (type : TokenType) (follow : TokenSet),
      Live r.input → r.state.backtracking = 0 → r.state.options.insertion = true →
      r.state.Unmistaken true →
      (r.state.options.deletion = true → (Cursor.lookahead r.input 2).1 ≠ type) →
      (Cursor.lookahead r.input 1).1 ≠ type →
      ∃ o r', matchToken type follow r = some (o, r') ∧
        (PutsIn type o ↔ StandsBehind follow r.state.frames (Cursor.lookahead r.input 1).1) ∧
        (Mismatches type o ↔
          ¬ StandsBehind follow r.state.frames (Cursor.lookahead r.input 1).1) := by
  refine ⟨fun g calls exact hg => SignedStack.sameAs_ask hg exact, fun s calls => ?_,
    fun follows x => ⟨has_combinedFollow_false, has_combinedFollow_true⟩,
    fun {_ _ r} type follow hlive hdepth hinsertion hknown hnext hmismatch => ?_⟩
  · exact ⟨(s.signed_foldl_obey calls).1, fun hg =>
      ⟨State.sameAs_follow_foldl hg false, State.sameAs_follow_foldl hg true⟩⟩
  · obtain ⟨t, -, ht⟩ := symbol_eq hlive.ready
    have htype : (Cursor.lookahead r.input 1).1 = t.type := by
      have hrun := (lookahead_apply 1 r).symm.trans (lookahead_one_apply hlive.ready ht)
      exact Except.ok.inj (Prod.mk.inj (Option.some.inj hrun)).1
    rw [htype] at hmismatch ⊢
    obtain ⟨o, r', hrun, hputs, hfails⟩ :=
      matchToken_choice hlive.ready ht hmismatch hdepth hinsertion hknown hnext
    refine ⟨o, r', hrun, ⟨fun h => ?_, hputs⟩, fun h => ?_, hfails⟩
    · by_contra hbehind
      exact (hfails hbehind).not_putsIn h
    · exact fun hbehind => h.not_putsIn (hputs hbehind)

/-- A rule is left and another is entered, and then the first again, whose union is known. -/
def reentry : List StackCall :=
  [.push ⟨0, "program"⟩ (.ofTypes [.eof]) 0, .push ⟨1, "statement"⟩ (.ofTypes [7]) 0,
    .push ⟨2, "expression"⟩ (.ofTypes [8, .endOfRule]) 0, .ask true, .pop,
    .push ⟨2, "expression"⟩ (.ofTypes [9]) 0, .ask true, .pop,
    .push ⟨2, "expression"⟩ (.ofTypes [8, .endOfRule]) 0]

/-- A parser in a rule, at a token that stands behind the rule. -/
def inRule : Parser (List Token) :=
  { brokenPair with state := brokenPair.state.pushFrame ⟨0, "item"⟩ (.ofTypes [4]) 0 }

/-- The union is given again when the rule is entered again, and a token that ends its rule is put
in in front of one that may follow the rule. -/
theorem followSets_of_callStack_reentry :
    Signing.hashed.Separates (· ∈ standing [] reentry) ∧
    ((reentry.foldl (SignedStack.obey .hashed) .empty).ask .hashed true).1.sameAs
      (.ofTypes [7, 8]) = true ∧
    (reentry.foldl State.obey (.initial .standard (.tokens #[]))).exactFollow.1.sameAs
      (.ofTypes [7, 8]) = true ∧
    ∃ o r', matchToken 5 (.ofTypes [.endOfRule]) inRule = some (o, r') ∧ PutsIn 5 o := by
  obtain ⟨hsigned, hstate, hclosed, hchoice⟩ := followSets_of_callStack
  have hseparates : Signing.hashed.Separates (· ∈ standing [] reentry) := by
    have hall : ∀ a ∈ standing [] reentry, ∀ b ∈ standing [] reentry,
        Signing.hashed.sign a = Signing.hashed.sign b → SameShape a b := by decide +kernel
    exact fun a b ha hb => hall a ha b hb
  have hunion : (combinedFollow true ((reentry.foldl StackCall.apply []).map
      Frame.follow)).sameAs (.ofTypes [7, 8]) = true := by decide +kernel
  have hlive : Live inRule.input :=
    ⟨⟨_, ⟨_, _, _, rfl⟩, (Step.seek _ 0).reaches⟩, (TokenStream.movesTo_seek _ 0).started⟩
  have hbehind : StandsBehind (.ofTypes [.endOfRule]) inRule.state.frames
      (Cursor.lookahead inRule.input 1).1 := by
    refine ⟨by decide +kernel, .inr (.inl ⟨by decide +kernel, by decide +kernel, ?_⟩)⟩
    exact (hclosed _ _).2.1 (by decide +kernel)
  obtain ⟨o, r', hrun, hputs, -⟩ := hchoice 5 (.ofTypes [.endOfRule]) hlive rfl rfl
    (State.unmistaken_of_known_eq_nil rfl true) (by decide +kernel) (by decide +kernel)
  have hfresh : Signing.hashed.Separates
      ((State.initial .standard (.tokens #[])).Occurs reentry) := by
    refine fun a b ha hb => hseparates a b (ha.resolve_right ?_) (hb.resolve_right ?_)
    all_goals
      rintro ⟨u, hu, -⟩
      cases hu
  exact ⟨hseparates, TokenSet.sameAs_trans (hsigned .hashed reentry true hseparates) hunion,
    TokenSet.sameAs_trans (((hstate _ reentry).2 hfresh).2) hunion, o, r', hrun, hputs.2 hbehind⟩

end Parser

end Lookahead
