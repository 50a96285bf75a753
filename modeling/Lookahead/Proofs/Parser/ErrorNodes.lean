import Lookahead.Proofs.Parser.Resynchronization

/-!
# What error nodes stand for

An error node takes the place of the tree of a rule that failed.  Its text and its bounds are made
afterwards, from the place where the rule began and the token behind the cursor.  The latter is
found by looking back over tokens of other channels (`behind_one`), so that it is the last token
that the cursor has passed, if it has passed any since the rule began.

In a run that leaves the cursor to predictions, predicates and instructions, a rule is never behind
the place where it began, and its `accounts` are of every token from there on.  So the error node has
exactly the tokens that the call accounts for (`errorNode_spans`).
-/

namespace Lookahead

open Action Cursor Recognizer
open Cursor.View (Ready)

namespace TokenStream

variable {σ : Type} [TokenSource σ] {s : TokenStream σ} {i j : Nat} {t : Token}

/-! ## Looking back -/

/-- What is found behind a place: the nearest token of the channel, or that there is none. -/
inductive Behind (tokens : Array Token) (channel : Channel) (i : Nat) : Option Token → Prop
  | found {j : Nat} {t : Token} (hlt : j < i) (hhere : tokens[j]? = some t)
      (hchannel : t.channel = channel)
      (hnearest : ∀ k u, j < k → k < i → tokens[k]? = some u → u.channel ≠ channel) :
      Behind tokens channel i (some t)
  | nothing (hnone : ∀ k u, k < i → tokens[k]? = some u → u.channel ≠ channel) :
      Behind tokens channel i none

omit [TokenSource σ] in
lemma behind_one (s : TokenStream σ) (i : Nat) : Behind s.buffer s.channel i (s.behind 1 i) := by
  induction i with
  | zero => exact .nothing fun k _ hk => absurd hk (Nat.not_lt_zero k)
  | succ i ih =>
    rw [behind]
    split
    · rename_i hon
      rcases hhere : s.buffer[i]? with _ | t
      · rw [hhere] at hon
        cases hon
      · rw [hhere] at hon
        rw [behind, hhere]
        refine .found (Nat.lt_succ_self i) hhere (beq_iff_eq.1 hon) fun k u hk hlt => ?_
        omega
    · rename_i hoff
      -- the token at `i` is stepped over
      have hskip (u : Token) (hu : s.buffer[i]? = some u) : u.channel ≠ s.channel := by
        rw [hu] at hoff
        simpa using hoff
      generalize s.behind 1 i = found at ih
      cases ih with
      | @found j t hlt hhere hchannel hnearest =>
        refine .found (Nat.lt_succ_of_lt hlt) hhere hchannel fun k u hjk hk hu => ?_
        rcases Nat.lt_succ_iff_lt_or_eq.1 hk with hk | rfl
        · exact hnearest k u hjk hk hu
        · exact hskip u hu
      | nothing hnone =>
        refine .nothing fun k u hk hu => ?_
        rcases Nat.lt_succ_iff_lt_or_eq.1 hk with hk | rfl
        · exact hnone k u hk hu
        · exact hskip u hu

/-- Between two places there is nothing if no token of the channel is there. -/
lemma tokensBetween_eq_nil {input : Array Token × Channel}
    (h : ∀ k u, i ≤ k → k < j → input.1[k]? = some u → u.channel ≠ input.2) :
    tokensBetween input i j = [] := by
  rw [List.eq_nil_iff_forall_not_mem]
  intro t ht
  obtain ⟨k, hik, hkj, hk, hchannel, -⟩ := mem_tokensBetween.1 ht
  exact h k t hik hkj hk hchannel

/-- Behind the last token of the channel there is nothing more. -/
lemma tokensBetween_eq_upTo {input : Array Token × Channel} {l : Nat} (hlt : l < j)
    (h : ∀ k u, l < k → k < j → input.1[k]? = some u → u.channel ≠ input.2) :
    tokensBetween input i j = tokensBetween input i (l + 1) := by
  rcases Nat.lt_or_ge (l + 1) i with hgt | hle
  · rw [tokensBetween_eq_nil fun k u hk hkj hu => h k u (by omega) hkj hu,
      tokensBetween_eq_nil fun k u hk hkl _ => by omega]
  · rw [tokensBetween_append hle hlt,
      tokensBetween_eq_nil (i := l + 1) fun k u hk hkj hu => h k u hk hkj hu, List.append_nil]

/-- The text of the channel between buffered places. -/
lemma channelText_eq (hj : j < s.buffer.size) (i : Nat) :
    s.channelText i j =
      String.intercalate " " ((tokensBetween (View.input s) i (j + 1)).map Token.text) := by
  have hslice (tokens : List Token) : (tokens.drop i).take (j + 1 - i) =
      (tokens.take (j + 1)).drop i := by rw [List.drop_take]
  rw [channelText, tokensBetween, hslice, hslice, toList_take_fill hj]
  rfl

end TokenStream

namespace Parser

open TokenStream

variable {σ : Type} [TokenSource σ] {r r₁ r₂ r₃ : Parser σ} {f : Failure}

/-- An error node spans the tokens from one place up to before another one: it has their texts, and
between its bounds are they and no other token of the channel.  If there are none, then its bounds
hold nothing. -/
structure Spans (n : TreeNode) (input : Array Token × Channel) (i j : Nat) : Prop where
  label_eq : n.label =
    .error (String.intercalate " " ((tokensBetween input i j).map Token.text))
  first_eq : n.firstToken = some i
  bounds : ∀ k t, input.1[k]? = some t → t.channel = input.2 →
    ((i ≤ k ∧ ∃ last, n.lastToken = some last ∧ k ≤ last) ↔ i ≤ k ∧ k < j)
  empty : tokensBetween input i j = [] → ∀ last, n.lastToken = some last → last < i

section

variable {n : TreeNode} {input : Array Token × Channel} {i j l : Nat} {t : Token}

/-- There is nothing to span up to `j`. -/
lemma spans_nothing (hlabel : n.label = .error "") (hfirst : n.firstToken = some i)
    (hlast : n.lastToken = none)
    (hoff : ∀ k u, k < j → input.1[k]? = some u → u.channel ≠ input.2) : Spans n input i j where
  label_eq := by
    rw [hlabel, tokensBetween_eq_nil fun k u _ hk hu => hoff k u hk hu]
    rfl
  first_eq := hfirst
  bounds := by
    intro k t hk hchannel
    constructor
    · rintro ⟨-, last, hsome, -⟩
      cases hlast.symm.trans hsome
    · rintro ⟨-, hlt⟩
      exact absurd hchannel (hoff k t hlt hk)
  empty := by
    intro _ last hsome
    cases hlast.symm.trans hsome

/-- The last token before `j` is at `l`, be that behind or in front of where the node begins. -/
lemma spans_upTo (hlt : l < j) (hhere : input.1[l]? = some t) (hchannel : t.channel = input.2)
    (heof : t.isEof = false)
    (hoff : ∀ k u, l < k → k < j → input.1[k]? = some u → u.channel ≠ input.2)
    (hlabel : n.label =
      .error (String.intercalate " " ((tokensBetween input i (l + 1)).map Token.text)))
    (hfirst : n.firstToken = some i) (hlast : n.lastToken = some l) : Spans n input i j where
  label_eq := by rw [hlabel, tokensBetween_eq_upTo hlt hoff]
  first_eq := hfirst
  bounds := by
    intro k u hk hc
    have hwithin : k ≤ l ↔ k < j := by
      constructor
      · exact fun hkl => Nat.lt_of_le_of_lt hkl hlt
      · intro hkj
        by_contra hkl
        exact hoff k u (Nat.lt_of_not_le hkl) hkj hk hc
    simp only [hlast, Option.some.injEq, exists_eq_left', hwithin]
  empty := by
    intro hnil last hsome
    obtain rfl := Option.some.inj (hlast.symm.trans hsome)
    by_contra hge
    have hmem : t ∈ tokensBetween input i j :=
      mem_tokensBetween.2 ⟨l, Nat.le_of_not_lt hge, hlt, hhere, hchannel, heof⟩
    rw [hnil] at hmem
    cases hmem

end

/-- The node that stands in for a rule, from the place where the rule began to the cursor. -/
lemma spans_standIn {start : RuleStart} (hr : Ready r.input) (hnumbered : r.input.fill.Numbered)
    (hstart : start.token.index = some start.index) :
    Spans ((standIn start r).2.node (standIn start r).1) (View.input r.input) start.index
      r.input.place := by
  have hget {k : Nat} (hk : k < r.input.place) : r.input.fill.buffer[k]? = r.input.buffer[k]? :=
    getElem?_fill (Nat.lt_trans hk hr.buffered)
  have hsize : r.input.place < r.input.fill.buffer.size :=
    Nat.lt_of_lt_of_le hr.buffered (Extends.fill r.input).size_le
  have hbehind := behind_one r.input r.input.place
  unfold standIn Tree.newError
  generalize r.input.behind 1 r.input.place = last at hbehind
  have hid (n : TreeNode) : (r.own.tree.alloc n).1 = r.own.tree.size := rfl
  simp only [Tree.node_alloc, hid, if_true]
  cases hbehind with
  | nothing hnone =>
    exact spans_nothing rfl hstart rfl fun k u hk hu => hnone k u hk ((hget hk).symm.trans hu)
  | @found l t hlt hhere hchannel hnearest =>
    have hon : (View.input r.input).1[l]? = some t := (hget hlt).trans hhere
    have hindex : t.index = some l := hnumbered l t hon
    have heof : t.isEof = false := isEof_eq_false_of_lt hr.sound hon hlt hsize
    refine spans_upTo hlt hon hchannel heof
      (fun k u hlk hk hu => hnearest k u hlk hk ((hget hk).symm.trans hu)) ?_ hstart hindex
    simp only [Option.bind_some, hindex]
    split
    · rw [channelText_eq (Nat.lt_trans hlt hr.buffered)]
      rfl
    · rename_i hgt
      rw [tokensBetween_eq_nil fun k u hk hkl _ => by omega]
      rfl

/-- Where nothing is recorded, nothing is done. -/
lemma eq_of_replay {rule : Rule} (h : replay rule r = some (.ok false, r₁)) : r₁ = r := by
  simp only [replay, isMemoizing, bind_apply, index_apply, readState_apply] at h
  split at h
  · rcases hentry : r.state.memoized rule (Cursor.index r.input) with _ | (stop | _)
    all_goals simp only [bind_apply, readState_apply, hentry] at h
    · exact (Prod.mk.inj (Option.some.inj h)).2.symm
    · cases h
    · cases h
  · exact (Prod.mk.inj (Option.some.inj h)).2.symm

/-- A rule begins where its first token is read. -/
lemma enterRule_eq_ok {rule : Rule} {follow : TokenSet} {start : RuleStart}
    (h : enterRule rule follow r = some (.ok (some start), r₁)) :
    r₁.input = (Cursor.symbol r.input).2 ∧ start.token = (Cursor.symbol r.input).1 ∧
      start.index = r₁.input.place := by
  rcases bind_eq_some.1 h with ⟨replayed, r', hreplay, hrest⟩ | ⟨e, -, he⟩
  · cases replayed with
    | true => cases hrest
    | false =>
      obtain rfl := eq_of_replay hreplay
      obtain ⟨hstart, rfl⟩ := Prod.mk.inj (Option.some.inj hrest)
      obtain rfl := Option.some.inj (Except.ok.inj hstart)
      exact ⟨rfl, rfl, rfl⟩
  · cases he

/-- The token that a rule begins with knows where that is, and the stream is started with it. -/
lemma symbol_of_reaches {s : TokenStream σ} (h : ∃ s₀, View.Fresh s₀ ∧ Reaches s₀ s) :
    Live (Cursor.symbol s).2 ∧ (Cursor.symbol s).1.index = some (Cursor.symbol s).2.place := by
  obtain ⟨s₀, hfresh, hreach⟩ := h
  obtain ⟨source, channel, name, rfl⟩ := id hfresh
  have horderly : s.Orderly := by
    induction hreach with
    | refl => exact orderly_ofSource source channel name
    | tail _ hstep ih => exact ih.step hstep
  obtain ⟨t, ht, hhere⟩ := tokenAt_one horderly.start
  have hsymbol : Cursor.symbol s = (t, s.start) := by
    show ((s.tokenAt 1).1.getD _, (s.tokenAt 1).2) = _
    rw [← tokenAt_start, ht]
    rfl
  have hlive : Live (Cursor.symbol s).2 := by
    refine ⟨⟨_, hfresh, hreach.trans (Step.symbol s).reaches⟩, ?_⟩
    rw [hsymbol]
    exact started_start s
  refine ⟨hlive, ?_⟩
  rw [hsymbol] at hlive ⊢
  exact numbered_fill_of_live hlive _ t hhere

/-- A rule is entered, which is noted before its body is run. -/
def entered (rule : Rule) (r : Parser σ) : Parser σ :=
  { r with trace := r.trace.push (.entered rule.name r.input.place none) }

/-- A call that is left properly returns what was made there, and has the logs of its body and of
the way in which it is left. -/
lemma Journal.call_of_exit {ε : Type} (k : Journal ε σ) {rule : Rule} {follow : TokenSet}
    {start : RuleStart} {node : Option NodeId} {body : Logged ε (Parser σ) Unit} {log log' : List ε}
    {o : Except Fault (Option NodeId)}
    (henter : enterRule rule follow r = some (.ok (some start), r₁))
    (hbody : Journal.runBody start body (entered rule r₁) = some (log, o, r₂))
    (hexit : k.exitRule start o r₂ = some (log', .ok node, r₃)) :
    ∃ e, k.call rule follow body r =
      some (log ++ log', .ok node, { r₃ with trace := r₃.trace.push e }) := by
  have hbody' : Journal.runBody start body
      { r₁ with trace := r₁.trace.push (.entered rule.name (Cursor.index r₁.input) none) } =
        some (log, o, r₂) := hbody
  refine ⟨.exited rule.name (Cursor.index r₃.input) none
    (node.map fun id => r₃.own.tree.render id), ?_⟩
  rw [Journal.call]
  simp only [Logged.bind_apply, Logged.silent, Logged.attempt, attempt_apply, henter,
    Option.map_some, index_apply, note_apply, ofExcept_apply, Fault.ofOutcome, hbody', hexit,
    readOwn_apply, List.nil_append, List.append_nil]
  cases node with
  | none => rfl
  | some node => rfl

/-- **Error nodes span what their rule has passed.**  The statements of the grammar leave it to
predictions, syntactic predicates and matches to move the cursor (`Guided`, and `Pure` for its
semantic predicates), and the stream was operated in any way before.  A rule is entered with
such a recognizer (`henter`), its body fails (`hbody`), and the failure is recovered from when
the rule is left (`hexit`).

Then the call as a whole returns an error node.  It spans the tokens from where the rule began
to the cursor: it has their texts, one space apart, and between its bounds are they and no other
token of the channel (`Spans`).  These tokens are what was matched, dropped and skipped in the
call, in order, as the log of its stations has it. -/
theorem errorNode_spans {g : Grammar ParserInstruction} (hg : g.All Statement.Guided)
    (hpure : g.Pure) (fuel : Nat) {rule : Nat} {follow : TokenSet} {start : RuleStart}
    {node : Option NodeId} (hreach : ∃ s₀, View.Fresh s₀ ∧ Reaches s₀ r.input)
    (henter : enterRule (g.rule rule) follow r = some (.ok (some start), r₁))
    (hbody : runBody start (Parser.run g fuel (g.body rule)) (entered (g.rule rule) r₁) =
      some (.error (.failed f), r₂))
    (hexit : exitRule start (.error (.failed f)) r₂ = some (.ok node, r₃)) :
    ∃ id log r', callRule g fuel rule follow r = some (.ok (some id), r') ∧
      accounts.callRule g fuel rule follow r = some (log, .ok (some id), r') ∧
      log.flatMap (fun st => st.move.tokens) =
        tokensBetween (View.input r₁.input) r₁.input.place r'.input.place ∧
      Spans (r'.own.tree.node id) (View.input r₁.input) r₁.input.place r'.input.place := by
  obtain ⟨hinput₁, htoken, hindex⟩ := enterRule_eq_ok henter
  obtain ⟨hlive, hstart⟩ := symbol_of_reaches hreach
  rw [← hinput₁] at hlive
  rw [← htoken, ← hinput₁, ← hindex] at hstart
  have hrec := recovers_of_exitRule hexit
  -- the body keeps the depth, at which the failure is recovered from
  have hkeeping : g.All Statement.Keeping := hg.mono fun _ => Statement.Guided.keeping
  have htame : Within Tame (runBody start (Parser.run g fuel (g.body rule)) :
      Action (Parser σ) (Option NodeId)) :=
    runBody_within (fun _ _ h => tame_of_onward h.still.onward) start
      (tame_run hkeeping fuel (hkeeping.body rule))
  have hreal : r₁.state.backtracking = 0 :=
    (htame hbody hlive.ready).2.2.symm.trans hrec.backtracking_eq
  have hnoted : Course r₁ [] (entered (g.rule rule) r₁) :=
    .of_waits hlive.ready ⟨Stays.refl _, rfl⟩
  have hloggedBody : Logged.forget
      (Journal.runBody start (accounts.run g fuel (g.body rule))) (entered (g.rule rule) r₁) =
        some (.error (.failed f), r₂) := by
    rw [Journal.forget_runBody, Journal.forget_run]
    exact hbody
  obtain ⟨log, hlog⟩ := Logged.exists_log hloggedBody
  have hinside := hnoted.trans
    (travels_keeps.runBody start (travels_run hg hpure fuel (hg.body rule)) hlog hnoted.ready hreal)
  have hloggedExit : Logged.forget
      (accounts.exitRule start (.error (.failed f)) : Logged Station (Parser σ) _) r₂ =
        some (.ok node, r₃) := by
    rw [Journal.forget_exitRule]
    exact hexit
  obtain ⟨log', hlog'⟩ := Logged.exists_log hloggedExit
  have hleaving := travels_keeps.exitRule start _ hlog' hinside.ready hrec.backtracking_eq
  -- the node is made at the end of the way
  obtain ⟨e, hcall⟩ := accounts.call_of_exit henter hlog hlog'
  have hleft : Course r₃ [] { r₃ with trace := r₃.trace.push e } :=
    .of_waits hleaving.ready ⟨Stays.refl _, rfl⟩
  have hwhole := (hinside.trans hleaving).trans hleft
  rw [List.nil_append, List.append_nil] at hwhole
  obtain ⟨o, r', hwork, heq⟩ := exitRule_of_recovers start hinside.ready hrec
  obtain ⟨hok, rfl⟩ := Prod.mk.inj (Option.some.inj (heq.symm.trans hexit))
  cases o with
  | error fault => cases hok
  | ok _ =>
    obtain rfl := Except.ok.inj hok
    have hforget := Logged.forget_eq_some hcall
    rw [Journal.forget_call, Journal.forget_run] at hforget
    refine ⟨_, _, _, hforget, hcall, hwhole.tokens_eq, ?_⟩
    have hinput : View.input r'.input = View.input r₁.input := hwhole.input_eq
    have hnumbered : r'.input.fill.Numbered := (numbered_fill_of_live hlive).of_input_eq hinput
    have hspans : Spans _ _ start.index _ := spans_standIn hwork.ready hnumbered hstart
    rw [hinput, hindex] at hspans
    exact hspans

/-- A token of another channel. -/
def hidden : Token := { Token.ofText 9 "_" with channel := 1 }

/-- A parser in front of the first half of a pair, and of two tokens that nobody expects. -/
def spoiledPair : Parser (List Token) :=
  .ofStream ((TokenStream.ofSource [hidden, Token.ofText 4 "a", hidden, Token.ofText 6 "x",
    Token.ofText 6 "y", hidden, Token.ofText 7 ";"] 0 "").seek 0) .standard (.tokens #[])

/-- The failure that a run came out with. -/
def failureOf {α : Type} : Except Fault α → Option Failure
  | .error (.failed f) => some f
  | _ => none

lemma eq_of_failureOf {α : Type} {o : Except Fault α} {f : Failure} (h : failureOf o = some f) :
    o = .error (.failed f) := by
  rcases o with (g | _ | _) | _
  · rw [Option.some.inj h]
  all_goals cases h

/-- The error node has what was matched and what was skipped. -/
theorem errorNode_spans_spoiledPair :
    ∃ id r', callRule pair 4 0 (.ofTypes [7]) spoiledPair = some (.ok (some id), r') ∧
      (r'.own.tree.node id).label = .error "a x y" ∧ (r'.own.tree.node id).firstToken = some 1 := by
  have hpair : pair.All Statement.Guided := by
    apply Grammar.all_of_mem
    all_goals simp [pair, Statement.all_iff, Statement.blocks, Statement.Guided]
  have hreach : ∃ s₀, View.Fresh s₀ ∧ Reaches s₀ spoiledPair.input :=
    ⟨_, ⟨_, _, _, rfl⟩, (Step.seek _ 0).reaches⟩
  have hsteps : ((enterRule (pair.rule 0) (.ofTypes [7]) spoiledPair).bind fun entry =>
      entry.1.toOption.join.bind fun start =>
        (runBody start (run pair 4 (pair.body 0)) (entered (pair.rule 0) entry.2)).bind fun body =>
          (failureOf body.1).bind fun f =>
            (exitRule start (.error (.failed f)) body.2).map fun result =>
              (result.1.toBool, entry.2.input.place,
                (tokensBetween (View.input entry.2.input) 1 6).map Token.text)) =
      some (true, 1, ["a", "x", "y"]) := by
    decide +kernel
  have hend : ((callRule pair 4 0 (.ofTypes [7]) spoiledPair).map fun result =>
      result.2.input.place) = some 6 := by
    decide +kernel
  obtain ⟨⟨entry, r₁⟩, henter, hsteps⟩ := Option.bind_eq_some_iff.1 hsteps
  obtain ⟨start, hstart, hsteps⟩ := Option.bind_eq_some_iff.1 hsteps
  rcases entry with _ | entry
  · cases hstart
  obtain rfl : entry = some start := hstart
  obtain ⟨⟨o, r₂⟩, hbody, hsteps⟩ := Option.bind_eq_some_iff.1 hsteps
  obtain ⟨f, hfailed, hsteps⟩ := Option.bind_eq_some_iff.1 hsteps
  obtain rfl : o = .error (.failed f) := eq_of_failureOf hfailed
  obtain ⟨⟨result, r₃⟩, hexit, hvalues⟩ := Option.map_eq_some_iff.1 hsteps
  obtain ⟨hok, hrest⟩ := Prod.mk.inj hvalues
  obtain ⟨hplace, htexts⟩ := Prod.mk.inj hrest
  rcases result with _ | node
  · cases hok
  obtain ⟨id, log, r', hcall, -, -, hspans⟩ := errorNode_spans hpair
    (fun id value h => by simp [Grammar.predicate?, pair] at h) 4 hreach henter hbody hexit
  rw [hcall] at hend
  have hstop : r'.input.place = 6 := Option.some.inj hend
  have hlabel := hspans.label_eq
  rw [hplace, hstop, htexts] at hlabel
  exact ⟨id, r', hcall, hlabel, hspans.first_eq.trans (congrArg some hplace)⟩

end Parser

end Lookahead
