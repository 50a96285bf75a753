import Lookahead.Grammar.Parsing
import Lookahead.Proofs.Grammar.Run
import Lookahead.Proofs.Parser.Repair

/-!
# What the instructions of parser grammars keep

Beyond keeping books, an instruction either matches something and notes the match, or calls a rule.
Every instruction therefore keeps a relation that holds of what is `Calm` and of a match together
with its note (`perform_within`).

The first case of that is `Tame`: a program that neither rewinds nor releases marks and does not set
the depth of backtracking leaves all marks open, and the depth as it was (`tame_run`).
-/

namespace Lookahead

open Action Cursor Recognizer

variable {σ : Type} [TokenSource σ]

/-- The note that an instruction has matched a token, be it for a leaf or for a root. -/
def Event.Matches : Event → Prop
  | .matchedToken _ | .rooted _ => True
  | _ => False

/-- The note of a rule that is entered or left. -/
def Event.Crossing : Event → Prop
  | .entered _ _ _ | .exited _ _ _ _ => True
  | _ => False

/-- A token can always be put over a root: its node is not a list. -/
lemma Tree.becomeRoot_newToken (t : Tree) (token : Token) (root : NodeId) :
    ∃ made, (t.newToken token).2.becomeRoot (t.newToken token).1 root = .ok made := by
  have hlabel : (t.newToken token).2.isList (t.newToken token).1 = false := by
    simp only [newToken, isList, label, node_alloc, TreeNode.single]
    rw [if_pos (by rfl)]
    rfl
  exact ⟨_, by rw [becomeRoot, hlabel]; rfl⟩

namespace Parser

variable {α : Type} {R : Parser σ → Parser σ → Prop} [IsPreorder (Parser σ) R]
  {run : Block ParserInstruction → Action (Parser σ) Unit}

/-! ## Matches with their trees -/

omit [TokenSource σ] in
lemma returns_isBacktracking_bind {x : Bool → Action (Parser σ) α}
    (hx : ∀ b, Returns (x b) fun _ => True) : Returns (isBacktracking >>= x) fun _ => True := by
  intro r o r' hrun
  exact hx _ hrun

omit [TokenSource σ] in
lemma returns_addLeaf (parent : Option NodeId) (token : Token) :
    Returns (addLeaf parent token : Action (Parser σ) Unit) fun _ => True := by
  refine returns_isBacktracking_bind fun backtracking => ?_
  split
  · unfold stepTree stepOwn
    exact Returns.step.bind fun leaf _ => Returns.update
  · exact Returns.pure trivial

omit [TokenSource σ] in
lemma returns_addRoot (root : Option NodeId) (token : Token) :
    Returns (addRoot root token : Action (Parser σ) (Option NodeId)) fun _ => True := by
  refine returns_isBacktracking_bind fun backtracking => ?_
  split
  · rename_i root
    intro r o r' hrun
    obtain ⟨made, hmade⟩ := r.own.tree.becomeRoot_newToken token root
    simp only [stepTree, bind_apply, stepOwn_apply, readOwn_apply, hmade] at hrun
    obtain ⟨rfl, -⟩ := Prod.mk.inj (Option.some.inj hrun)
    exact ⟨_, rfl, trivial⟩
  · exact Returns.pure trivial

lemma mends_matchChild (parent : Option NodeId) (type : TokenType) (follow : TokenSet) :
    Mends (matchChild parent type follow : Action (Parser σ) Token) :=
  (mends_matchToken type follow).and_then
    (fun token => still_of_rests ((rests_addLeaf parent token).bind fun _ => Within.pure token))
    fun token => (returns_addLeaf parent token).bind fun _ _ => Returns.pure trivial

lemma rests_setRoot (root : Option NodeId) : Within Rests (setRoot root : Action (Parser σ) Unit) :=
  rests_updateOwn

/-- A match that becomes the root of the current rule. -/
lemma mends_matchRoot (root : Option NodeId) (type : TokenType) (follow : TokenSet) :
    Mends (do
      let node ← matchRoot root type follow
      setRoot node
      return node : Action (Parser σ) (Option NodeId)) := by
  unfold matchRoot
  rw [bind_assoc]
  refine (mends_matchToken type follow).and_then (fun token => ?_) fun token => ?_
  · exact still_of_rests ((rests_addRoot root token).bind fun node =>
      (rests_setRoot node).bind fun _ => Within.pure node)
  · exact (returns_addRoot root token).bind fun node _ =>
      Returns.update.bind fun _ _ => Returns.pure trivial

/-! ## Instructions -/

omit [TokenSource σ] in
lemma withRoot_within (hset : ∀ root, Within R (setRoot root : Action (Parser σ) Unit))
    {root : Option NodeId} {body : Action (Parser σ) α} (hbody : Within R body) :
    Within R (withRoot root body) := by
  refine (Within.read _).bind fun outer => (hset root).bind fun _ => ?_
  refine hbody.attempt.bind fun outcome => (Within.read _).bind fun inner => ?_
  exact (hset outer).bind fun _ =>
    (Within.ofExcept outcome).discard.bind fun _ => Within.pure _

lemma runBody_within (hrests : ∀ r r', Rests r r' → R r r') (start : RuleStart)
    {body : Action (Parser σ) Unit} (hbody : Within R body) : Within R (runBody start body) :=
  (rests_beginTree.mono hrests).bind fun _ =>
    (withRoot_within (fun root => (rests_setRoot root).mono hrests) hbody).bind fun root =>
      (rests_finishTree root start).mono hrests

/-- A rule call keeps what its body keeps, if rules are noted, entered and left under it. -/
lemma call_within (hrests : ∀ r r', Rests r r' → R r r')
    (hnote : ∀ e : Event, e.Crossing → Within R (note e : Action (Parser σ) Unit)) {rule : Rule}
    {follow : TokenSet} (henter : Within R (enterRule rule follow))
    (hexit : ∀ start outcome, Within R (exitRule start outcome))
    {body : Action (Parser σ) Unit} (hbody : Within R body) : Within R (call rule follow body) := by
  refine henter.attempt.bind fun entry => (Within.read _).bind fun index =>
    (hnote (.entered _ _ _) trivial).bind fun _ => ?_
  refine (Within.ofExcept entry).bind fun entered => ?_
  cases entered with
  | none => exact Within.pure none
  | some start =>
    refine (runBody_within hrests start hbody).attempt.bind fun outcome => ?_
    refine (hexit start outcome).attempt.bind fun result => ?_
    exact (Within.read _).bind fun tree => (Within.read _).bind fun index =>
      (hnote (.exited _ _ _ _) trivial).bind fun _ => Within.ofExcept result

/-- An instruction keeps what is kept by everything calm, by a match with its note, and by the notes
of a rule call. -/
lemma perform_within {g : Grammar ParserInstruction} (hcalm : ∀ r r', Calm r r' → R r r')
    (hnote : ∀ e : Event, e.Crossing → Within R (note e : Action (Parser σ) Unit))
    (hmatch : ∀ {β γ : Type} {x : Action (Parser σ) β} (e : β → Event)
      {f : β → Action (Parser σ) γ}, Mends x → (∀ b, (e b).Matches) → (∀ b, Within R (f b)) →
        Within R (x >>= fun b => do note (e b); f b))
    (hrun : ∀ rule, Within R (run (g.body rule))) (i : ParserInstruction) :
    Within R (perform g run i) := by
  have hbooks {β : Type} {x : Action (Parser σ) β} (hx : Within Rests x) : Within R x :=
    hx.mono fun r r' h => hcalm r r' h.still.calm
  have hroot : Within R (currentRoot : Action (Parser σ) (Option NodeId)) := Within.read _
  have hleaf (token : Token) :
      Within R (do addLeaf (← currentRoot) token : Action (Parser σ) Unit) :=
    hroot.bind fun root => hbooks (rests_addLeaf root token)
  have hlast {β : Type} {x : Action (Parser σ) β} {e : β → Event} (hx : Mends x)
      (he : ∀ b, (e b).Matches) : Within R (x >>= fun b => note (e b)) := by
    simpa only [bind_pure_unit] using hmatch e hx he fun _ => Within.pure ()
  cases i with
  | token type follow => exact hlast (mends_matchToken type follow) fun _ => trivial
  | child type follow =>
    exact hroot.bind fun root => hlast (mends_matchChild root type follow) fun _ => trivial
  | root type follow =>
    refine hroot.bind fun root => ?_
    simpa only [bind_assoc, pure_bind] using
      hlast (e := .rooted) (mends_matchRoot root type follow) fun _ => trivial
  | set types follow =>
    exact hmatch .matchedToken (mends_matchSet types follow) (fun _ => trivial) hleaf
  | any => exact hmatch .matchedToken closes_matchAny.mends (fun _ => trivial) hleaf
  | call rule follow =>
    have henter : Within R (enterRule (g.rule rule) follow) :=
      (still_enterRule _ follow).mono fun r r' h => hcalm r r' h.calm
    have hcall : Within R (call (g.rule rule) follow (run (g.body rule))) :=
      call_within (fun r r' h => hcalm r r' h.still.calm) hnote henter
        (fun start outcome => (calm_exitRule start outcome).mono hcalm) (hrun rule)
    exact hcall.bind fun node => hroot.bind fun root => hbooks (rests_addSubtree root node)

/-! ## Programs that pop no marks -/

lemma tame_of_onward {r r' : Parser σ} (h : Onward r r') : Tame r r' :=
  Tame.of_roams h.roams h.backtracking_eq

lemma tame_note (e : Event) : Within Tame (note e : Action (Parser σ) Unit) :=
  Within.update fun _ => Tame.of_input_eq rfl rfl

lemma tame_setRoot (root : Option NodeId) :
    Within Tame (setRoot root : Action (Parser σ) Unit) :=
  (rests_setRoot root).mono fun _ _ h => tame_of_onward h.still.onward

lemma tame_kept {g : Grammar ParserInstruction} (hg : g.All Statement.Keeping) :
    Grammar.Kept (S := TokenStream σ) dialect g Statement.Keeping Tame where
  lookahead := Tame.lookahead
  symbol := Tame.symbol
  consume := Tame.consume
  seek := Tame.seek
  note e _ := tame_note e
  fail := Tame.fail
  synpred := Tame.synpred
  speculating := Tame.speculating
  apart hx := (withRoot_within tame_setRoot hx).discard
  plain hs hplain run fuel := Grammar.tame_plain hs hplain _ _ run fuel
  perform _ _ hrun := by
    refine perform_within (fun _ _ h => tame_of_onward h.toOnward) (fun e _ => tame_note e)
      (fun e _ hx _ hf => ?_) (fun rule => hrun _ (hg.body rule)) _
    exact (hx.onward.mono fun _ _ => tame_of_onward).bind fun b => (tame_note _).bind fun _ => hf b

/-- **A program that pops no marks keeps them.**  All marks that were open are open when it ends,
and backtracking is as deep as before. -/
theorem tame_run {g : Grammar ParserInstruction} (hg : g.All Statement.Keeping) (fuel : Nat)
    {block : Block ParserInstruction} (hblock : Block.All Statement.Keeping block) :
    Within Tame (Parser.run g fuel block : Action (Parser σ) Unit) :=
  Grammar.run_within (tame_kept hg) hg fuel hblock

end Parser

end Lookahead
