import Lookahead.Proofs.TokenSet
import Lookahead.Recognizer.State
import Mathlib.Data.List.Basic
import Mathlib.Data.List.Forall2

/-!
# What may follow a stack of rules

The two unions of follow sets in closed form: a type is in the recovery set if some follow set of
the stack has it (`Resumes`), and in the exact follow set if the rules inside that one can all end
(`Succeeds`).

A recognizer does not keep its unions by the whole shape of a stack.  Each frame gets a *signature*
when it is pushed, made from the signature below it, and unions are kept by the signature on top
(`SignedStack`).  As long as the stacks that came up have different signatures where they differ,
what is kept is right for the stack it is asked for (`SignedStack.sameAs_ask`).  A `State` is such a
stack (`State.signed_obey`), so the same holds of it (`State.sameAs_follow_foldl`); and in any single
state it is enough that no union is known by the signature of the present stack that was computed
for another one (`State.Unmistaken`).
-/

namespace Lookahead

open TokenSet

variable {s t : TokenSet} {follows follows' : List TokenSet} {x : TokenType} {exact : Bool}

/-! ## Closed forms -/

/-- Some follow set of the stack has the type, so that some rule in progress could go on with it. -/
def Resumes (follows : List TokenSet) (x : TokenType) : Prop := ∃ f ∈ follows, f.has x = true

/-- Some follow set of the stack has the type, and all rules inside that one can end. -/
def Continues (follows : List TokenSet) (x : TokenType) : Prop :=
  ∃ inner f outer, follows = inner ++ f :: outer ∧ f.has x = true ∧
    ∀ g ∈ inner, g.has .endOfRule = true

/-- What can really stand behind the innermost rule: a type that is reached, or the end of a rule
if all rules can end. -/
def Succeeds (follows : List TokenSet) (x : TokenType) : Prop :=
  if x = .endOfRule then follows ≠ [] ∧ ∀ f ∈ follows, f.has .endOfRule = true
  else Continues follows x

lemma continues_nil : ¬ Continues [] x := by
  rintro ⟨inner, f, outer, h, -⟩
  simp at h

lemma continues_cons {f : TokenSet} : Continues (f :: follows) x ↔
    f.has x = true ∨ f.has .endOfRule = true ∧ Continues follows x := by
  constructor
  · rintro ⟨inner, g, outer, heq, hg, hinner⟩
    rcases inner with _ | ⟨f', inner⟩
    · obtain ⟨rfl, -⟩ := List.cons.inj heq
      exact .inl hg
    · obtain ⟨rfl, rfl⟩ := List.cons.inj heq
      exact .inr ⟨hinner f (by simp), inner, g, outer, rfl, hg, fun k hk => hinner k (by simp [hk])⟩
  · rintro (hf | ⟨hend, inner, g, outer, rfl, hg, hinner⟩)
    · exact ⟨[], f, follows, rfl, hf, by simp⟩
    · refine ⟨f :: inner, g, outer, rfl, hg, fun k hk => ?_⟩
      rcases List.mem_cons.1 hk with rfl | hk
      · exact hend
      · exact hinner k hk

lemma has_recoveryUnion : (recoveryUnion s follows).has x = true ↔
    s.has x = true ∨ Resumes follows x := by
  induction follows generalizing s with
  | nil => simp [recoveryUnion, Resumes]
  | cons f outer ih =>
    rw [recoveryUnion, ih, has_union]
    simp [Resumes, or_assoc]

lemma has_exactUnion (hx : x ≠ .endOfRule) : (exactUnion s follows).has x = true ↔
    s.has x = true ∨ Continues follows x := by
  induction follows generalizing s with
  | nil => simp [exactUnion, continues_nil]
  | cons f outer ih =>
    rw [continues_cons, ← or_assoc]
    by_cases hf : f.has .endOfRule = true
    · have hkept : (if outer.isEmpty then s.union f
          else (s.union f).eraseType .endOfRule).has x = (s.has x || f.has x) := by
        split <;> simp [has_union, has_eraseType, hx]
      simp only [exactUnion, if_pos hf]
      rw [ih, hkept, Bool.or_eq_true, and_iff_right hf]
    · simp only [exactUnion, if_neg hf]
      rw [has_union, Bool.or_eq_true]
      simp [hf]

/-- The marker is taken out again before it gets to the next rule. -/
lemma has_exactUnion_endOfRule (hs : s.has .endOfRule = false) (hne : follows ≠ []) :
    (exactUnion s follows).has .endOfRule = true ↔ ∀ f ∈ follows, f.has .endOfRule = true := by
  induction follows generalizing s with
  | nil => exact absurd rfl hne
  | cons f outer ih =>
    by_cases hf : f.has .endOfRule = true
    · simp only [exactUnion, if_pos hf]
      rcases outer with _ | ⟨g, outer⟩
      · simp [exactUnion, has_union, hf]
      · rw [List.isEmpty_cons, if_neg (by simp), ih (by simp [has_eraseType]) (by simp),
          List.forall_mem_cons (a := f), and_iff_right hf]
    · simp only [exactUnion, if_neg hf]
      simp [has_union, hs, hf]

lemma has_combinedFollow_false : (combinedFollow false follows).has x = true ↔
    Resumes follows x := by
  rw [combinedFollow, if_neg (by simp), has_recoveryUnion]
  simp

lemma has_combinedFollow_true : (combinedFollow true follows).has x = true ↔
    Succeeds follows x := by
  rw [combinedFollow, if_pos rfl, Succeeds]
  split
  · rename_i hx
    rw [hx]
    rcases follows with _ | ⟨f, outer⟩
    · simp [exactUnion]
    · rw [has_exactUnion_endOfRule (by simp) (by simp)]
      simp
  · rename_i hx
    rw [has_exactUnion hx]
    simp

/-! ## Stacks with the same follow sets -/

lemma recoveryUnion_congr (hs : s.sameAs t = true)
    (h : List.Forall₂ (fun f f' => f.sameAs f' = true) follows follows') :
    (recoveryUnion s follows).sameAs (recoveryUnion t follows') = true := by
  induction h generalizing s t with
  | nil => exact hs
  | cons hf _ ih => exact ih (sameAs_union hs hf)

lemma exactUnion_congr (hs : s.sameAs t = true)
    (h : List.Forall₂ (fun f f' => f.sameAs f' = true) follows follows') :
    (exactUnion s follows).sameAs (exactUnion t follows') = true := by
  induction h generalizing s t with
  | nil => exact hs
  | cons hf houter ih =>
    rename_i f f' outer outer'
    have hends : f.has .endOfRule = f'.has .endOfRule := sameAs_iff.1 hf _
    have hempty : outer.isEmpty = outer'.isEmpty := by cases houter <;> rfl
    have hunion := sameAs_union hs hf
    simp only [exactUnion, hends, hempty]
    split
    · refine ih ?_
      split
      · exact hunion
      · exact sameAs_eraseType hunion _
    · exact hunion

/-- Both unions depend on the types in the follow sets alone. -/
lemma combinedFollow_congr (exact : Bool)
    (h : List.Forall₂ (fun f f' => f.sameAs f' = true) follows follows') :
    (combinedFollow exact follows).sameAs (combinedFollow exact follows') = true := by
  cases exact
  · exact recoveryUnion_congr (sameAs_refl _) h
  · exact exactUnion_congr (sameAs_refl _) h

/-! ## Signatures -/

/-- A frame that bears the signature of the stack that it is on top of. -/
structure SignedFrame (κ : Type) extends Frame where
  signature : κ

/-- The rules of the frames have the same numbers, and their follow sets the same types. -/
def SameShape (frames frames' : List Frame) : Prop :=
  List.Forall₂ (fun f f' => f.rule.index = f'.rule.index ∧ f.follow.sameAs f'.follow = true)
    frames frames'

instance (frames frames' : List Frame) : Decidable (SameShape frames frames') :=
  inferInstanceAs (Decidable (List.Forall₂ _ frames frames'))

namespace Signing

variable {κ : Type} (g : Signing κ)

/-- The signature of a stack, which depends on the rules and follow sets of its frames. -/
def sign : List Frame → κ
  | [] => g.root
  | f :: outer => g.extend (sign outer) f.rule.index f.follow

/-- The stack with the signatures that its frames get. -/
def label : List Frame → List (SignedFrame κ)
  | [] => []
  | f :: outer => ⟨f, g.sign (f :: outer)⟩ :: label outer

/-- The stacks of a kind have different signatures where their rules or follow sets differ. -/
def Separates (occurs : List Frame → Prop) : Prop :=
  ∀ a b, occurs a → occurs b → g.sign a = g.sign b → SameShape a b

end Signing

/-! ## Calls -/

/-- What a recognizer's stack is asked to do. -/
inductive StackCall where
  | push (rule : Rule) (follow : TokenSet) (startIndex : Nat)
  | pop
  /-- Give the recovery set, or the exact follow set. -/
  | ask (exact : Bool)

/-- The stack after a call. -/
def StackCall.apply (frames : List Frame) : StackCall → List Frame
  | .push rule follow startIndex => ⟨rule, follow, startIndex⟩ :: frames
  | .pop => frames.tail
  | .ask _ => frames

/-- The stacks that come up in a sequence of calls. -/
def standing (frames : List Frame) : List StackCall → List (List Frame)
  | [] => [frames]
  | c :: calls => frames :: standing (c.apply frames) calls

lemma mem_standing_self (frames : List Frame) (calls : List StackCall) :
    frames ∈ standing frames calls := by
  cases calls <;> simp [standing]

lemma foldl_mem_standing (frames : List Frame) (calls : List StackCall) :
    calls.foldl StackCall.apply frames ∈ standing frames calls := by
  induction calls generalizing frames with
  | nil => simp [standing]
  | cons c calls ih => exact List.mem_cons_of_mem _ (ih _)

/-- A stack of frames with signatures, and the unions that were computed before, by the signature
on top and the kind. -/
structure SignedStack (κ : Type) where
  frames : List (SignedFrame κ)
  known : List ((κ × Bool) × TokenSet)

namespace SignedStack

variable {κ : Type} (g : Signing κ)

/-- No frame is in progress, and no union is known. -/
def empty : SignedStack κ := ⟨[], []⟩

/-- The frames without their signatures. -/
def bare (s : SignedStack κ) : List Frame := s.frames.map SignedFrame.toFrame

/-- The signature on top, or that of the empty stack. -/
def signature (s : SignedStack κ) : κ := (s.frames.head?.map SignedFrame.signature).getD g.root

/-- Put a frame on the stack, which gets its signature from the one below. -/
def push (s : SignedStack κ) (rule : Rule) (follow : TokenSet) (startIndex : Nat) :
    SignedStack κ :=
  let signature := g.extend (s.signature g) rule.index follow
  { s with frames := ⟨⟨rule, follow, startIndex⟩, signature⟩ :: s.frames }

/-- Take off the innermost frame with its signature. -/
def pop (s : SignedStack κ) : SignedStack κ := { s with frames := s.frames.tail }

variable [BEq κ]

/-- The union for the stack, which is computed if it is not known. -/
def ask (s : SignedStack κ) (exact : Bool) : TokenSet × SignedStack κ :=
  match s.known.lookup (s.signature g, exact) with
  | some set => (set, s)
  | none =>
    let set := combinedFollow exact (s.frames.map fun f => f.follow)
    (set, { s with known := ((s.signature g, exact), set) :: s.known })

/-- The stack after a call. -/
def obey (s : SignedStack κ) : StackCall → SignedStack κ
  | .push rule follow startIndex => s.push g rule follow startIndex
  | .pop => s.pop
  | .ask exact => (s.ask g exact).2

/-- The signatures are those of the stacks below, and what is known is right for some stack that
came up and has the signature it is known by. -/
structure Sound (occurs : List Frame → Prop) (s : SignedStack κ) : Prop where
  frames_eq : s.frames = g.label s.bare
  known : ∀ e ∈ s.known, ∃ stack, occurs stack ∧ e.1.1 = g.sign stack ∧
    e.2.sameAs (combinedFollow e.1.2 (stack.map Frame.follow)) = true

variable {g} {occurs : List Frame → Prop} {s : SignedStack κ}

omit [BEq κ] in
lemma Sound.signature_eq (h : Sound g occurs s) : s.signature g = g.sign s.bare := by
  rw [signature, h.frames_eq]
  cases s.bare <;> rfl

variable [LawfulBEq κ]

/-- What is answered is right for the stack, even if it was computed for another one: that one has
the same signature, so it is alike. -/
lemma Sound.ask (h : Sound g occurs s) (hg : g.Separates occurs) (hs : occurs s.bare)
    (exact : Bool) :
    (s.ask g exact).1.sameAs (combinedFollow exact (s.bare.map Frame.follow)) = true ∧
      (s.ask g exact).2.bare = s.bare ∧ Sound g occurs (s.ask g exact).2 := by
  unfold SignedStack.ask
  split
  · rename_i set hlookup
    refine ⟨?_, rfl, h⟩
    obtain ⟨_, _, hsplit, -⟩ := List.lookup_eq_some_iff.1 hlookup
    obtain ⟨stack, hstack, hsign, hset⟩ :=
      h.known ((s.signature g, exact), set) (by rw [hsplit]; simp)
    have hshape : SameShape stack s.bare := hg _ _ hstack hs (hsign.symm.trans h.signature_eq)
    have hfollows : List.Forall₂ (fun f f' => f.sameAs f' = true) (stack.map Frame.follow)
        (s.bare.map Frame.follow) := by
      rw [List.forall₂_map_left_iff, List.forall₂_map_right_iff]
      exact hshape.imp fun _ _ hf => hf.2
    exact sameAs_trans hset (combinedFollow_congr exact hfollows)
  · have hcomputed : s.frames.map (fun f => f.follow) = s.bare.map Frame.follow := by
      simp [bare]
    refine ⟨by rw [hcomputed]; exact sameAs_refl _, rfl, h.frames_eq, fun e he => ?_⟩
    rcases List.mem_cons.1 he with rfl | he
    · exact ⟨s.bare, hs, h.signature_eq, by rw [hcomputed]; exact sameAs_refl _⟩
    · exact h.known e he

lemma Sound.obey (h : Sound g occurs s) (hg : g.Separates occurs) (hs : occurs s.bare)
    (c : StackCall) : Sound g occurs (s.obey g c) ∧ (s.obey g c).bare = c.apply s.bare := by
  cases c with
  | push rule follow startIndex =>
    refine ⟨⟨?_, h.known⟩, rfl⟩
    show _ :: s.frames = ⟨_, g.extend (g.sign s.bare) _ _⟩ :: g.label s.bare
    rw [← h.frames_eq, ← h.signature_eq]
  | pop =>
    have hbare : s.pop.bare = s.bare.tail := List.map_tail
    refine ⟨⟨?_, h.known⟩, hbare⟩
    show s.frames.tail = g.label s.pop.bare
    rw [hbare, h.frames_eq]
    cases s.bare <;> rfl
  | ask exact =>
    obtain ⟨-, hbare, hsound⟩ := h.ask hg hs exact
    exact ⟨hsound, hbare⟩

lemma Sound.foldl (h : Sound g occurs s) (hg : g.Separates occurs) {calls : List StackCall}
    (hs : ∀ stack ∈ standing s.bare calls, occurs stack) :
    Sound g occurs (calls.foldl (SignedStack.obey g) s) ∧
      (calls.foldl (SignedStack.obey g) s).bare = calls.foldl StackCall.apply s.bare := by
  induction calls generalizing s with
  | nil => exact ⟨h, rfl⟩
  | cons c calls ih =>
    obtain ⟨hsound, hbare⟩ := h.obey hg (hs _ (mem_standing_self _ _)) c
    rw [List.foldl_cons, List.foldl_cons, ← hbare]
    exact ih hsound fun stack hstack => hs stack (List.mem_cons_of_mem _ (hbare ▸ hstack))

/-- After any calls, the union is given for the frames that are on the stack, if the stacks that
came up can be told apart. -/
lemma sameAs_ask {calls : List StackCall} (hg : g.Separates (· ∈ standing [] calls))
    (exact : Bool) :
    ((calls.foldl (SignedStack.obey g) empty).ask g exact).1.sameAs
      (combinedFollow exact ((calls.foldl StackCall.apply []).map Frame.follow)) = true := by
  have hempty : Sound g (· ∈ standing [] calls) empty := ⟨rfl, fun e he => by cases he⟩
  obtain ⟨hsound, hbare⟩ := hempty.foldl hg fun _ => id
  have hend : (calls.foldl (SignedStack.obey g) empty).bare ∈ standing [] calls :=
    hbare ▸ foldl_mem_standing [] calls
  exact hbare ▸ (hsound.ask hg hend exact).1

end SignedStack

/-! ## Stacks that are not told apart

A hash of words begins with a fixed word, and if the first of two words is the same, then the second
one is lost. -/

lemma Signature.ofWords_lost (x y : BitVec 64) :
    ofWords [0x243f6a8885a308d3#64, x] = ofWords [0x243f6a8885a308d3#64, y] := by
  simp [ofWords, absorb, foldedProduct]

/-- Frames with such follow sets have one signature over the same stack, whatever else is in the
follow sets. -/
lemma Signing.sign_lost {f f' : Frame} {x y : BitVec 64} (hrule : f.rule.index = f'.rule.index)
    (hf : f.follow.key = [0x243f6a8885a308d3#64, x])
    (hf' : f'.follow.key = [0x243f6a8885a308d3#64, y]) (outer : List Frame) :
    hashed.sign (f :: outer) = hashed.sign (f' :: outer) := by
  show Signature.ofFrame _ f.rule.index f.follow = Signature.ofFrame _ f'.rule.index f'.follow
  rw [Signature.ofFrame, Signature.ofFrame, hf, hf', hrule, Signature.ofWords_lost x y]
  rfl

/-! ## The stack of a recognizer -/

lemma Signing.ofShape_shapeOf {κ : Type} (g : Signing κ) (frames : List Frame) :
    g.ofShape (shapeOf frames) = g.sign frames := by
  induction frames with
  | nil => rfl
  | cons f outer ih =>
    show g.extend (g.ofShape (shapeOf outer)) _ _ = _
    rw [ih]
    rfl

namespace State

/-- How the state signs its stacks. -/
def signing (s : State) : Signing (BitVec 64) := s.followCache.signing

/-- The stack of a state, with the signatures that its frames get, and the unions by signature. -/
def signed (s : State) : SignedStack (BitVec 64) :=
  ⟨s.signing.label s.frames,
    s.followCache.known.map fun u => ((s.signing.ofShape u.shape, u.exact), u.set)⟩

/-- The state after a call to its stack. -/
def obey (s : State) : StackCall → State
  | .push rule follow startIndex => s.pushFrame rule follow startIndex
  | .pop => s.popFrame
  | .ask exact => (s.follow exact).2

/-- The follow sets of the stack for which the union was computed that a state gives. -/
def taken (s : State) (exact : Bool) : List TokenSet :=
  (s.followCache.taken (shapeOf s.frames) exact).map Prod.snd

lemma follow_fst (s : State) (exact : Bool) :
    (s.follow exact).1 = combinedFollow exact (s.taken exact) :=
  s.followCache.query_fst (shapeOf s.frames) exact

/-- No union is known by the signature of the stack that was computed for other follow sets. -/
def Unmistaken (s : State) (exact : Bool) : Prop :=
  ∀ u ∈ s.followCache.known, u.exact = exact →
    s.signing.ofShape u.shape = s.signing.sign s.frames →
      List.Forall₂ (fun f f' => f.sameAs f' = true) (u.shape.map Prod.snd)
        (s.frames.map Frame.follow)

/-- A state that makes no mistake gives the union for its frames. -/
lemma Unmistaken.taken {s : State} (h : s.Unmistaken exact) :
    List.Forall₂ (fun f f' => f.sameAs f' = true) (s.taken exact) (s.frames.map Frame.follow) := by
  unfold State.taken FollowCache.taken
  rcases hfind : s.followCache.find? (shapeOf s.frames) exact with _ | u
  · have hsame : (shapeOf s.frames).map Prod.snd = s.frames.map Frame.follow := by
      simp [shapeOf, Function.comp_def]
    rw [Option.map_none, Option.getD_none, hsame]
    exact List.forall₂_same.2 fun f _ => sameAs_refl f
  · have hfound := List.find?_some hfind
    simp only [Bool.and_eq_true, beq_iff_eq] at hfound
    refine h u (List.mem_of_find?_eq_some hfind) hfound.2 ?_
    rw [← Signing.ofShape_shapeOf]
    exact hfound.1

lemma Unmistaken.follow {s : State} (h : s.Unmistaken exact) :
    (s.follow exact).1.sameAs (combinedFollow exact (s.frames.map Frame.follow)) = true := by
  rw [follow_fst]
  exact combinedFollow_congr exact h.taken

lemma unmistaken_of_known_eq_nil {s : State} (h : s.followCache.known = []) (exact : Bool) :
    s.Unmistaken exact := by
  intro u hu
  rw [h] at hu
  cases hu

/-! ### Calls -/

lemma signature_signed (s : State) :
    s.signed.signature s.signing = s.signing.ofShape (shapeOf s.frames) := by
  rw [Signing.ofShape_shapeOf]
  unfold signed SignedStack.signature
  cases s.frames <;> rfl

/-- What is found by signature. -/
lemma lookup_known (c : FollowCache) (shape : StackShape) (exact : Bool) :
    (c.known.map fun u => ((c.signing.ofShape u.shape, u.exact), u.set)).lookup
      (c.signing.ofShape shape, exact) = (c.find? shape exact).map KnownUnion.set := by
  unfold FollowCache.find?
  induction c.known with
  | nil => rfl
  | cons u known ih =>
    rw [List.map_cons, List.lookup_cons, List.find?_cons, ih]
    have hsame : ((c.signing.ofShape shape, exact) == (c.signing.ofShape u.shape, u.exact)) =
        (c.signing.ofShape u.shape == c.signing.ofShape shape && u.exact == exact) := by
      show (c.signing.ofShape shape == c.signing.ofShape u.shape && exact == u.exact) = _
      rw [BEq.comm (a := c.signing.ofShape shape), BEq.comm (a := exact)]
    rw [hsame]
    cases c.signing.ofShape u.shape == c.signing.ofShape shape && u.exact == exact <;> rfl

lemma signing_obey (s : State) (c : StackCall) : (s.obey c).signing = s.signing := by
  cases c with
  | push | pop => rfl
  | ask exact =>
    show (s.followCache.query (shapeOf s.frames) exact).2.signing = _
    unfold FollowCache.query
    cases s.followCache.find? (shapeOf s.frames) exact <;> rfl

/-- A state answers as a stack with signatures does. -/
lemma ask_signed (s : State) (exact : Bool) :
    s.signed.ask s.signing exact = ((s.follow exact).1, (s.follow exact).2.signed) := by
  have hfollows : s.signed.frames.map (fun f => f.follow) = (shapeOf s.frames).map Prod.snd := by
    unfold signed shapeOf
    induction s.frames with
    | nil => rfl
    | cons f outer ih => simp only [Signing.label, List.map_cons, ih]
  unfold SignedStack.ask
  rw [signature_signed, hfollows]
  have hlookup : s.signed.known.lookup (s.signing.ofShape (shapeOf s.frames), exact) =
      (s.followCache.find? (shapeOf s.frames) exact).map KnownUnion.set :=
    lookup_known s.followCache _ exact
  rw [hlookup]
  unfold follow FollowCache.query
  cases s.followCache.find? (shapeOf s.frames) exact <;> rfl

lemma signed_obey (s : State) (c : StackCall) :
    (s.obey c).signed = s.signed.obey s.signing c := by
  cases c with
  | push rule follow startIndex =>
    show SignedStack.mk (_ :: _) _ = SignedStack.mk (_ :: _) _
    rw [signature_signed, Signing.ofShape_shapeOf]
    rfl
  | pop =>
    unfold obey popFrame signed signing
    cases s.frames <;> rfl
  | ask exact => exact (congrArg Prod.snd (s.ask_signed exact)).symm

/-- Through any calls a state keeps in step with a stack with signatures. -/
lemma signed_foldl_obey (s : State) (calls : List StackCall) :
    (calls.foldl obey s).signed = calls.foldl (SignedStack.obey s.signing) s.signed ∧
      (calls.foldl obey s).signing = s.signing := by
  induction calls generalizing s with
  | nil => exact ⟨rfl, rfl⟩
  | cons c calls ih =>
    obtain ⟨hsigned, hsigning⟩ := ih (s.obey c)
    rw [signing_obey] at hsigned hsigning
    rw [List.foldl_cons, List.foldl_cons, ← signed_obey]
    exact ⟨hsigned, hsigning⟩

/-- The stacks that come up in calls, or for which a union was known before them. -/
def Occurs (s : State) (calls : List StackCall) (stack : List Frame) : Prop :=
  stack ∈ standing s.frames calls ∨ ∃ u ∈ s.followCache.known, u.shape = shapeOf stack

lemma bare_signed (s : State) : s.signed.bare = s.frames := by
  unfold signed SignedStack.bare
  induction s.frames with
  | nil => rfl
  | cons f outer ih => exact congrArg (f :: ·) ih

lemma exists_shapeOf (shape : StackShape) : ∃ frames, shapeOf frames = shape :=
  ⟨shape.map fun p => ⟨⟨p.1, ""⟩, p.2, 0⟩, by simp [shapeOf, Function.comp_def]⟩

lemma sound_signed (s : State) (calls : List StackCall) :
    s.signed.Sound s.signing (s.Occurs calls) where
  frames_eq := by rw [bare_signed]; rfl
  known := by
    intro e he
    obtain ⟨u, hu, rfl⟩ := List.mem_map.1 he
    obtain ⟨stack, hstack⟩ := exists_shapeOf u.shape
    refine ⟨stack, .inr ⟨u, hu, hstack.symm⟩, ?_, ?_⟩
    · rw [← Signing.ofShape_shapeOf, hstack]
    · have hfollows : stack.map Frame.follow = u.shape.map Prod.snd := by
        rw [← hstack]
        simp [shapeOf, Function.comp_def]
      rw [hfollows, ← u.set_eq]
      exact sameAs_refl _

/-- After any calls a state gives the unions for the frames that are on it, if the stacks can be
told apart. -/
lemma sameAs_follow_foldl {s : State} {calls : List StackCall}
    (hg : s.signing.Separates (s.Occurs calls)) (exact : Bool) :
    ((calls.foldl obey s).follow exact).1.sameAs
      (combinedFollow exact ((calls.foldl StackCall.apply s.frames).map Frame.follow)) = true := by
  obtain ⟨hsigned, hsigning⟩ := s.signed_foldl_obey calls
  obtain ⟨hsound, hbare⟩ := (s.sound_signed calls).foldl hg fun stack hstack =>
    .inl (s.bare_signed ▸ hstack)
  rw [bare_signed] at hbare
  have hoccurs : s.Occurs calls (calls.foldl (SignedStack.obey s.signing) s.signed).bare :=
    .inl (hbare ▸ foldl_mem_standing s.frames calls)
  have hask := (hsound.ask hg hoccurs exact).1
  rw [← hsigned, ← hsigning, ask_signed, hsigned, hbare] at hask
  exact hask

end State

end Lookahead
