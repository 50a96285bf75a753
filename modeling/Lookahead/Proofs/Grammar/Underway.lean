import Lookahead.Proofs.Grammar.Depth
import Lookahead.Proofs.Grammar.Soundness

/-!
# Records are right along the way

That a run ends with right records does not say that they were right before.  What is known of a
recognizer at any point of a run is that its records are right if the run has been candid up to
there (`Sound`).  This is a property for each depth of backtracking, as speculations want to know
that there is a mark to stand on, and all that statements do keeps it.  So it holds of everything
that a run passes through (`sound_of_visits`), whether the run comes to an end or not.

A statement is compared with itself only.  What becomes of the records in it, is known from
`bears_run` outside of all speculations, and from `echo_run` inside of one.
-/

namespace Lookahead

open Action Cursor Recognizer
open Cursor.View (Ready)

variable {S X ι α : Type} [Cursor S] [View S] {c : Setting S X ι} {m n fuel : ℕ}
  {r q : Recognizer S X}

/-- A recognizer at depth `n` whose records are right, if its run has been candid.  In a speculation
it has a mark to go back to. -/
structure Sound (c : Setting S X ι) (m n : ℕ) (r : Recognizer S X) : Prop where
  depth_eq : r.state.backtracking = n
  trusted : Candid c m r → Trusted c r
  ready : Candid c m r → 0 < n → Ready r.input

variable [Legible S]

lemma Sound.of_undisturbed {r' : Recognizer S X} (h : Sound c m n r) (hr : Undisturbed r r') :
    Sound c m n r' where
  depth_eq := hr.backtracking_eq.trans h.depth_eq
  trusted hcandid := (h.trusted (hr.fades hcandid)).of_undisturbed hr
  ready hcandid hpos := (hr.reaches.ready (h.ready (hr.fades hcandid) hpos)).1

lemma tiers_sound (c : Setting S X ι) (m : ℕ) : Tiers (Sound c m) where
  undisturbed hr h := h.of_undisturbed hr
  begun {_ r} raise h :=
    { depth_eq := congrArg (· + raise.toNat) h.depth_eq
      trusted := fun hcandid => (h.trusted ((amasses_begun raise r).fades hcandid)).begun raise
      ready := fun hcandid _ => (h.trusted ((amasses_begun raise r).fades hcandid)).usable.mark }
  ended {_ r} raise mark ending h :=
    { depth_eq := Nat.sub_eq_of_eq_add h.depth_eq
      trusted := fun hcandid =>
        (h.trusted ((amasses_ended raise _ r).fades hcandid)).ended raise mark ending
      ready := fun hcandid hpos => ((reaches_endGuard r.input mark ending).ready
        (h.ready ((amasses_ended raise _ r).fades hcandid) (Nat.add_pos_left hpos _))).1 }

/-- An action keeps recognizers sound that is echoed in speculations, with some bound on those that
the echo may enter. -/
lemma agrees_sound {x : Action (Recognizer S X) α} (hdepth : Within SameDepth x)
    (hbears : Within (Bears c m) x)
    (hecho : ∃ bound y, n ≤ bound ∧ ∀ j : Footing S, j.depth = n → j.depth' = n →
      j.bound = bound → Echoing c m j x y) : Agrees (Sound c m) n x x := by
  refine paired_same_iff.2 fun r o r' hr hrun => ⟨hrun, ?_⟩
  have hsound (hcandid : Candid c m r') : Trusted c r' ∧ (0 < n → Ready r'.input) := by
    have hcandid₀ : Candid c m r := (hbears hrun).fades hcandid
    have htrusted : Trusted c r := hr.trusted hcandid₀
    rcases Nat.eq_zero_or_pos n with rfl | hpos
    · exact ⟨((hbears hrun).trusted htrusted hr.depth_eq hcandid).1, fun h => absurd h (by decide)⟩
    · obtain ⟨bound, y, hle, hxy⟩ := hecho
      have hpos' : 0 < r.state.backtracking := hr.depth_eq ▸ hpos
      have hready : Ready r.input := hr.ready hcandid₀ hpos
      have hunaided : Unaided c (Cursor.index r.input) 0 (unaided c bound r) :=
        ⟨hready, htrusted.input_eq, rfl, bound, rfl, hr.depth_eq ▸ hle⟩
      obtain ⟨s', -, h'⟩ := (hxy _ hr.depth_eq hr.depth_eq rfl).follows hrun hcandid _
        (htrusted.echoes hready hpos' hunaided hpos' rfl)
      exact ⟨h'.trusted, fun _ => h'.placed.ready⟩
  exact ⟨(hdepth hrun).trans hr.depth_eq, fun h => (hsound h).1, fun h => (hsound h).2⟩

lemma agrees_looked : Agrees (Sound c m) n (.update looked : Action (Recognizer S X) Unit)
    (.update looked) := by
  refine paired_same_iff.2 fun r o r' hr hrun => ⟨hrun, ?_⟩
  obtain ⟨-, rfl⟩ := Prod.mk.inj (Option.some.inj hrun)
  have hcandid (h : Candid c m (looked r)) : Candid c m r := (amasses_looked r).fades h
  exact ⟨hr.depth_eq, fun h => (hr.trusted (hcandid h)).looked,
    fun h hpos => ((Step.lookahead r.input 1).reaches.ready (hr.ready (hcandid h) hpos)).1⟩

/-! ## Runs -/

section

variable {calls : ι → Option Nat} (hc : Faithful c calls) (hd : Grammar.Levelled c.dialect c.grammar)
  (hg : c.grammar.All Statement.HandsOff) (hpositional : c.grammar.Positional)

include hc hg hpositional

lemma agrees_run (hle : n + fuel ≤ c.options.maxSpeculationDepth) {b : Block ι}
    (hb : Block.All Statement.HandsOff b) :
    Agrees (Sound c m) n (c.run fuel b) (c.run fuel b) := by
  refine agrees_sound (fun _ _ _ hrun => depth_of_run hc hg hb hrun)
    (bears_run hc hg hpositional (Nat.le_trans (Nat.le_add_left fuel n) hle) hb)
    ⟨n + (fuel + m), c.run (fuel + m) b, Nat.le_add_right _ _, fun j hj hj' hbound => ?_⟩
  exact echo_run hc hg hpositional ⟨by omega, by omega, Nat.le_refl _⟩ hb

/-- Statements that are executed with so much fuel keep recognizers sound. -/
lemma tier_sound (hle : n + fuel < c.options.maxSpeculationDepth) :
    Grammar.Tier c.dialect c.grammar Statement.HandsOff (Sound c m) n True
      (c.grammar.run c.dialect fuel) fuel where
  block hb := agrees_run hc hg hpositional (Nat.le_of_lt hle) hb
  deeper _ _ hb := agrees_run hc hg hpositional (by omega) hb
  below _ _ := trivial
  trying _ := trivial
  raising _ := trivial
  plain {s} hs hplain := by
    by_cases hlook : s = .observe
    · subst hlook
      rw [observe_eq]
      exact agrees_looked
    · exact (tiers_sound c m).agrees (undisturbed_plain hs hplain hlook _ _ _ _)
  perform {i} hi := by
    have hbears (b : Block ι) (hb : Block.All Statement.HandsOff b) :
        Within (Bears c m) (c.run fuel b) := bears_run hc hg hpositional (by omega) hb
    refine agrees_sound ((sameDepth_kept hc hg).perform hi fun b hb _ _ _ hrun =>
        depth_of_run hc hg hb hrun) (bears_perform hc hg hbears i)
      ⟨n + (fuel + m), c.dialect.perform c.grammar (c.run (fuel + m)) i, Nat.le_add_right _ _,
        fun j hj hj' hbound => ?_⟩
    exact echo_instruction hc hg (fun hroom hb => echo_run hc hg hpositional hroom hb)
      ⟨by omega, by omega, Nat.le_refl _⟩ i

include hd

/-- **What a run passes through is sound** if the recognizer was with which it began, at whatever
depth it comes to. The fuel does not reach as deep as the bound on speculation. -/
theorem sound_of_visits {b : Block ι} (hb : Block.All Statement.HandsOff b)
    (hle : n + fuel ≤ c.options.maxSpeculationDepth) (hr : Sound c m n r)
    (h : Grammar.VisitsWithin c.dialect c.grammar fuel b r q) : ∃ k, Sound c m k q := by
  have hP : Tiers (Sound c m : ℕ → Recognizer S X → Prop) := tiers_sound c m
  induction h generalizing n with
  | start => exact ⟨n, hr⟩
  | finish hs =>
    have hkept := (tier_sound hc hg hpositional hle).execute hd hg hP (Block.all_cons.1 hb).1
    exact ⟨n, (paired_same_iff.1 hkept hr hs).2⟩
  | next hs _ ih =>
    obtain ⟨hfirst, hrest⟩ := Block.all_cons.1 hb
    have hkept := (tier_sound hc hg hpositional hle).execute hd hg hP hfirst
    exact ih hrest hle (paired_same_iff.1 hkept hr hs).2
  | inside hs _ ih =>
    obtain ⟨hbegun, hr₁ | ⟨-, hr₁⟩⟩ := (tier_sound hc hg hpositional hle).begins hd hg hP
      (Block.all_cons.1 hb).1 hr hs
    · exact ih hbegun (Nat.le_of_succ_le hle) hr₁
    · exact ih hbegun (by omega) hr₁

/-- What a run from depth zero passes through has right records, inside its speculations too, if the
run was straight up to there and the records were right before. -/
theorem trusted_of_visits {b : Block ι} (hb : Block.All Statement.HandsOff b)
    (hle : fuel ≤ c.options.maxSpeculationDepth) (hr : Trusted c r)
    (hdepth : r.state.backtracking = 0)
    (h : Grammar.VisitsWithin c.dialect c.grammar fuel b r q)
    (hstraight : ∀ e ∈ q.trace, e.Straight) : Trusted c q := by
  obtain ⟨m, hm⟩ := exists_timely_of_memo c q.state.memo
  have hr₀ : Sound c m 0 r := ⟨hdepth, fun _ => hr, fun _ h => absurd h (by decide)⟩
  obtain ⟨k, hq⟩ := sound_of_visits hc hd hg hpositional hb (by rwa [Nat.zero_add]) hr₀ h
  exact hq.trusted ⟨hstraight, hm⟩

end

end Lookahead
