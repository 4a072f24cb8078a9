import Playthrough.Proofs.Scope

/-!
# Walks by rules come to an end

Whatever the rules and wherever a walk starts, only finitely many turns follow each
other.  In the end nothing is left to try, or the rule that fires next would leave an
item or a character without a place.
-/

namespace Playthrough

/-! ## Things without a place -/

namespace Draft

theorem item_mem_unplaced {draft : Draft} {id : Text} :
    .item id ∈ draft.unplaced ↔ draft.items.get? id = some none := by
  simp [unplaced, Keyed.mem_absent]

theorem character_mem_unplaced {draft : Draft} {id : Text} :
    .character id ∈ draft.unplaced ↔ draft.characters.get? id = some none := by
  simp [unplaced, Keyed.mem_absent]

theorem settle_eq_error {draft : Draft} {unplaced : List Unplaced}
    (h : draft.settle = .error unplaced) : unplaced = draft.unplaced ∧ unplaced ≠ [] := by
  unfold settle at h
  cases hlist : draft.unplaced with
  | nil => simp [hlist] at h
  | cons first rest =>
      simp only [hlist, Except.error.injEq] at h
      subst h
      exact ⟨rfl, by simp⟩

end Draft

namespace Rule

/-- The effects of a rule leave something without a place: what is listed. -/
structure Strands (rule : Rule) (world : World) (unplaced : List Unplaced) : Prop where
  nonempty : unplaced ≠ []
  item : ∀ id, .item id ∈ unplaced ↔ (rule.draft world).items.get? id = some none
  character : ∀ id, .character id ∈ unplaced ↔
    (rule.draft world).characters.get? id = some none

theorem strands_of_apply {rule : Rule} {world : World} {unplaced : List Unplaced}
    (h : rule.apply world = .error unplaced) : rule.Strands world unplaced := by
  obtain ⟨rfl, hne⟩ := Draft.settle_eq_error h
  exact ⟨hne, fun _ => Draft.item_mem_unplaced, fun _ => Draft.character_mem_unplaced⟩

/-! ## The end of a walk -/

/-- What is due next on a walk is an interaction that fires a rule, and the rule strands
something. -/
inductive StrandsNext (rules : List Rule) : Walk World → List Unplaced → Prop
  | fires {frame : Frame World} {entity : Text} {pending : List Text}
      {below : List (OpenFrame World)} {record : Record World}
      {history : List (Step World × Record World)} {rule : Rule} {unplaced : List Unplaced}
      (open_ : frame.state.ending = none) (mem : rule ∈ rules)
      (first : firstEligible? (byPriority rules) entity frame.state = some rule)
      (strands : rule.Strands frame.state unplaced) :
      StrandsNext rules ⟨⟨frame, entity :: pending⟩ :: below, record, history⟩ unplaced

theorem strandsNext_of_breaks {rules : List Rule} {walk : Walk World}
    {unplaced : List Unplaced} (h : walk.Breaks (engine rules) unplaced) :
    StrandsNext rules walk unplaced := by
  cases h with
  | attempt refused =>
      obtain ⟨hopen, rule, hrule, hfirst, happly⟩ := attempt_eq_error refused
      exact .fires hopen hrule hfirst (strands_of_apply happly)

structure Halts (rules : List Rule) (config : Config) (start : World) : Prop where
  bounded : ∀ (walks : Nat → Walk World) (count : Nat), walks 0 = Walk.fresh config start →
    (∀ n < count, Walk.Turn (engine rules) config (walks n) (walks (n + 1))) →
    count ≤ (engine rules).budget start
  ends : ∃ last, Walk.Turns (engine rules) config (Walk.fresh config start) last ∧
    (last.stack = [] ∧ Walk.build (engine rules) config start = .ok last.record ∨
      ∃ unplaced, StrandsNext rules last unplaced ∧
        Walk.build (engine rules) config start = .error (.broken unplaced))

theorem turnsLeft_fresh_le (rules : List Rule) (config : Config) (start : World) :
    Walk.turnsLeft (scope rules start).sights.toFinset (scope rules start).offers
      (Walk.fresh config start) ≤ (engine rules).budget start :=
  Nat.le_trans
    (Walk.turnsLeft_start_le (engine_confined rules start) (Scope.admits_start rules start) _)
    (Nat.mul_le_mul_right _ (Nat.add_le_add_right (card_sights_le rules start) 1))

/-- Every walk by rules comes to its end. -/
theorem build_halts (rules : List Rule) (config : Config) (start : World) :
    Halts rules config start := by
  constructor
  · intro walks count hfresh hturns
    refine Nat.le_trans ?_ (turnsLeft_fresh_le rules config start)
    rw [← hfresh]
    refine Walk.length_turns_le (engine_confined rules start) ?_ hturns
    rw [hfresh]
    exact Walk.stays_start (Scope.admits_start rules start) _
  · let frame : Frame World := ⟨[], start, config.root⟩
    have hspent := explore_not_exhausted rules config frame (.start start config.root)
    have hturns := Walk.run_turns (engine rules) config ((engine rules).budget start)
      (Walk.fresh config start)
    unfold Walk.build
    cases hexplore : Walk.explore (engine rules) config frame (.start start config.root) with
    | mk last stop =>
        have hlast : (Walk.run (engine rules) config ((engine rules).budget start)
            (Walk.fresh config start)).1 = last := congrArg Prod.fst hexplore
        have hstop : (Walk.run (engine rules) config ((engine rules).budget start)
            (Walk.fresh config start)).2 = stop := congrArg Prod.snd hexplore
        rw [hlast] at hturns
        refine ⟨last, hturns, ?_⟩
        cases stop with
        | none =>
            have hstack := Walk.stack_eq_nil_of_run hstop
            rw [hlast] at hstack
            exact .inl ⟨hstack, rfl⟩
        | some stop =>
            cases stop with
            | broken unplaced =>
                have hbreaks := Walk.breaks_of_run hstop
                rw [hlast] at hbreaks
                exact .inr ⟨unplaced, strandsNext_of_breaks hbreaks, rfl⟩
            | exhausted => exact absurd (congrArg Prod.snd hexplore) hspent

end Rule

end Playthrough
