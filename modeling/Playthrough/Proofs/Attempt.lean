import Playthrough.Engine.Rules

/-!
# What an interaction can do

An attempt by rules is refused, fires a rule, or takes or travels.
-/

namespace Playthrough

/-- A draft settles if nothing is left without a place, and only the tables change. -/
theorem Draft.settle_eq_ok_iff {draft : Draft} {world : World} :
    draft.settle = .ok world ↔ draft.unplaced = [] ∧ world =
      ⟨draft.location, draft.items.present, draft.characters.present, draft.discovered,
        draft.scene, draft.ending⟩ := by
  unfold settle
  cases draft.unplaced <;> simp [eq_comm]

namespace Rule

theorem mem_of_firstEligible? {rules : List Rule} {entity : Text} {world : World}
    {rule : Rule} (h : firstEligible? (byPriority rules) entity world = some rule) :
    rule ∈ rules :=
  mem_byPriority.1 (List.mem_of_find?_eq_some h)

theorem trigger_of_firstEligible? {ranked : List Rule} {entity : Text} {world : World}
    {rule : Rule} (h : firstEligible? ranked entity world = some rule) : rule.trigger = entity := by
  unfold firstEligible? at h
  have heligible := List.find?_some h
  simp only [eligible, Bool.and_eq_true, beq_iff_eq] at heligible
  exact heligible.1

theorem attempt_cases {rules : List Rule} {entity : Text} {world : World}
    {outcome : Outcome World} (h : (engine rules).attempt entity world = .ok outcome) :
    (world.ending ≠ none ∧ outcome = ⟨world, none⟩) ∨
    (world.ending = none ∧ ∃ rule ∈ rules,
      firstEligible? (byPriority rules) entity world = some rule ∧
      ∃ next, rule.apply world = .ok next ∧ outcome = ⟨next, some rule.summary⟩) ∨
    (world.ending = none ∧ firstEligible? (byPriority rules) entity world = none ∧
      outcome = ⟨world.interact entity, none⟩) := by
  change attempt (byPriority rules) entity world = .ok outcome at h
  unfold attempt at h
  cases hending : world.ending with
  | some ending =>
      simp only [hending, Except.ok.injEq] at h
      exact .inl ⟨by simp, h.symm⟩
  | none =>
      simp only [hending] at h
      cases hfirst : firstEligible? (byPriority rules) entity world with
      | none =>
          simp only [hfirst, Except.ok.injEq] at h
          exact .inr (.inr ⟨rfl, rfl, h.symm⟩)
      | some rule =>
          simp only [hfirst] at h
          cases happly : rule.apply world with
          | error unplaced => simp [happly, Except.map] at h
          | ok next =>
              simp only [happly, Except.map, Except.ok.injEq] at h
              exact .inr (.inl ⟨rfl, rule, mem_of_firstEligible? hfirst, rfl, next,
                happly, h.symm⟩)

theorem attempt_fired {rules : List Rule} {entity fired : Text} {world : World}
    {outcome : Outcome World} (h : (engine rules).attempt entity world = .ok outcome)
    (hfired : outcome.rule = some fired) :
    world.ending = none ∧ ∃ rule ∈ rules, rule.summary = fired ∧
      rule.apply world = .ok outcome.next := by
  rcases attempt_cases h with ⟨-, rfl⟩ | ⟨hopen, rule, hrule, -, next, happly, rfl⟩ |
    ⟨-, -, rfl⟩
  · cases hfired
  · exact ⟨hopen, rule, hrule, Option.some.inj hfired, happly⟩
  · cases hfired

/-- What holds of the draft at first and is kept by each effect holds of it in the end. -/
theorem draft_keeps {P : Draft → Prop} {rule : Rule} {world : World}
    (hstart : P (Draft.ofWorld world))
    (hkeeps : ∀ draft, P draft → ∀ effect ∈ rule.effects, P (effect.apply draft)) :
    P (rule.draft world) :=
  List.foldlRecOn rule.effects _ hstart hkeeps

/-- Only a rule that fires can fail. -/
theorem attempt_eq_error {rules : List Rule} {entity : Text} {world : World}
    {unplaced : List Unplaced}
    (h : (engine rules).attempt entity world = .error unplaced) :
    world.ending = none ∧ ∃ rule ∈ rules,
      firstEligible? (byPriority rules) entity world = some rule ∧
      rule.apply world = .error unplaced := by
  change attempt (byPriority rules) entity world = .error unplaced at h
  unfold attempt at h
  cases hending : world.ending with
  | some ending => simp [hending] at h
  | none =>
      simp only [hending] at h
      cases hfirst : firstEligible? (byPriority rules) entity world with
      | none => simp [hfirst] at h
      | some rule =>
          refine ⟨rfl, rule, mem_of_firstEligible? hfirst, rfl, ?_⟩
          cases happly : rule.apply world with
          | ok next => simp [hfirst, happly, Except.map] at h
          | error other => simpa [hfirst, happly, Except.map] using h

end Rule

end Playthrough
