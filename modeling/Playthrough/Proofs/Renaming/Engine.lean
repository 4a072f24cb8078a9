import Playthrough.Proofs.Attempt
import Playthrough.Proofs.Ranking
import Playthrough.Proofs.Renaming.Basic
import Playthrough.Story.Reference

/-!
# Renamed rules

Rules with renamed ids do to a renamed world what the rules do to the world.  Scenes and
endings are free text and no ids, so they stay as they are.
-/

namespace Playthrough

/-- Rename an id where one is expected, and leave free text as it is. -/
def renameAs (names : Text → Text) (kind : Option EntityKind) (id : Text) : Text :=
  if kind.isSome then names id else id

@[simp] theorem renameAs_none (names : Text → Text) : renameAs names none = id := rfl

@[simp] theorem renameAs_some (names : Text → Text) (kind : EntityKind) :
    renameAs names (some kind) = names := rfl

def Condition.rename (names : Text → Text) (condition : Condition) : Condition where
  kind := condition.kind
  subject := renameAs names condition.kind.subjectKind condition.subject
  target := condition.target.map (renameAs names condition.kind.targetKind)

def Effect.rename (names : Text → Text) (effect : Effect) : Effect where
  kind := effect.kind
  subject := renameAs names effect.kind.subjectKind effect.subject
  target := effect.target.map (renameAs names effect.kind.targetKind)

def Rule.rename (names : Text → Text) (rule : Rule) : Rule where
  summary := rule.summary
  trigger := names rule.trigger
  preconditions := rule.preconditions.map (Condition.rename names)
  effects := rule.effects.map (Effect.rename names)
  priority := rule.priority

def Draft.rename (names : Text → Text) (draft : Draft) : Draft where
  location := names draft.location
  items := draft.items.rename names (Option.map names)
  characters := draft.characters.rename names (Option.map names)
  discovered := draft.discovered.rename names
  scene := draft.scene
  ending := draft.ending

variable (names : Renaming)

theorem Renaming.map_eq_map_iff {place other : Option Text} :
    place.map names = other.map names ↔ place = other :=
  (Option.map_injective names.injective).eq_iff

theorem Renaming.map_inventory : (some inventoryPlace).map names = some inventoryPlace :=
  congrArg some names.inventory

/-! ## Conditions -/

theorem World.get?_items_rename (world : World) (item : Text) (place : Option Text) :
    (world.rename names).items.get? (names item) = place.map names ↔
      world.items.get? item = place := by
  rw [World.rename, Keyed.get?_rename names.injective, names.map_eq_map_iff]

theorem World.get?_characters_rename (world : World) (character : Text)
    (place : Option Text) :
    (world.rename names).characters.get? (names character) = place.map names ↔
      world.characters.get? character = place := by
  rw [World.rename, Keyed.get?_rename names.injective, names.map_eq_map_iff]

theorem Condition.holds_rename (condition : Condition) (world : World) :
    (condition.rename names).holds (world.rename names) = condition.holds world := by
  obtain ⟨kind, subject, target⟩ := condition
  have hcarried := world.get?_items_rename names subject (some inventoryPlace)
  rw [names.map_inventory] at hcarried
  have hdiscovered : names subject ∈ (world.rename names).discovered ↔
      subject ∈ world.discovered := IdSet.name_mem_rename names.injective
  cases kind with
  | playerAt => exact beq_eq_beq.2 names.injective.eq_iff
  | itemInInventory => exact beq_eq_beq.2 hcarried
  | itemNotInInventory => exact congrArg not (beq_eq_beq.2 hcarried)
  | itemAt => exact beq_eq_beq.2 (world.get?_items_rename names subject target)
  | characterAt => exact beq_eq_beq.2 (world.get?_characters_rename names subject target)
  | locationDiscovered => exact decide_eq_decide.2 hdiscovered
  | locationUndiscovered => exact decide_eq_decide.2 (not_congr hdiscovered)
  | sceneIs => rfl

/-! ## Effects -/

theorem Draft.rename_ofWorld (world : World) :
    (ofWorld world).rename names = ofWorld (world.rename names) := by
  unfold ofWorld Draft.rename World.rename
  simp only [Keyed.rename_map_some names.injective]

theorem Effect.apply_rename (effect : Effect) (draft : Draft) :
    (effect.rename names).apply (draft.rename names) = (effect.apply draft).rename names := by
  obtain ⟨kind, subject, target⟩ := effect
  cases kind <;>
    simp [Effect.apply, Effect.rename, Draft.rename, EffectKind.subjectKind,
      EffectKind.targetKind, Keyed.rename_insert names.injective,
      Keyed.rename_erase names.injective, IdSet.rename_insert, names.inventory]

theorem Rule.draft_rename (rule : Rule) (world : World) :
    (rule.rename names).draft (world.rename names) = (rule.draft world).rename names := by
  have hfold : ∀ (effects : List Effect) (draft : Draft),
      (effects.map (Effect.rename names)).foldl (fun draft effect => effect.apply draft)
          (draft.rename names) =
        (effects.foldl (fun draft effect => effect.apply draft) draft).rename names := by
    intro effects
    induction effects with
    | nil => exact fun _ => rfl
    | cons effect rest ih =>
        intro draft
        rw [List.map_cons, List.foldl_cons, List.foldl_cons, effect.apply_rename names, ih]
  unfold Rule.draft
  rw [← Draft.rename_ofWorld]
  exact hfold rule.effects _

theorem Draft.settle_rename {draft : Draft} {world : World} (h : draft.settle = .ok world) :
    (draft.rename names).settle = .ok (world.rename names) := by
  have hunplaced : (draft.rename names).unplaced = [] ↔ draft.unplaced = [] := by
    simp [unplaced, Draft.rename, Keyed.absent_rename names.injective]
  obtain ⟨hplaced, rfl⟩ := settle_eq_ok_iff.1 h
  refine settle_eq_ok_iff.2 ⟨hunplaced.2 hplaced, ?_⟩
  simp only [Draft.rename, World.rename, Keyed.rename_present names.injective]

theorem Rule.apply_rename {rule : Rule} {world next : World}
    (h : rule.apply world = .ok next) :
    (rule.rename names).apply (world.rename names) = .ok (next.rename names) := by
  unfold Rule.apply at h ⊢
  rw [rule.draft_rename]
  exact Draft.settle_rename names h

theorem World.interact_rename (world : World) (entity : Text) :
    (world.rename names).interact (names entity) = (world.interact entity).rename names := by
  have hhere : names entity ∈ (world.rename names).itemsAt (world.rename names).location ↔
      entity ∈ world.itemsAt world.location := by
    change _ ∈ (world.rename names).itemsAt (names world.location) ↔ _
    rw [itemsAt_rename, IdSet.name_mem_rename names.injective]
  have hthere : (names entity ∈ (world.rename names).discovered ∧
      names entity ≠ (world.rename names).location) ↔
      entity ∈ world.discovered ∧ entity ≠ world.location :=
    and_congr (IdSet.name_mem_rename names.injective) (not_congr names.injective.eq_iff)
  unfold interact
  simp only [hhere, hthere]
  split
  · simp [World.rename, Keyed.rename_insert names.injective, names.inventory]
  · split <;> rfl

/-! ## Attempts -/

namespace Rule

theorem eligible_rename (rule : Rule) (entity : Text) (world : World) :
    (rule.rename names).eligible (names entity) (world.rename names) =
      rule.eligible entity world := by
  have htrigger : (names rule.trigger == names entity) = (rule.trigger == entity) :=
    Bool.eq_iff_iff.2 (by simp [names.injective.eq_iff])
  unfold eligible
  rw [rename, htrigger, List.all_map]
  congr 2
  funext condition
  exact condition.holds_rename names world

omit names in
theorem byPriority_rename (names : Text → Text) (rules : List Rule) :
    byPriority (rules.map (Rule.rename names)) = (byPriority rules).map (Rule.rename names) :=
  byPriority_map (Rule.rename names) (fun _ => rfl) rules

theorem firstEligible?_rename (ranked : List Rule) (entity : Text) (world : World) :
    firstEligible? (ranked.map (Rule.rename names)) (names entity) (world.rename names) =
      (firstEligible? ranked entity world).map (Rule.rename names) := by
  unfold firstEligible?
  rw [List.find?_map]
  congr 2
  funext rule
  exact rule.eligible_rename names entity world

theorem attempt_rename {rules : List Rule} {entity : Text} {world : World}
    {outcome : Outcome World} (h : (engine rules).attempt entity world = .ok outcome) :
    (engine (rules.map (Rule.rename names))).attempt (names entity) (world.rename names) =
      .ok ⟨outcome.next.rename names, outcome.rule⟩ := by
  change attempt (byPriority (rules.map (Rule.rename names))) (names entity)
    (world.rename names) = _
  unfold attempt
  rw [byPriority_rename, firstEligible?_rename, World.ending_rename]
  rcases attempt_cases h with ⟨hended, rfl⟩ | ⟨hopen, rule, -, hfirst, next, happly, rfl⟩ |
    ⟨hopen, hfirst, rfl⟩
  · obtain ⟨ending, hending⟩ := Option.ne_none_iff_exists'.1 hended
    simp only [hending]
  · simp only [hopen, hfirst, Option.map_some, apply_rename names happly]
    rfl
  · simp only [hopen, hfirst, Option.map_none, World.interact_rename]

end Rule

end Playthrough
