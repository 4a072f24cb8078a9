import Mathlib.SetTheory.Cardinal.Arithmetic
import Playthrough.Proofs.Acceptance
import Playthrough.Proofs.Renaming.Engine

/-!
# Renamed stories

The declared ids of a story get new names wherever they are used.  For a consistent story
nothing but declared ids is renamed, so it is enough that these stay distinct.
-/

namespace Playthrough

/-- A place is a location or the place of carried items, which keeps its name. -/
def renamePlace (names : Text → Text) (place : Text) : Text :=
  if place = inventoryPlace then place else names place

def Manifest.rename (names : Text → Text) (manifest : Manifest) : Manifest where
  items := manifest.items.map names
  locations := manifest.locations.map names
  characters := manifest.characters.map names
  startLocation := names manifest.startLocation
  itemPlacement := manifest.itemPlacement.rename names (renamePlace names)
  characterPlacement := manifest.characterPlacement.rename names names
  startScene := manifest.startScene

def Story.rename (names : Text → Text) (story : Story) : Story where
  title := story.title
  manifest := story.manifest.rename names
  rules := story.rules.map (Rule.rename names)

/-- Different ids get different names, and none but itself is named like the place of
carried items. -/
structure Manifest.Distinguishes (manifest : Manifest) (names : Text → Text) : Prop where
  injective : ∀ id ∈ manifest.entityIds, ∀ other ∈ manifest.entityIds,
    names id = names other → id = other
  inventory : ∀ id ∈ manifest.entityIds, names id = inventoryPlace ↔ id = inventoryPlace

/-! ## Part of a renaming of all ids -/

theorem infinite_text : Infinite Text := by
  refine Infinite.of_injective (fun count : Nat => Text.mk (List.replicate count 0)) ?_
  intro count other h
  simpa using congrArg (fun text => text.points.length) h

theorem exists_injective_of_injOn {names : Text → Text} {ids : Set Text} (hfinite : ids.Finite)
    (h : Set.InjOn names ids) :
    ∃ all : Text → Text, Function.Injective all ∧ ∀ id ∈ ids, all id = names id := by
  have := infinite_text
  have hsmall : Cardinal.mk ids < Cardinal.mk Text :=
    (Cardinal.lt_aleph0_iff_set_finite.2 hfinite).trans_le (Cardinal.aleph0_le_mk Text)
  obtain ⟨all, hall⟩ := Cardinal.extend_function_of_lt ⟨_, h.injective⟩ hsmall
    ⟨Equiv.refl Text⟩
  exact ⟨all, all.injective, fun id hid => hall ⟨id, hid⟩⟩

namespace Manifest.Distinguishes

variable {manifest : Manifest} {names : Text → Text}

theorem renamePlace_eq (h : manifest.Distinguishes names) {id : Text}
    (hid : id ∈ manifest.entityIds) : renamePlace names id = names id := by
  unfold renamePlace
  split
  · next heq => rw [(h.inventory id hid).2 heq, heq]
  · rfl

def known (manifest : Manifest) : Set Text :=
  {id | id = inventoryPlace ∨ id ∈ manifest.entityIds}

theorem renamePlace_eq_inventory (h : manifest.Distinguishes names) {id : Text}
    (hid : id ∈ known manifest) :
    renamePlace names id = inventoryPlace ↔ id = inventoryPlace := by
  rcases hid with rfl | hid
  · simp [renamePlace]
  · rw [h.renamePlace_eq hid]
    exact h.inventory id hid

theorem injOn_known (h : manifest.Distinguishes names) :
    Set.InjOn (renamePlace names) (known manifest) := by
  intro id hid other hother heq
  by_cases hplace : other = inventoryPlace
  · rw [(h.renamePlace_eq_inventory hother).2 hplace, h.renamePlace_eq_inventory hid] at heq
    exact heq.trans hplace.symm
  · have hplace' : id ≠ inventoryPlace := by
      rw [ne_eq, ← h.renamePlace_eq_inventory hid, heq, h.renamePlace_eq_inventory hother]
      exact hplace
    have hid := hid.resolve_left hplace'
    have hother := hother.resolve_left hplace
    rw [h.renamePlace_eq hid, h.renamePlace_eq hother] at heq
    exact h.injective id hid other hother heq

theorem exists_renaming (h : manifest.Distinguishes names) :
    ∃ all : Renaming, ∀ id ∈ manifest.entityIds, names id = all id := by
  have hfinite : (known manifest).Finite :=
    (Set.finite_singleton inventoryPlace).union manifest.entityIds.finite_toSet
  obtain ⟨all, hinjective, hknown⟩ := exists_injective_of_injOn hfinite h.injOn_known
  refine ⟨⟨all, hinjective, ?_⟩, ?_⟩
  · rw [hknown _ (.inl rfl), h.renamePlace_eq_inventory (.inl rfl)]
  · intro id hid
    rw [← h.renamePlace_eq hid]
    exact (hknown id (.inr hid)).symm

end Manifest.Distinguishes

/-! ## Only declared ids are renamed -/

theorem Manifest.declared_subset {manifest : Manifest} {kind : EntityKind} {id : Text}
    (h : id ∈ manifest.declared kind) : id ∈ manifest.entityIds := by
  unfold entityIds
  cases kind with
  | item => exact List.mem_append_left _ (List.mem_append_left _ h)
  | location => exact List.mem_append_left _ (List.mem_append_right _ h)
  | character => exact List.mem_append_right _ h

section

variable {names other : Text → Text} {manifest : Manifest} {root : Text}
  (hnames : ∀ id ∈ manifest.entityIds, names id = other id)
include hnames

theorem Reference.map_renameAs_congr {clause : String} {kind : Option EntityKind}
    {id : Option Text}
    (h : ∀ reference ∈ expected clause kind id, reference.Resolved manifest) :
    id.map (renameAs names kind) = id.map (renameAs other kind) := by
  cases kind with
  | none => rfl
  | some kind =>
      obtain ⟨declared, hid, hdeclared⟩ := h ⟨clause, kind, id⟩ List.mem_cons_self
      change id = some declared at hid
      subst hid
      exact congrArg some (hnames declared (Manifest.declared_subset hdeclared))

theorem Condition.rename_congr {condition : Condition}
    (h : ∀ reference ∈ condition.references, reference.Resolved manifest) :
    condition.rename names = condition.rename other := by
  have hsubject := Reference.map_renameAs_congr hnames fun reference hreference =>
    h reference (List.mem_append_left _ hreference)
  have htarget := Reference.map_renameAs_congr hnames fun reference hreference =>
    h reference (List.mem_append_right _ hreference)
  unfold Condition.rename
  rw [htarget, Option.some.inj hsubject]

theorem Effect.rename_congr {effect : Effect}
    (h : ∀ reference ∈ effect.references, reference.Resolved manifest) :
    effect.rename names = effect.rename other := by
  have hsubject := Reference.map_renameAs_congr hnames fun reference hreference =>
    h reference (List.mem_append_left _ hreference)
  have htarget := Reference.map_renameAs_congr hnames fun reference hreference =>
    h reference (List.mem_append_right _ hreference)
  unfold Effect.rename
  rw [htarget, Option.some.inj hsubject]

theorem Rule.Consistent.rename_congr {rule : Rule} (h : rule.Consistent manifest root) :
    rule.rename names = rule.rename other := by
  have hconditions : rule.preconditions.map (Condition.rename names) =
      rule.preconditions.map (Condition.rename other) :=
    List.map_congr_left fun condition hcondition =>
      Condition.rename_congr hnames fun reference hreference =>
        h.references_resolved reference
          (List.mem_append_left _ (List.mem_flatMap.2 ⟨condition, hcondition, hreference⟩))
  have heffects : rule.effects.map (Effect.rename names) =
      rule.effects.map (Effect.rename other) :=
    List.map_congr_left fun effect heffect =>
      Effect.rename_congr hnames fun reference hreference =>
        h.references_resolved reference
          (List.mem_append_right _ (List.mem_flatMap.2 ⟨effect, heffect, hreference⟩))
  unfold Rule.rename
  rw [hconditions, heffects, hnames _ h.trigger_declared]

end

namespace Story.Consistent

variable {story : Story} {root : Text} {names other : Text → Text}

theorem manifest_rename_congr (h : story.Consistent root)
    (hnames : ∀ id ∈ story.manifest.entityIds, names id = other id) :
    story.manifest.rename names = story.manifest.rename other := by
  have hdeclared : ∀ kind, ∀ id ∈ story.manifest.declared kind, names id = other id :=
    fun kind id hid => hnames id (Manifest.declared_subset hid)
  have hitems := List.map_congr_left (hdeclared .item)
  have hlocations := List.map_congr_left (hdeclared .location)
  have hcharacters := List.map_congr_left (hdeclared .character)
  have hstart := hdeclared .location _ h.start_declared
  have hitemPlacement : story.manifest.itemPlacement.rename names (renamePlace names) =
      story.manifest.itemPlacement.rename other (renamePlace other) := by
    refine Keyed.rename_congr fun entry hentry => ?_
    obtain ⟨hitem, hplace⟩ := h.items_placed entry hentry
    refine ⟨hdeclared .item _ hitem, ?_⟩
    unfold renamePlace
    split
    · rfl
    · next hne => exact hdeclared .location _ (hplace.resolve_left hne)
  have hcharacterPlacement : story.manifest.characterPlacement.rename names names =
      story.manifest.characterPlacement.rename other other := by
    refine Keyed.rename_congr fun entry hentry => ?_
    obtain ⟨hcharacter, hplace⟩ := h.characters_placed entry hentry
    exact ⟨hdeclared .character _ hcharacter, hdeclared .location _ hplace⟩
  change story.manifest.items.map names = story.manifest.items.map other at hitems
  change story.manifest.locations.map names = story.manifest.locations.map other at hlocations
  change story.manifest.characters.map names = story.manifest.characters.map other
    at hcharacters
  unfold Manifest.rename
  rw [hitems, hlocations, hcharacters, hstart, hitemPlacement, hcharacterPlacement]

theorem rename_congr (h : story.Consistent root)
    (hnames : ∀ id ∈ story.manifest.entityIds, names id = other id) :
    story.rename names = story.rename other := by
  have hrules : story.rules.map (Rule.rename names) = story.rules.map (Rule.rename other) :=
    List.map_congr_left fun rule hrule => (h.rules_consistent rule hrule).rename_congr hnames
  unfold Story.rename
  rw [h.manifest_rename_congr hnames, hrules]

end Story.Consistent

theorem Manifest.startWorld_rename (manifest : Manifest) (names : Renaming) :
    (manifest.rename names).startWorld = manifest.startWorld.rename names := by
  have hplace : renamePlace names = names := by
    funext place
    unfold renamePlace
    split
    · next heq => rw [heq, names.inventory]
    · rfl
  unfold startWorld Manifest.rename World.rename
  rw [hplace]
  rfl

end Playthrough
