import Mathlib.Data.List.Nodup
import Playthrough.Catalog
import Playthrough.Proofs.Attempt
import Playthrough.Proofs.Tables

/-!
# Accepted stories

A story without faults is a consistent one, and the rules of a consistent story leave
nothing without a place.  So the engine of an accepted story answers every attempt.
-/

namespace Playthrough

/-! ## Faults and consistency -/

theorem Fault.mem_when {present : Prop} [Decidable present] {fault other : Fault} :
    other ∈ when present fault ↔ present ∧ other = fault := by
  unfold when
  split <;> simp [*]

theorem repeatedIds_eq_nil_iff {ids : List Text} :
    (repeatedIds ids).toList = [] ↔ ids.Nodup := by
  rw [List.nodup_iff_count_le_one, List.eq_nil_iff_forall_not_mem]
  refine forall_congr' fun id => ?_
  rw [← IdSet.mem_iff, mem_repeatedIds]
  omega

theorem Manifest.faults_eq_nil_iff {manifest : Manifest} :
    manifest.faults = [] ↔ manifest.entityIds.Nodup ∧
      manifest.startLocation ∈ manifest.locations ∧
      (∀ entry ∈ manifest.itemPlacement.entries, entry.1 ∈ manifest.items ∧
        (entry.2 = inventoryPlace ∨ entry.2 ∈ manifest.locations)) ∧
      (∀ entry ∈ manifest.characterPlacement.entries, entry.1 ∈ manifest.characters ∧
        entry.2 ∈ manifest.locations) := by
  simp only [faults, itemFaults, characterFaults, List.append_eq_nil_iff,
    List.flatMap_eq_nil_iff, Fault.when_eq_nil_iff, not_not, repeatedIds_eq_nil_iff,
    not_and_or, and_assoc, ne_eq]

theorem Reference.faults_eq_nil_iff {manifest : Manifest} {summary : Text}
    {reference : Reference} :
    reference.faults manifest summary = [] ↔ reference.Resolved manifest := by
  unfold faults Resolved
  cases reference.id with
  | none => simp
  | some id => simp

theorem Rule.faults_eq_nil_iff {manifest : Manifest} {root : Text} {rule : Rule} :
    rule.faults manifest root = [] ↔ rule.Consistent manifest root := by
  simp only [faults, List.append_eq_nil_iff, List.flatMap_eq_nil_iff,
    Fault.when_eq_nil_iff, not_not, Reference.faults_eq_nil_iff]
  constructor
  · rintro ⟨⟨hsummary, htrigger⟩, hreferences⟩
    exact ⟨hsummary, htrigger, hreferences⟩
  · rintro ⟨hsummary, htrigger, hreferences⟩
    exact ⟨⟨hsummary, htrigger⟩, hreferences⟩

theorem Story.faults_eq_nil_iff {story : Story} {root : Text} :
    story.faults root = [] ↔ story.Consistent root := by
  simp only [faults, List.append_eq_nil_iff, List.flatMap_eq_nil_iff,
    Fault.when_eq_nil_iff, ne_eq, not_not, repeatedIds_eq_nil_iff,
    Manifest.faults_eq_nil_iff, Rule.faults_eq_nil_iff]
  constructor
  · rintro ⟨⟨⟨hids, hstart, hitems, hcharacters⟩, hsummaries⟩, hrules⟩
    exact ⟨hids, hstart, hitems, hcharacters, hsummaries, hrules⟩
  · rintro ⟨hids, hstart, hitems, hcharacters, hsummaries, hrules⟩
    exact ⟨⟨⟨hids, hstart, hitems, hcharacters⟩, hsummaries⟩, hrules⟩

theorem Story.validate_eq_ok_iff {story : Story} {root : Text} :
    story.validate root = .ok () ↔ story.Consistent root := by
  rw [← faults_eq_nil_iff, ← List.head?_eq_none_iff]
  change _ ↔ story.firstFault? root = none
  unfold validate
  cases story.firstFault? root <;> simp

theorem Story.consistent_of_load {document : Json} {root : Text} {story : Story}
    (h : load document root = .ok story) : story.Consistent root := by
  unfold load at h
  split at h
  · cases h
  · next loaded hvalid =>
      split at h
      · next hvalidate =>
          cases h
          exact validate_eq_ok_iff.1 hvalidate
      · cases h

theorem Story.consistent_of_loadFile {bytes : List UInt8} {root : Text} {story : Story}
    (h : loadFile bytes root = .ok story) : story.Consistent root := by
  unfold loadFile at h
  split at h
  · cases h
  · split at h
    · cases h
    · next document hread =>
        cases hload : load document root with
        | error fault => simp [hload, Except.mapError] at h
        | ok loaded =>
            simp only [hload, Except.mapError, Except.ok.injEq] at h
            subst h
            exact consistent_of_load hload

/-! ## Another root -/

theorem Rule.Consistent.faults_eq {manifest : Manifest} {root : Text} {rule : Rule}
    (h : rule.Consistent manifest root) (other : Text) :
    rule.faults manifest other =
      Fault.when (rule.summary = other) (.reservedSummary rule.summary) := by
  have hreferences : rule.references.flatMap (Reference.faults manifest rule.summary) = [] :=
    List.flatMap_eq_nil_iff.2 fun reference hreference =>
      Reference.faults_eq_nil_iff.2 (h.references_resolved reference hreference)
  unfold faults
  rw [hreferences, Fault.when_eq_nil_iff.2 (not_not.2 h.trigger_declared), List.append_nil,
    List.append_nil]

theorem Story.Consistent.faults_eq {story : Story} {root : Text} (h : story.Consistent root)
    (other : Text) :
    story.faults other =
      story.rules.flatMap fun rule =>
        Fault.when (rule.summary = other) (.reservedSummary rule.summary) := by
  have hmanifest : story.manifest.faults = [] := Manifest.faults_eq_nil_iff.2
    ⟨h.ids_distinct, h.start_declared, h.items_placed, h.characters_placed⟩
  have hsummaries : (repeatedIds story.summaries).toList = [] :=
    repeatedIds_eq_nil_iff.2 h.summaries_distinct
  have hrules : story.rules.flatMap (Rule.faults story.manifest other) =
      story.rules.flatMap fun rule =>
        Fault.when (rule.summary = other) (.reservedSummary rule.summary) :=
    List.flatMap_congr fun rule hrule => (h.rules_consistent rule hrule).faults_eq other
  simp [faults, hmanifest, hsummaries, hrules, Fault.when]

theorem Story.Consistent.root_free {story : Story} {root : Text} (h : story.Consistent root) :
    root ∉ story.summaries := by
  intro hroot
  obtain ⟨rule, hrule, hsummary⟩ := List.mem_map.1 hroot
  exact (h.rules_consistent rule hrule).summary_ne_root hsummary

theorem Story.Consistent.validate_eq {story : Story} {root : Text} (h : story.Consistent root)
    (other : Text) :
    story.validate other =
      if other ∈ story.summaries then .error (.reservedSummary other) else .ok () := by
  split
  · next hmem =>
      unfold validate
      cases hfirst : story.firstFault? other with
      | none =>
          have hother : story.Consistent other :=
            validate_eq_ok_iff.1 (by rw [validate, hfirst])
          exact absurd hmem hother.root_free
      | some fault =>
          have hfault : fault ∈ story.faults other := List.mem_of_head? hfirst
          rw [h.faults_eq, List.mem_flatMap] at hfault
          obtain ⟨reserved, -, hreserved⟩ := hfault
          rw [Fault.mem_when] at hreserved
          obtain ⟨rfl, rfl⟩ := hreserved
          rfl
  · next hnot =>
      rw [validate_eq_ok_iff, ← faults_eq_nil_iff, h.faults_eq]
      refine List.flatMap_eq_nil_iff.2 fun rule hrule => Fault.when_eq_nil_iff.2 ?_
      rintro rfl
      exact hnot (List.mem_map_of_mem hrule)

/-! ## Nothing without a place -/

def Keyed.Placed (table : Keyed (Option Text)) : Prop :=
  ∀ key, table.get? key ≠ some none

namespace Keyed

variable {table : Keyed (Option Text)}

theorem absent_eq_nil_iff : table.absent = [] ↔ table.Placed := by
  rw [List.eq_nil_iff_forall_not_mem]
  exact forall_congr' fun key => not_congr mem_absent

theorem placed_iff_all : table.Placed ↔ table.All fun _ place => place ≠ none :=
  ⟨fun h key _ hheld heq => h key (heq ▸ hheld), fun h key hheld => h key none hheld rfl⟩

theorem Placed.insert (h : table.Placed) (key : Text) {place : Option Text}
    (hplace : place ≠ none) : (table.insert key place).Placed :=
  placed_iff_all.2 (All.insert (placed_iff_all.1 h) hplace)

theorem Placed.erase (h : table.Placed) (key : Text) : (table.erase key).Placed :=
  placed_iff_all.2 (All.erase (placed_iff_all.1 h) key)

theorem placed_map_some (table : Keyed Text) : (table.map some).Placed := by
  intro key
  simp

end Keyed

def Draft.Placed (draft : Draft) : Prop := draft.items.Placed ∧ draft.characters.Placed

theorem Draft.unplaced_eq_nil_iff {draft : Draft} : draft.unplaced = [] ↔ draft.Placed := by
  unfold unplaced Placed
  rw [List.append_eq_nil_iff, List.map_eq_nil_iff, List.map_eq_nil_iff, Keyed.absent_eq_nil_iff,
    Keyed.absent_eq_nil_iff]

theorem Draft.Placed.settle {draft : Draft} (h : draft.Placed) :
    ∃ world, draft.settle = .ok world :=
  ⟨_, settle_eq_ok_iff.2 ⟨unplaced_eq_nil_iff.2 h, rfl⟩⟩

def Effect.Targeted (effect : Effect) : Prop :=
  effect.kind.targetKind ≠ none → effect.target ≠ none

theorem Draft.Placed.apply {draft : Draft} (h : draft.Placed) {effect : Effect}
    (htarget : effect.Targeted) : (effect.apply draft).Placed := by
  unfold Effect.Targeted at htarget
  unfold Effect.apply
  cases hkind : effect.kind with
  | moveItemToInventory => exact ⟨h.1.insert _ (by simp), h.2⟩
  | moveItemTo => exact ⟨h.1.insert _ (htarget (by simp [hkind, EffectKind.targetKind])), h.2⟩
  | removeItem => exact ⟨h.1.erase _, h.2⟩
  | moveCharacterTo =>
      exact ⟨h.1, h.2.insert _ (htarget (by simp [hkind, EffectKind.targetKind]))⟩
  | removeCharacter => exact ⟨h.1, h.2.erase _⟩
  | movePlayerTo => exact h
  | discoverLocation => exact h
  | setScene => exact h
  | setEnding => exact h

namespace Effect

variable {manifest : Manifest} {effect : Effect}

theorem subject_declared (h : ∀ reference ∈ effect.references, reference.Resolved manifest)
    {kind : EntityKind} (hkind : effect.kind.subjectKind = some kind) :
    effect.subject ∈ manifest.declared kind := by
  have hmem : ⟨effect.kind.name, kind, some effect.subject⟩ ∈ effect.references := by
    unfold references
    rw [hkind]
    exact List.mem_append_left _ List.mem_cons_self
  obtain ⟨id, hid, hdeclared⟩ := h _ hmem
  cases hid
  exact hdeclared

theorem exists_target (h : ∀ reference ∈ effect.references, reference.Resolved manifest)
    {kind : EntityKind} (hkind : effect.kind.targetKind = some kind) :
    ∃ id, effect.target = some id ∧ id ∈ manifest.declared kind := by
  have hmem : ⟨effect.kind.name, kind, effect.target⟩ ∈ effect.references := by
    unfold references
    rw [hkind]
    exact List.mem_append_right _ List.mem_cons_self
  exact h _ hmem

theorem targeted_of_resolved
    (h : ∀ reference ∈ effect.references, reference.Resolved manifest) :
    effect.Targeted := by
  intro hkind
  obtain ⟨kind, hkind⟩ := Option.ne_none_iff_exists'.1 hkind
  obtain ⟨id, hid, -⟩ := exists_target h hkind
  exact Option.ne_none_iff_exists'.2 ⟨id, hid⟩

end Effect

/-! ## No attempt fails -/

namespace Rule

theorem exists_apply {rule : Rule} (h : ∀ effect ∈ rule.effects, effect.Targeted)
    (world : World) : ∃ next, rule.apply world = .ok next := by
  have hplaced : (rule.draft world).Placed := by
    refine draft_keeps ?_ ?_
    · exact ⟨Keyed.placed_map_some _, Keyed.placed_map_some _⟩
    · intro draft hdraft effect heffect
      exact hdraft.apply (h effect heffect)
  exact hplaced.settle

theorem Consistent.effect_resolved {manifest : Manifest} {root : Text} {rule : Rule}
    (h : rule.Consistent manifest root) {effect : Effect} (heffect : effect ∈ rule.effects) :
    ∀ reference ∈ effect.references, reference.Resolved manifest := by
  intro reference hreference
  exact h.references_resolved reference
    (List.mem_append_right _ (List.mem_flatMap.2 ⟨effect, heffect, hreference⟩))

theorem Consistent.targeted {manifest : Manifest} {root : Text} {rule : Rule}
    (h : rule.Consistent manifest root) : ∀ effect ∈ rule.effects, effect.Targeted :=
  fun _ heffect => Effect.targeted_of_resolved (h.effect_resolved heffect)

end Rule

theorem Story.Consistent.exists_attempt {story : Story} {root : Text}
    (h : story.Consistent root) (entity : Text) (world : World) :
    ∃ outcome, (Rule.engine story.rules).attempt entity world = .ok outcome := by
  cases hattempt : (Rule.engine story.rules).attempt entity world with
  | ok outcome => exact ⟨outcome, rfl⟩
  | error unplaced =>
      obtain ⟨-, rule, hrule, -, hfails⟩ := Rule.attempt_eq_error hattempt
      obtain ⟨next, happly⟩ := Rule.exists_apply (h.rules_consistent rule hrule).targeted world
      rw [happly] at hfails
      cases hfails

end Playthrough
