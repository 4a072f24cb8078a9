import Mathlib.Data.List.ProdSigma
import Mathlib.Data.List.Sublists
import Playthrough.Proofs.Attempt
import Playthrough.Proofs.Fuel
import Playthrough.Proofs.Tables

/-!
# What rules can bring into sight

Every location, item, character, scene and ending of a world that rules lead to was
there at the start or is the subject of an effect.  So the views that can be met are
among finitely many, and the budget of the rule engine is never spent.
-/

namespace Playthrough

/-! ## Tables and sets of ids -/

namespace Keyed

variable {α : Type}

def Within (table : Keyed α) (ids : List Text) : Prop :=
  ∀ key value, table.get? key = some value → key ∈ ids

theorem within_keys (table : Keyed α) : table.Within table.keys := by
  intro key value hvalue
  exact List.mem_map.2 ⟨(key, value), get?_eq_some_iff.1 hvalue, rfl⟩

theorem Within.append {table : Keyed α} {ids : List Text} (h : table.Within ids)
    (more : List Text) : table.Within (ids ++ more) :=
  All.imp h fun _ _ hkey => List.mem_append_left more hkey

theorem Within.insert {table : Keyed α} {ids : List Text} (h : table.Within ids)
    {key : Text} (hkey : key ∈ ids) (value : α) : (table.insert key value).Within ids :=
  All.insert h hkey

theorem Within.erase {table : Keyed α} {ids : List Text} (h : table.Within ids)
    (key : Text) : (table.erase key).Within ids :=
  All.erase h key

theorem Within.map {β : Type} {table : Keyed α} {ids : List Text} (h : table.Within ids)
    (f : α → β) : (table.map f).Within ids :=
  All.map h fun _ _ hkey => hkey

theorem Within.present {table : Keyed (Option α)} {ids : List Text}
    (h : table.Within ids) : table.present.Within ids :=
  All.present (All.imp h fun _ _ hkey _ _ => hkey)

end Keyed

namespace IdSet

theorem nodup (ids : IdSet) : ids.toList.Nodup := by
  refine ids.ascending.imp ?_
  intro first second hlt heq
  exact Text.lt_irrefl second (heq ▸ hlt)

theorem length_le {ids : IdSet} {list : List Text} (h : ∀ id ∈ ids, id ∈ list) :
    ids.toList.length ≤ list.length :=
  (List.subperm_of_subset ids.nodup h).length_le

def subsetsOf (list : List Text) : List IdSet := list.sublists.map ofList

theorem mem_subsetsOf {ids : IdSet} {list : List Text} (h : ∀ id ∈ ids, id ∈ list) :
    ids ∈ subsetsOf list := by
  refine List.mem_map.2 ⟨list.filter (· ∈ ids), ?_, ?_⟩
  · exact List.mem_sublists.2 List.filter_sublist
  · refine ext_mem fun id => ?_
    rw [mem_ofList, List.mem_filter, decide_eq_true_eq]
    exact ⟨And.right, fun hid => ⟨h id hid, hid⟩⟩

@[simp] theorem length_subsetsOf (list : List Text) :
    (subsetsOf list).length = Rule.Scope.subsets list := by
  simp [subsetsOf, Rule.Scope.subsets, List.length_sublists]

end IdSet

namespace Rule

/-! ## The scope of some rules -/

theorem mem_subjects {rules : List Rule} {kinds : List EffectKind} {rule : Rule}
    {effect : Effect} (hrule : rule ∈ rules) (heffect : effect ∈ rule.effects)
    (hkind : effect.kind ∈ kinds) : effect.subject ∈ subjects rules kinds := by
  refine List.mem_flatMap.2 ⟨rule, hrule, List.mem_map.2 ⟨effect, ?_, rfl⟩⟩
  exact List.mem_filter.2 ⟨heffect, decide_eq_true hkind⟩

namespace Scope

/-- Nothing in a world is beyond the scope. -/
structure Admits (scope : Scope) (world : World) : Prop where
  location : world.location ∈ scope.locations
  items : world.items.Within scope.items
  characters : world.characters.Within scope.characters
  discovered : ∀ place ∈ world.discovered, place ∈ scope.locations
  scene : world.scene ∈ scope.scenes
  ending : world.ending ∈ scope.endings

structure AdmitsDraft (scope : Scope) (draft : Draft) : Prop where
  location : draft.location ∈ scope.locations
  items : draft.items.Within scope.items
  characters : draft.characters.Within scope.characters
  discovered : ∀ place ∈ draft.discovered, place ∈ scope.locations
  scene : draft.scene ∈ scope.scenes
  ending : draft.ending ∈ scope.endings

theorem admits_start (rules : List Rule) (start : World) :
    (scope rules start).Admits start where
  location := List.mem_append_left _ List.mem_cons_self
  items := start.items.within_keys.append _
  characters := start.characters.within_keys.append _
  discovered _ hplace := List.mem_append_left _ (List.mem_cons_of_mem _ hplace)
  scene := List.mem_cons_self
  ending := List.mem_cons_self

theorem Admits.draft {scope : Scope} {world : World} (h : scope.Admits world) :
    scope.AdmitsDraft (Draft.ofWorld world) :=
  ⟨h.location, h.items.map some, h.characters.map some, h.discovered, h.scene, h.ending⟩

theorem AdmitsDraft.settle {scope : Scope} {draft : Draft} {world : World}
    (h : scope.AdmitsDraft draft) (hworld : draft.settle = .ok world) :
    scope.Admits world := by
  obtain ⟨-, rfl⟩ := Draft.settle_eq_ok_iff.1 hworld
  exact ⟨h.location, h.items.present, h.characters.present, h.discovered, h.scene, h.ending⟩

theorem AdmitsDraft.apply {rules : List Rule} {start : World} {draft : Draft}
    (h : (scope rules start).AdmitsDraft draft) {rule : Rule} (hrule : rule ∈ rules)
    {effect : Effect} (heffect : effect ∈ rule.effects) :
    (scope rules start).AdmitsDraft (effect.apply draft) := by
  have hsubject : ∀ kinds, effect.kind ∈ kinds → effect.subject ∈ subjects rules kinds :=
    fun kinds => mem_subjects hrule heffect
  unfold Effect.apply
  cases hkind : effect.kind with
  | moveItemToInventory =>
      have hitem : effect.subject ∈ (scope rules start).items :=
        List.mem_append_right _ (hsubject _ (by simp [hkind]))
      exact { h with items := h.items.insert hitem _ }
  | moveItemTo =>
      have hitem : effect.subject ∈ (scope rules start).items :=
        List.mem_append_right _ (hsubject _ (by simp [hkind]))
      exact { h with items := h.items.insert hitem _ }
  | removeItem => exact { h with items := h.items.erase _ }
  | moveCharacterTo =>
      have hcharacter : effect.subject ∈ (scope rules start).characters :=
        List.mem_append_right _ (hsubject _ (by simp [hkind]))
      exact { h with characters := h.characters.insert hcharacter _ }
  | removeCharacter => exact { h with characters := h.characters.erase _ }
  | movePlayerTo =>
      have hplace : effect.subject ∈ (scope rules start).locations :=
        List.mem_append_right _ (hsubject _ (by simp [hkind]))
      refine { h with location := hplace, discovered := ?_ }
      intro place hmem
      rcases IdSet.mem_insert.1 hmem with rfl | hold
      · exact hplace
      · exact h.discovered place hold
  | discoverLocation =>
      have hplace : effect.subject ∈ (scope rules start).locations :=
        List.mem_append_right _ (hsubject _ (by simp [hkind]))
      refine { h with discovered := ?_ }
      intro place hmem
      rcases IdSet.mem_insert.1 hmem with rfl | hold
      · exact hplace
      · exact h.discovered place hold
  | setScene =>
      exact { h with scene := List.mem_cons_of_mem _ (hsubject _ (by simp [hkind])) }
  | setEnding =>
      have hending := hsubject [.setEnding] (by simp [hkind])
      exact { h with ending := List.mem_cons_of_mem _ (List.mem_map_of_mem hending) }

theorem Admits.rule_apply {rules : List Rule} {start world next : World}
    (h : (scope rules start).Admits world) {rule : Rule} (hrule : rule ∈ rules)
    (hnext : rule.apply world = .ok next) : (scope rules start).Admits next := by
  have hdraft : (scope rules start).AdmitsDraft (rule.draft world) :=
    draft_keeps h.draft fun _ hdraft _ heffect => hdraft.apply hrule heffect
  exact hdraft.settle hnext

theorem Admits.interact {scope : Scope} {world : World} (h : scope.Admits world)
    (entity : Text) : scope.Admits (world.interact entity) := by
  unfold World.interact
  split
  · next hitem =>
      have hkey := h.items entity _ (World.mem_itemsAt.1 hitem)
      exact { h with items := h.items.insert hkey _ }
  · split
    · next hplace => exact { h with location := h.discovered entity hplace.1 }
    · exact h

end Scope

theorem Scope.Admits.attempt {rules : List Rule} {start world : World}
    (h : (scope rules start).Admits world) {entity : Text} {outcome : Outcome World}
    (hattempt : (engine rules).attempt entity world = .ok outcome) :
    (scope rules start).Admits outcome.next := by
  rcases attempt_cases hattempt with ⟨-, rfl⟩ | ⟨-, rule, hrule, -, next, happly, rfl⟩ |
    ⟨-, -, rfl⟩
  · exact h
  · exact h.rule_apply hrule happly
  · exact h.interact entity

/-! ## The views of a scope -/

namespace Scope

def sights (scope : Scope) : List View :=
  (scope.locations ×ˢ IdSet.subsetsOf scope.items ×ˢ IdSet.subsetsOf scope.items ×ˢ
    IdSet.subsetsOf scope.locations ×ˢ IdSet.subsetsOf scope.characters ×ˢ
    scope.scenes ×ˢ scope.endings).map
      fun (location, itemsHere, inventory, discovered, charactersHere, scene, ending) =>
        ⟨location, itemsHere, inventory, discovered, charactersHere, scene, ending⟩

theorem length_sights (scope : Scope) : scope.sights.length = scope.views := by
  simp [sights, views, List.length_product, Nat.mul_assoc]

namespace Admits

variable {scope : Scope} {world : World}

theorem itemsAt_subset (h : scope.Admits world) (place : Text) :
    ∀ item ∈ world.itemsAt place, item ∈ scope.items := by
  intro item hitem
  exact h.items item place (World.mem_itemsAt.1 hitem)

theorem charactersAt_subset (h : scope.Admits world) (place : Text) :
    ∀ character ∈ world.charactersAt place, character ∈ scope.characters := by
  intro character hcharacter
  exact h.characters character place (World.mem_charactersAt.1 hcharacter)

theorem view_mem_sights (h : scope.Admits world) : world.view ∈ scope.sights := by
  refine List.mem_map.2 ⟨(world.location, world.itemsAt world.location,
    world.itemsAt inventoryPlace, world.discovered, world.charactersAt world.location,
    world.scene, world.ending), ?_, rfl⟩
  simp only [List.mem_product]
  exact ⟨h.location, IdSet.mem_subsetsOf (h.itemsAt_subset _),
    IdSet.mem_subsetsOf (h.itemsAt_subset _), IdSet.mem_subsetsOf h.discovered,
    IdSet.mem_subsetsOf (h.charactersAt_subset _), h.scene, h.ending⟩

theorem length_interactables_le (h : scope.Admits world) :
    (interactables world).length ≤ scope.offers := by
  have hcharacters := IdSet.length_le (h.charactersAt_subset world.location)
  have hitems := IdSet.length_le (h.itemsAt_subset world.location)
  have hinventory := IdSet.length_le (h.itemsAt_subset inventoryPlace)
  have hdiscovered := IdSet.length_le h.discovered
  change (world.charactersAt world.location).toList.length ≤ _ at hcharacters
  simp only [interactables, View.interactables, view, World.view, List.length_append, offers]
  omega

end Admits

end Scope

theorem engine_confined (rules : List Rule) (start : World) :
    (engine rules).Confined (scope rules start).Admits (scope rules start).sights.toFinset
      (scope rules start).offers where
  view_mem _ h := List.mem_toFinset.2 h.view_mem_sights
  length_le _ h := h.length_interactables_le
  kept _ _ _ h hattempt := h.attempt hattempt

theorem card_sights_le (rules : List Rule) (start : World) :
    (scope rules start).sights.toFinset.card ≤ (scope rules start).views := by
  rw [← Scope.length_sights]
  exact List.toFinset_card_le _

/-- The budget of the rule engine suffices for any walk. -/
theorem explore_not_exhausted (rules : List Rule) (config : Config) (frame : Frame World)
    (record : Record World) :
    (Walk.explore (engine rules) config frame record).2 ≠ some .exhausted := by
  refine Walk.explore_ne_exhausted (engine_confined rules frame.state)
    (Scope.admits_start rules frame.state) ?_
  exact Nat.mul_le_mul_right _ (Nat.add_le_add_right (card_sights_le rules frame.state) 1)

end Rule

end Playthrough
