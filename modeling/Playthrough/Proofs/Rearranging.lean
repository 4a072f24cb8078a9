import Playthrough.Proofs.Documents
import Playthrough.Proofs.Endings
import Playthrough.Proofs.Highlighting

/-!
# Rearranged stories

A table remembers the order in which its entries came, and so does every world that a walk
meets.  But all that is read off a world is what its tables hold under some key, or a set of
keys, and neither depends on the order.  So a story whose declarations and placements are
listed in another order is told by the same walk, and has the same graph.
-/

namespace Playthrough

/-! ## Tables and worlds that hold the same -/

namespace Keyed

variable {α β : Type} {table other : Keyed α}

/-- The same values under the same keys, in whatever order. -/
def Agrees (table other : Keyed α) : Prop := ∀ key, other.get? key = table.get? key

theorem agrees_of_perm (h : other.entries.Perm table.entries) : table.Agrees other := by
  intro key
  ext value
  rw [get?_eq_some_iff, get?_eq_some_iff, h.mem_iff]

theorem Agrees.insert (h : table.Agrees other) (key : Text) (value : α) :
    (table.insert key value).Agrees (other.insert key value) := by
  intro held
  rw [get?_insert, get?_insert, h]

theorem Agrees.erase (h : table.Agrees other) (key : Text) :
    (table.erase key).Agrees (other.erase key) := by
  intro held
  rw [get?_erase, get?_erase, h]

theorem Agrees.map (h : table.Agrees other) (f : α → β) : (table.map f).Agrees (other.map f) := by
  intro key
  rw [get?_map, get?_map, h]

theorem Agrees.present {table other : Keyed (Option α)} (h : table.Agrees other) :
    table.present.Agrees other.present := by
  intro key
  rw [get?_present, get?_present, h]

theorem Agrees.placed_iff {table other : Keyed (Option Text)} (h : table.Agrees other) :
    other.Placed ↔ table.Placed :=
  forall_congr' fun key => by rw [h key]

end Keyed

/-- Worlds that differ in the order of their tables at most. -/
structure World.Agrees (world other : World) : Prop where
  location_eq : other.location = world.location
  items : world.items.Agrees other.items
  characters : world.characters.Agrees other.characters
  discovered_eq : other.discovered = world.discovered
  scene_eq : other.scene = world.scene
  ending_eq : other.ending = world.ending

structure Draft.Agrees (draft other : Draft) : Prop where
  location_eq : other.location = draft.location
  items : draft.items.Agrees other.items
  characters : draft.characters.Agrees other.characters
  discovered_eq : other.discovered = draft.discovered
  scene_eq : other.scene = draft.scene
  ending_eq : other.ending = draft.ending

/-! ## Readers of a world -/

namespace World.Agrees

variable {world other : World} (h : world.Agrees other)
include h

theorem itemsAt_eq (place : Text) : other.itemsAt place = world.itemsAt place :=
  IdSet.ext_mem fun item => by rw [mem_itemsAt, mem_itemsAt, h.items]

theorem charactersAt_eq (place : Text) : other.charactersAt place = world.charactersAt place :=
  IdSet.ext_mem fun character => by rw [mem_charactersAt, mem_charactersAt, h.characters]

theorem view_eq : other.view = world.view := by
  unfold view
  simp only [h.itemsAt_eq, h.charactersAt_eq, h.location_eq, h.discovered_eq, h.scene_eq,
    h.ending_eq]

theorem holds_eq (condition : Condition) : condition.holds other = condition.holds world := by
  unfold Condition.holds
  cases condition.kind <;>
    simp only [h.location_eq, h.items _, h.characters _, h.discovered_eq, h.scene_eq]

theorem firstEligible?_eq (ranked : List Rule) (entity : Text) :
    Rule.firstEligible? ranked entity other = Rule.firstEligible? ranked entity world := by
  unfold Rule.firstEligible? Rule.eligible
  simp only [h.holds_eq]

theorem interact (entity : Text) : (world.interact entity).Agrees (other.interact entity) := by
  unfold World.interact
  simp only [h.itemsAt_eq, h.location_eq, h.discovered_eq]
  split
  · exact ⟨rfl, h.items.insert entity inventoryPlace, h.characters, rfl, h.scene_eq, h.ending_eq⟩
  · split
    · exact ⟨rfl, h.items, h.characters, rfl, h.scene_eq, h.ending_eq⟩
    · exact h

theorem ofWorld : (Draft.ofWorld world).Agrees (Draft.ofWorld other) where
  location_eq := h.location_eq
  items := h.items.map some
  characters := h.characters.map some
  discovered_eq := h.discovered_eq
  scene_eq := h.scene_eq
  ending_eq := h.ending_eq

end World.Agrees

/-! ## Effects -/

namespace Draft.Agrees

variable {draft other : Draft} (h : draft.Agrees other)
include h

theorem apply (effect : Effect) : (effect.apply draft).Agrees (effect.apply other) := by
  unfold Effect.apply
  cases effect.kind with
  | moveItemToInventory => exact { h with items := h.items.insert _ _ }
  | moveItemTo => exact { h with items := h.items.insert _ _ }
  | removeItem => exact { h with items := h.items.erase _ }
  | moveCharacterTo => exact { h with characters := h.characters.insert _ _ }
  | removeCharacter => exact { h with characters := h.characters.erase _ }
  | movePlayerTo =>
      exact { h with location_eq := rfl, discovered_eq := by rw [h.discovered_eq] }
  | discoverLocation => exact { h with discovered_eq := by rw [h.discovered_eq] }
  | setScene => exact { h with scene_eq := rfl }
  | setEnding => exact { h with ending_eq := rfl }

theorem foldl_apply (effects : List Effect) :
    (effects.foldl (fun draft effect => effect.apply draft) draft).Agrees
      (effects.foldl (fun draft effect => effect.apply draft) other) := by
  induction effects generalizing draft other with
  | nil => exact h
  | cons effect rest ih => exact ih (h.apply effect)

theorem placed_iff : other.Placed ↔ draft.Placed :=
  and_congr h.items.placed_iff h.characters.placed_iff

theorem settle {world : World} (hsettle : draft.settle = .ok world) :
    ∃ settled, other.settle = .ok settled ∧ world.Agrees settled := by
  obtain ⟨hunplaced, rfl⟩ := settle_eq_ok_iff.1 hsettle
  have hplaced := h.placed_iff.2 (unplaced_eq_nil_iff.1 hunplaced)
  exact ⟨_, settle_eq_ok_iff.2 ⟨unplaced_eq_nil_iff.2 hplaced, rfl⟩, h.location_eq, h.items.present,
    h.characters.present, h.discovered_eq, h.scene_eq, h.ending_eq⟩

end Draft.Agrees

namespace Rule

variable {rules : List Rule} {world other : World}

theorem apply_agrees (h : world.Agrees other) {rule : Rule} {next : World}
    (happly : rule.apply world = .ok next) :
    ∃ twin, rule.apply other = .ok twin ∧ next.Agrees twin :=
  (h.ofWorld.foldl_apply rule.effects).settle happly

/-- Worlds that hold the same are answered the same. -/
theorem matches_agrees (rules : List Rule) :
    (engine rules).Matches (engine rules) World.Agrees where
  view_eq := World.Agrees.view_eq
  answers := by
    intro world other entity outcome h hattempt
    change ∃ answer, attempt (byPriority rules) entity other = .ok answer ∧ _
    unfold attempt
    rw [h.ending_eq, h.firstEligible?_eq]
    rcases attempt_cases hattempt with ⟨hended, rfl⟩ | ⟨hopen, rule, -, hfirst, next, happly, rfl⟩ |
      ⟨hopen, hfirst, rfl⟩
    · obtain ⟨ending, hending⟩ := Option.ne_none_iff_exists'.1 hended
      simp only [hending]
      exact ⟨_, rfl, rfl, h⟩
    · obtain ⟨twin, htwin, hnext⟩ := apply_agrees h happly
      simp only [hopen, hfirst, htwin]
      exact ⟨_, rfl, rfl, hnext⟩
    · simp only [hopen, hfirst]
      exact ⟨_, rfl, rfl, h.interact entity⟩

end Rule

/-! ## Rearranged stories -/

/-- The same but for the order in which things are declared and placed. -/
structure Manifest.Rearranged (manifest other : Manifest) : Prop where
  items : other.items.Perm manifest.items
  locations : other.locations.Perm manifest.locations
  characters : other.characters.Perm manifest.characters
  startLocation_eq : other.startLocation = manifest.startLocation
  itemPlacement : other.itemPlacement.entries.Perm manifest.itemPlacement.entries
  characterPlacement : other.characterPlacement.entries.Perm manifest.characterPlacement.entries
  startScene_eq : other.startScene = manifest.startScene

namespace Manifest.Rearranged

variable {manifest other : Manifest} (h : manifest.Rearranged other)
include h

theorem entityIds : other.entityIds.Perm manifest.entityIds :=
  (h.items.append h.locations).append h.characters

theorem declared (kind : EntityKind) : (other.declared kind).Perm (manifest.declared kind) := by
  cases kind with
  | item => exact h.items
  | location => exact h.locations
  | character => exact h.characters

theorem startWorld : manifest.startWorld.Agrees other.startWorld where
  location_eq := h.startLocation_eq
  items := Keyed.agrees_of_perm h.itemPlacement
  characters := Keyed.agrees_of_perm h.characterPlacement
  discovered_eq := congrArg (fun place => IdSet.ofList [place]) h.startLocation_eq
  scene_eq := h.startScene_eq
  ending_eq := rfl

theorem turns_eq (rules : List Rule) :
    (Rule.scope rules other.startWorld).turns = (Rule.scope rules manifest.startWorld).turns := by
  have hitems : other.itemPlacement.keys.length = manifest.itemPlacement.keys.length :=
    (h.itemPlacement.map Prod.fst).length_eq
  have hcharacters :
      other.characterPlacement.keys.length = manifest.characterPlacement.keys.length :=
    (h.characterPlacement.map Prod.fst).length_eq
  simp only [Rule.Scope.turns, Rule.Scope.views, Rule.Scope.offers, Rule.Scope.subsets, Rule.scope,
    Manifest.startWorld, List.length_append, List.length_cons, h.startLocation_eq, hitems,
    hcharacters]

theorem resolved {reference : Reference} (hresolved : reference.Resolved manifest) :
    reference.Resolved other := by
  obtain ⟨id, hid, hdeclared⟩ := hresolved
  exact ⟨id, hid, (h.declared reference.kind).mem_iff.2 hdeclared⟩

theorem rule_consistent {rule : Rule} {root : Text} (hrule : rule.Consistent manifest root) :
    rule.Consistent other root where
  summary_ne_root := hrule.summary_ne_root
  trigger_declared := h.entityIds.mem_iff.2 hrule.trigger_declared
  references_resolved reference hreference :=
    h.resolved (hrule.references_resolved reference hreference)

end Manifest.Rearranged

structure Story.Rearranged (story other : Story) : Prop where
  title_eq : other.title = story.title
  manifest : story.manifest.Rearranged other.manifest
  rules_eq : other.rules = story.rules

theorem Story.Rearranged.consistent {story other : Story} (h : story.Rearranged other)
    {root : Text} (hconsistent : story.Consistent root) : other.Consistent root where
  ids_distinct := h.manifest.entityIds.nodup_iff.2 hconsistent.ids_distinct
  start_declared := by
    rw [h.manifest.startLocation_eq]
    exact h.manifest.locations.mem_iff.2 hconsistent.start_declared
  items_placed := by
    intro entry hentry
    rw [h.manifest.items.mem_iff, h.manifest.locations.mem_iff]
    exact hconsistent.items_placed entry (h.manifest.itemPlacement.mem_iff.1 hentry)
  characters_placed := by
    intro entry hentry
    rw [h.manifest.characters.mem_iff, h.manifest.locations.mem_iff]
    exact hconsistent.characters_placed entry (h.manifest.characterPlacement.mem_iff.1 hentry)
  summaries_distinct := by
    unfold summaries
    rw [h.rules_eq]
    exact hconsistent.summaries_distinct
  rules_consistent := by
    rw [h.rules_eq]
    exact fun rule hrule => h.manifest.rule_consistent (hconsistent.rules_consistent rule hrule)

/-! ## The same graph -/

namespace Edge

def ofKey (color : Text × Text → Text) (key : Text × Text) : Edge := ⟨key.1, key.2, color key⟩

variable {color : Text × Text → Text}

theorem map_ofKey {edges : List Edge} (h : ∀ edge ∈ edges, edge.color = color edge.key) :
    (edges.map key).map (ofKey color) = edges := by
  have hedge : ∀ edge ∈ edges, (ofKey color ∘ key) edge = id edge := by
    intro edge hmem
    rw [Function.comp_apply, ofKey, ← h edge hmem]
    rfl
  rw [List.map_map, List.map_congr_left hedge, List.map_id]

theorem eq_of_map_key (color : Text × Text → Text) {edges others : List Edge}
    (hkeys : others.map key = edges.map key)
    (h : ∀ edge ∈ edges, edge.color = color edge.key)
    (hothers : ∀ edge ∈ others, edge.color = color edge.key) : others = edges := by
  rw [← map_ofKey h, ← map_ofKey hothers, hkeys]

theorem eq_of_map_keys (color : Text × Text → Text) {paths others : List (List Edge)}
    (hkeys : others.map (·.map key) = paths.map (·.map key))
    (h : ∀ path ∈ paths, ∀ edge ∈ path, edge.color = color edge.key)
    (hothers : ∀ path ∈ others, ∀ edge ∈ path, edge.color = color edge.key) : others = paths := by
  induction others generalizing paths with
  | nil => exact (List.map_eq_nil_iff.1 hkeys.symm).symm
  | cons other others ih =>
      obtain ⟨path, paths, rfl, hpath, hpaths⟩ := List.map_eq_cons_iff.1 hkeys.symm
      rw [List.forall_mem_cons] at h hothers
      rw [eq_of_map_key color hpath.symm h.1 hothers.1, ih hpaths.symm h.2 hothers.2]

end Edge

theorem Graph.Twins.eq {σ τ : Type} [Observable σ] [Observable τ] {graph twin : Graph}
    {config : Config} {record : Record σ} {other : Record τ} (h : graph.Twins twin)
    (hgraph : graph.Highlights config record) (htwin : twin.Highlights config other) :
    twin = graph := by
  let drawn : Text × Text → Text := fun key =>
    if key ∈ graph.examplePath.map Edge.key then config.highlightColor else config.defaultColor
  have hdrawn : ∀ edge ∈ graph.edges, edge.color = drawn edge.key := by
    intro edge hedge
    rw [hgraph.edge_color edge hedge]
    simp only [Edge.isAmong_iff, drawn]
  have htwinDrawn : ∀ edge ∈ twin.edges, edge.color = drawn edge.key := by
    intro edge hedge
    rw [htwin.edge_color edge hedge]
    simp only [Edge.isAmong_iff, drawn, h.example_eq]
  have hedges := Edge.eq_of_map_key drawn h.keys_eq hdrawn htwinDrawn
  have hexample := Edge.eq_of_map_key (fun _ => config.highlightColor) h.example_eq
    hgraph.example_color htwin.example_color
  have hcompleted := Edge.eq_of_map_keys (fun _ => config.defaultColor) h.completed_eq
    hgraph.completed_color htwin.completed_color
  cases graph
  cases twin
  simp only [Graph.mk.injEq]
  exact ⟨h.nodes_eq, hedges, hcompleted, hexample, h.visited_eq⟩

namespace Story

/-- A story that is rearranged is accepted too, and has the very same graph. -/
theorem graph_rearranged (config : Config) (document : Json) (root : Text) (story other : Story)
    (hload : load document root = .ok story) (h : story.Rearranged other) :
    load other.toJson root = .ok other ∧
      ∃ graph, story.graph config = .ok graph ∧ other.graph config = .ok graph := by
  have hconsistent := consistent_of_load hload
  refine ⟨(h.consistent hconsistent).load_toJson, ?_⟩
  obtain ⟨record, hbuild⟩ :=
    Rule.exists_build hconsistent.exists_attempt config story.manifest.startWorld
  obtain ⟨twin, htwin, htwins⟩ := Walk.exists_build_twins (Rule.matches_agrees story.rules)
    h.manifest.startWorld (h.manifest.turns_eq story.rules) config.defaultColor
    config.highlightColor hbuild
  change Walk.build _ config _ = _ at htwin
  rw [← h.rules_eq] at htwin
  refine ⟨_, graph_eq_ok hbuild, ?_⟩
  rw [graph_eq_ok htwin, Except.ok.injEq]
  obtain ⟨walk, hfinished, rfl⟩ := Walk.build_finished hbuild
  obtain ⟨twinWalk, htwinFinished, rfl⟩ := Walk.build_finished htwin
  exact (Graph.twins_ofRecord htwins config config).eq (Graph.highlights_of_finished hfinished)
    (Graph.highlights_of_finished htwinFinished)

/-- Ann shows the way to the cellar by the light of the lamp.  The key that is there opens the
door. -/
def household (manifest : Manifest) : Story where
  title := "Household"
  manifest := manifest
  rules := [
    ⟨"AskAnn", "Ann", [⟨.itemInInventory, "Lamp", none⟩], [⟨.discoverLocation, "Cellar", none⟩], 0⟩,
    ⟨"AskBob", "Bob", [], [⟨.moveCharacterTo, "Bob", some "Cellar"⟩], 0⟩,
    ⟨"Leave", "Key", [⟨.itemInInventory, "Key", none⟩], [⟨.setEnding, "Away", none⟩], 0⟩]

def hallFirst : Manifest where
  items := ["Lamp", "Key"]
  locations := ["Hall", "Cellar"]
  characters := ["Ann", "Bob"]
  startLocation := "Hall"
  itemPlacement := .ofList [("Lamp", "Hall"), ("Key", "Cellar")]
  characterPlacement := .ofList [("Ann", "Hall"), ("Bob", "Hall")]
  startScene := "start"

def cellarFirst : Manifest where
  items := ["Key", "Lamp"]
  locations := ["Cellar", "Hall"]
  characters := ["Bob", "Ann"]
  startLocation := "Hall"
  itemPlacement := .ofList [("Key", "Cellar"), ("Lamp", "Hall")]
  characterPlacement := .ofList [("Bob", "Hall"), ("Ann", "Hall")]
  startScene := "start"

theorem rearranged_household : (household hallFirst).Rearranged (household cellarFirst) where
  title_eq := rfl
  manifest := {
    items := by decide
    locations := by decide
    characters := by decide
    startLocation_eq := rfl
    itemPlacement := by decide
    characterPlacement := by decide
    startScene_eq := rfl }
  rules_eq := rfl

theorem household_graph :
    load (household hallFirst).toJson "Begining" = .ok (household hallFirst) ∧
    (household hallFirst).Rearranged (household cellarFirst) ∧
    load (household cellarFirst).toJson "Begining" = .ok (household cellarFirst) ∧
    ∃ graph, (household hallFirst).graph {} = .ok graph ∧
      (household cellarFirst).graph {} = .ok graph := by
  have hload : load (household hallFirst).toJson "Begining" = .ok (household hallFirst) := by
    decide +kernel
  exact ⟨hload, rearranged_household,
    graph_rearranged {} (household hallFirst).toJson "Begining" _ _ hload rearranged_household⟩

end Story

end Playthrough
