import Mathlib.Data.List.Nodup
import Playthrough.Engine.Apply
import Playthrough.Proofs.Tables

/-!
# Renaming ids

Ids are opaque: what the tables and sets of a world hold under an id, they hold under its
new name after a renaming.  Only the order in which ids are listed can change.
-/

namespace Playthrough

/-- New names for ids, different ones for different ids.  Carried items stay where they
are. -/
structure Renaming where
  name : Text → Text
  injective : Function.Injective name
  inventory : name inventoryPlace = inventoryPlace

instance : CoeFun Renaming fun _ => Text → Text := ⟨Renaming.name⟩

/-! ## Tables -/

namespace Keyed

variable {α β : Type}

/-- Rename the keys, and change the values along. -/
def rename (names : Text → Text) (change : α → β) (table : Keyed α) : Keyed β :=
  ofList (table.entries.map (Prod.map names change))

theorem rename_congr {names other : Text → Text} {change alike : α → β} {table : Keyed α}
    (h : ∀ entry ∈ table.entries, names entry.1 = other entry.1 ∧
      change entry.2 = alike entry.2) :
    table.rename names change = table.rename other alike := by
  unfold rename
  have hentries : table.entries.map (Prod.map names change) =
      table.entries.map (Prod.map other alike) :=
    List.map_congr_left fun entry hentry =>
      Prod.ext_iff.2 (h entry hentry)
  rw [hentries]

section

variable {names : Text → Text} (hnames : Function.Injective names)
include hnames

theorem entries_rename (change : α → β) (table : Keyed α) :
    (table.rename names change).entries = table.entries.map (Prod.map names change) := by
  refine entries_ofList ?_
  have hkeys : (table.entries.map (Prod.map names change)).map Prod.fst =
      (table.entries.map Prod.fst).map names := by simp
  rw [hkeys]
  exact table.nodup.map hnames

theorem get?_rename_eq_some_iff {change : α → β} {table : Keyed α} {key : Text} {value : β} :
    (table.rename names change).get? key = some value ↔
      ∃ old held, table.get? old = some held ∧ names old = key ∧ change held = value := by
  simp only [get?_eq_some_iff, entries_rename hnames, List.mem_map, Prod.exists, Prod.map_apply,
    Prod.mk.injEq]

theorem get?_rename (change : α → β) (table : Keyed α) (key : Text) :
    (table.rename names change).get? (names key) = (table.get? key).map change := by
  ext value
  rw [get?_rename_eq_some_iff hnames, Option.map_eq_some_iff]
  constructor
  · rintro ⟨old, held, hheld, hold, hvalue⟩
    exact ⟨held, hnames hold ▸ hheld, hvalue⟩
  · rintro ⟨held, hheld, hvalue⟩
    exact ⟨key, held, hheld, rfl, hvalue⟩

theorem map_assign (change : α → β) (key : Text) (value : α) (entries : List (Text × α)) :
    assign (names key) (change value) (entries.map (Prod.map names change)) =
      (assign key value entries).map (Prod.map names change) := by
  induction entries with
  | nil => rfl
  | cons entry rest ih =>
      simp only [assign, List.map_cons, Prod.map_fst, hnames.eq_iff, ih]
      split <;> rfl

theorem rename_insert (change : α → β) (key : Text) (value : α) (table : Keyed α) :
    (table.insert key value).rename names change =
      (table.rename names change).insert (names key) (change value) := by
  refine eq_of_entries ?_
  simp only [insert, entries_rename hnames, map_assign hnames]

theorem rename_erase (change : α → β) (key : Text) (table : Keyed α) :
    (table.erase key).rename names change = (table.rename names change).erase (names key) := by
  refine eq_of_entries ?_
  simp only [erase, entries_rename hnames, List.filter_map]
  congr 1
  refine List.filter_congr fun entry _ => ?_
  simp [bne, hnames.eq_iff]

theorem rename_map_some (change : α → β) (table : Keyed α) :
    (table.map some).rename names (Option.map change) =
      (table.rename names change).map some := by
  refine eq_of_entries ?_
  simp [map, entries_rename hnames, Function.comp_def]

theorem rename_present (change : α → β) (table : Keyed (Option α)) :
    (table.rename names (Option.map change)).present =
      table.present.rename names change := by
  refine eq_of_entries ?_
  simp only [present, entries_rename hnames, List.filterMap_map, List.map_filterMap]
  refine List.filterMap_congr fun entry _ => ?_
  obtain ⟨key, held⟩ := entry
  cases held <;> rfl

theorem absent_rename (change : α → β) (table : Keyed (Option α)) :
    (table.rename names (Option.map change)).absent = table.absent.map names := by
  simp [absent, keysWhere, entries_rename hnames, List.filter_map, Function.comp_def]

end

end Keyed

/-! ## Sets -/

namespace IdSet

def rename (names : Text → Text) (ids : IdSet) : IdSet := ofList (ids.toList.map names)

@[simp] theorem mem_rename {names : Text → Text} {ids : IdSet} {id : Text} :
    id ∈ ids.rename names ↔ ∃ old ∈ ids, names old = id := by
  rw [rename, mem_ofList, List.mem_map]
  rfl

theorem name_mem_rename {names : Text → Text} (hnames : Function.Injective names)
    {ids : IdSet} {id : Text} : names id ∈ ids.rename names ↔ id ∈ ids := by
  simp [hnames.eq_iff]

theorem rename_insert (names : Text → Text) (id : Text) (ids : IdSet) :
    (ids.insert id).rename names = (ids.rename names).insert (names id) := by
  refine ext_mem fun other => ?_
  simp [eq_comm]

theorem rename_injective {names : Text → Text} (hnames : Function.Injective names) :
    Function.Injective (rename names) := by
  intro ids other h
  refine ext_mem fun id => ?_
  rw [← name_mem_rename hnames, h, name_mem_rename hnames]

end IdSet

/-! ## Worlds -/

def View.rename (names : Text → Text) (view : View) : View where
  location := names view.location
  itemsHere := view.itemsHere.rename names
  inventory := view.inventory.rename names
  discovered := view.discovered.rename names
  charactersHere := view.charactersHere.rename names
  scene := view.scene
  ending := view.ending

def World.rename (names : Text → Text) (world : World) : World where
  location := names world.location
  items := world.items.rename names names
  characters := world.characters.rename names names
  discovered := world.discovered.rename names
  scene := world.scene
  ending := world.ending

theorem World.ending_rename (names : Text → Text) (world : World) :
    (world.rename names).ending = world.ending := rfl

theorem View.rename_injective {names : Text → Text} (hnames : Function.Injective names) :
    Function.Injective (View.rename names) := by
  have hsets := IdSet.rename_injective hnames
  rintro ⟨location, itemsHere, inventory, discovered, charactersHere, scene, ending⟩ other h
  cases other
  simp only [View.rename, View.mk.injEq] at h ⊢
  obtain ⟨hlocation, hitems, hinventory, hdiscovered, hcharacters, hscene, hending⟩ := h
  exact ⟨hnames hlocation, hsets hitems, hsets hinventory, hsets hdiscovered,
    hsets hcharacters, hscene, hending⟩

namespace World

variable (names : Renaming) (world : World)

theorem itemsAt_rename (place : Text) :
    (world.rename names).itemsAt (names place) = (world.itemsAt place).rename names := by
  refine IdSet.ext_mem fun item => ?_
  rw [mem_itemsAt, rename, Keyed.get?_rename_eq_some_iff names.injective, IdSet.mem_rename]
  simp only [mem_itemsAt, names.injective.eq_iff]
  constructor
  · rintro ⟨old, held, hheld, hold, rfl⟩
    exact ⟨old, hheld, hold⟩
  · rintro ⟨old, hheld, hold⟩
    exact ⟨old, place, hheld, hold, rfl⟩

theorem charactersAt_rename (place : Text) :
    (world.rename names).charactersAt (names place) =
      (world.charactersAt place).rename names := by
  refine IdSet.ext_mem fun character => ?_
  rw [mem_charactersAt, rename, Keyed.get?_rename_eq_some_iff names.injective,
    IdSet.mem_rename]
  simp only [mem_charactersAt, names.injective.eq_iff]
  constructor
  · rintro ⟨old, held, hheld, hold, rfl⟩
    exact ⟨old, hheld, hold⟩
  · rintro ⟨old, hheld, hold⟩
    exact ⟨old, place, hheld, hold, rfl⟩

theorem view_rename : (world.rename names).view = world.view.rename names := by
  have hinventory := itemsAt_rename names world inventoryPlace
  rw [names.inventory] at hinventory
  unfold World.view View.rename
  simp only [View.mk.injEq]
  exact ⟨rfl, itemsAt_rename names world _, hinventory, rfl,
    charactersAt_rename names world _, rfl, rfl⟩

theorem mem_interactables_rename {entity : Text} :
    entity ∈ interactables (world.rename names) ↔
      ∃ old ∈ interactables world, names old = entity := by
  change entity ∈ (world.rename names).view.interactables ↔
    ∃ old ∈ world.view.interactables, names old = entity
  rw [view_rename]
  simp only [View.mem_interactables, View.rename, IdSet.mem_rename, or_and_right, exists_or]

theorem observablyEqual_rename {world other : World} :
    ObservablyEqual (world.rename names) (other.rename names) ↔
      ObservablyEqual world other := by
  change (world.rename names).view = (other.rename names).view ↔ world.view = other.view
  rw [view_rename, view_rename, (View.rename_injective names.injective).eq_iff]

end World

end Playthrough
