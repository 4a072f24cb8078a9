import Playthrough.Text.Basic

/-!
# Rules

A rule says what an interaction with one entity does to the world, under which
conditions, and with which priority among the rules of that entity.  Its summary
names it, and becomes its node in the graph.
-/

namespace Playthrough

inductive ConditionKind where
  | playerAt
  | itemInInventory
  | itemNotInInventory
  | itemAt
  | characterAt
  | locationDiscovered
  | locationUndiscovered
  | sceneIs
  deriving DecidableEq, Repr

inductive EffectKind where
  | moveItemToInventory
  | moveItemTo
  | removeItem
  | moveCharacterTo
  | removeCharacter
  | movePlayerTo
  | discoverLocation
  | setScene
  | setEnding
  deriving DecidableEq, Repr

/-- What must hold before a rule fires.  Only some kinds look at the target, but every
condition keeps the one it was written with. -/
structure Condition where
  kind : ConditionKind
  subject : Text
  target : Option Text
  deriving DecidableEq, Repr

/-- What a rule does.  As in conditions, a target without use is kept. -/
structure Effect where
  kind : EffectKind
  subject : Text
  target : Option Text
  deriving DecidableEq, Repr

structure Rule where
  summary : Text
  trigger : Text
  preconditions : List Condition
  effects : List Effect
  priority : Int
  deriving DecidableEq, Repr

/-! ## Names of kinds -/

namespace ConditionKind

def all : List ConditionKind :=
  [playerAt, itemInInventory, itemNotInInventory, itemAt, characterAt,
    locationDiscovered, locationUndiscovered, sceneIs]

def name : ConditionKind → String
  | playerAt => "player_at"
  | itemInInventory => "item_in_inventory"
  | itemNotInInventory => "item_not_in_inventory"
  | itemAt => "item_at"
  | characterAt => "character_at"
  | locationDiscovered => "location_discovered"
  | locationUndiscovered => "location_undiscovered"
  | sceneIs => "scene_is"

def ofName? (text : String) : Option ConditionKind :=
  all.find? fun kind => kind.name == text

@[simp] theorem ofName?_name (kind : ConditionKind) : ofName? kind.name = some kind := by
  cases kind <;> decide

end ConditionKind

namespace EffectKind

def all : List EffectKind :=
  [moveItemToInventory, moveItemTo, removeItem, moveCharacterTo, removeCharacter,
    movePlayerTo, discoverLocation, setScene, setEnding]

def name : EffectKind → String
  | moveItemToInventory => "move_item_to_inventory"
  | moveItemTo => "move_item_to"
  | removeItem => "remove_item"
  | moveCharacterTo => "move_character_to"
  | removeCharacter => "remove_character"
  | movePlayerTo => "move_player_to"
  | discoverLocation => "discover_location"
  | setScene => "set_scene"
  | setEnding => "set_ending"

def ofName? (text : String) : Option EffectKind :=
  all.find? fun kind => kind.name == text

@[simp] theorem ofName?_name (kind : EffectKind) : ofName? kind.name = some kind := by
  cases kind <;> decide

end EffectKind

end Playthrough
