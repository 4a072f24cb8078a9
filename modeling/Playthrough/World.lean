import Playthrough.Keyed
import Playthrough.View

/-!
# Worlds

A snapshot of the story world: where the player stands, where items and characters
are, what has been discovered, and how far the story has come.  Carried items lie at
a place of their own, `inventoryPlace`.
-/

namespace Playthrough

def inventoryPlace : Text := "__inventory__"

structure World where
  location : Text
  items : Keyed Text
  characters : Keyed Text
  discovered : IdSet
  scene : Text
  ending : Option Text
  deriving DecidableEq, Repr

namespace World

def itemsAt (world : World) (place : Text) : IdSet :=
  .ofList (world.items.keysWhere (· == place))

def charactersAt (world : World) (place : Text) : IdSet :=
  .ofList (world.characters.keysWhere (· == place))

def view (world : World) : View where
  location := world.location
  itemsHere := world.itemsAt world.location
  inventory := world.itemsAt inventoryPlace
  discovered := world.discovered
  charactersHere := world.charactersAt world.location
  scene := world.scene
  ending := world.ending

instance : Observable World := ⟨view⟩

@[simp] theorem mem_itemsAt {world : World} {place item : Text} :
    item ∈ world.itemsAt place ↔ world.items.get? item = some place := by
  simp [itemsAt, Keyed.mem_keysWhere]

@[simp] theorem mem_charactersAt {world : World} {place character : Text} :
    character ∈ world.charactersAt place ↔
      world.characters.get? character = some place := by
  simp [charactersAt, Keyed.mem_keysWhere]

end World

end Playthrough
