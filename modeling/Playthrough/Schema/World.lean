import Playthrough.Schema.Structure
import Playthrough.World

/-!
# Worlds and views as documents
-/

namespace Playthrough

def IdSet.toJson (ids : IdSet) : Json := .strings ids.toList

def Keyed.toJson (table : Keyed Text) : Json :=
  .object (table.entries.map fun entry => (entry.1, .string entry.2))

namespace World

def ofJson : Decoder World := .record fun members =>
  World.mk <$> Decoder.required .string "location" members
    <*> Decoder.optional .table ∅ "item_locations" members
    <*> Decoder.optional .table ∅ "character_locations" members
    <*> Decoder.optional .idSet ∅ "discovered_locations" members
    <*> Decoder.optional .string "start" "scene" members
    <*> Decoder.optional (.nullable .string) none "ending" members

def toJson (world : World) : Json := .object [
  ("location", .string world.location),
  ("item_locations", world.items.toJson),
  ("character_locations", world.characters.toJson),
  ("discovered_locations", world.discovered.toJson),
  ("scene", .string world.scene),
  ("ending", .optional world.ending)]

end World

namespace View

def ofJson : Decoder View := .record fun members =>
  View.mk <$> Decoder.optional .string "" "location" members
    <*> Decoder.optional .idSet ∅ "location_items" members
    <*> Decoder.optional .idSet ∅ "inventory" members
    <*> Decoder.optional .idSet ∅ "discovered" members
    <*> Decoder.optional .idSet ∅ "location_characters" members
    <*> Decoder.optional .string "" "scene" members
    <*> Decoder.optional (.nullable .string) none "ending" members

def toJson (view : View) : Json := .object [
  ("location", .string view.location),
  ("location_items", view.itemsHere.toJson),
  ("inventory", view.inventory.toJson),
  ("discovered", view.discovered.toJson),
  ("location_characters", view.charactersHere.toJson),
  ("scene", .string view.scene),
  ("ending", .optional view.ending)]

end View

end Playthrough
