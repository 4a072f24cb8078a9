import Playthrough.Story.Rule
import Playthrough.World

/-!
# What a rule does

The effects of a rule run one after the other on a draft of the next world.  While
they run, an item or a character may be without a place; the draft becomes a world
only if nothing is left without one.
-/

namespace Playthrough

/-- A world in which items and characters may be nowhere although they are listed. -/
structure Draft where
  location : Text
  items : Keyed (Option Text)
  characters : Keyed (Option Text)
  discovered : IdSet
  scene : Text
  ending : Option Text
  deriving DecidableEq, Repr

inductive Unplaced where
  | item (id : Text)
  | character (id : Text)
  deriving DecidableEq, Repr

namespace Draft

def ofWorld (world : World) : Draft where
  location := world.location
  items := world.items.map some
  characters := world.characters.map some
  discovered := world.discovered
  scene := world.scene
  ending := world.ending

/-- Items before characters, each in the order of its table. -/
def unplaced (draft : Draft) : List Unplaced :=
  draft.items.absent.map .item ++ draft.characters.absent.map .character

def settle (draft : Draft) : Except (List Unplaced) World :=
  match draft.unplaced with
  | [] => .ok {
      location := draft.location
      items := draft.items.present
      characters := draft.characters.present
      discovered := draft.discovered
      scene := draft.scene
      ending := draft.ending }
  | unplaced => .error unplaced

end Draft

/-- Moving the player to a location discovers it. -/
def Effect.apply (effect : Effect) (draft : Draft) : Draft :=
  match effect.kind with
  | .moveItemToInventory =>
      { draft with items := draft.items.insert effect.subject (some inventoryPlace) }
  | .moveItemTo => { draft with items := draft.items.insert effect.subject effect.target }
  | .removeItem => { draft with items := draft.items.erase effect.subject }
  | .moveCharacterTo =>
      { draft with characters := draft.characters.insert effect.subject effect.target }
  | .removeCharacter => { draft with characters := draft.characters.erase effect.subject }
  | .movePlayerTo =>
      { draft with
        location := effect.subject
        discovered := draft.discovered.insert effect.subject }
  | .discoverLocation =>
      { draft with discovered := draft.discovered.insert effect.subject }
  | .setScene => { draft with scene := effect.subject }
  | .setEnding => { draft with ending := some effect.subject }

def Rule.draft (rule : Rule) (world : World) : Draft :=
  rule.effects.foldl (fun draft effect => effect.apply draft) (Draft.ofWorld world)

def Rule.apply (rule : Rule) (world : World) : Except (List Unplaced) World :=
  (rule.draft world).settle

/-- What an interaction does when no rule fires: take an item that lies here, or travel
to another discovered location. -/
def World.interact (world : World) (entity : Text) : World :=
  if entity ∈ world.itemsAt world.location then
    { world with items := world.items.insert entity inventoryPlace }
  else if entity ∈ world.discovered ∧ entity ≠ world.location then
    { world with location := entity }
  else world

end Playthrough
