import Playthrough.Engine.Apply
import Playthrough.Schema.World

/-!
# Worlds that a rule leaves incomplete

Something without a place is an issue of the world as a document: the place is no text.
-/

namespace Playthrough

def Unplaced.issue : Unplaced → Issue
  | item id => ⟨[.field "item_locations", .field id.repaired], .notText⟩
  | character id => ⟨[.field "character_locations", .field id.repaired], .notText⟩

end Playthrough
