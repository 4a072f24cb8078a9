import Playthrough.Story.Rule
import Playthrough.World

/-!
# Stories

A story declares its items, locations and characters, says where everything is at
the start, and lists its rules.
-/

namespace Playthrough

structure Manifest where
  items : List Text
  locations : List Text
  characters : List Text
  startLocation : Text
  itemPlacement : Keyed Text
  characterPlacement : Keyed Text
  startScene : Text
  deriving DecidableEq, Repr

structure Story where
  title : Text
  manifest : Manifest
  rules : List Rule
  deriving DecidableEq, Repr

inductive EntityKind where
  | item
  | location
  | character
  deriving DecidableEq, Repr

namespace EntityKind

def name : EntityKind → String
  | item => "item"
  | location => "location"
  | character => "character"

end EntityKind

namespace Manifest

def entityIds (manifest : Manifest) : List Text :=
  manifest.items ++ manifest.locations ++ manifest.characters

def declared (manifest : Manifest) : EntityKind → List Text
  | .item => manifest.items
  | .location => manifest.locations
  | .character => manifest.characters

/-- The world as a story begins: only the start location is discovered, and no ending
has been reached. -/
def startWorld (manifest : Manifest) : World where
  location := manifest.startLocation
  items := manifest.itemPlacement
  characters := manifest.characterPlacement
  discovered := .ofList [manifest.startLocation]
  scene := manifest.startScene
  ending := none

end Manifest

end Playthrough
