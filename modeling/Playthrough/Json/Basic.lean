import Playthrough.Keyed
import Playthrough.Number.Binary64

/-!
# Documents

The values of a JSON text.  The members of an object keep their order.  Numerals
with a point or an exponent are binary numbers of 64 bits, and all others are
integers of any size.
-/

namespace Playthrough

inductive Json where
  | null
  | bool (value : Bool)
  | int (value : Int)
  | float (value : Number.Binary64)
  | string (value : Text)
  | array (elements : List Json)
  | object (members : List (Text × Json))

namespace Json

/-- An object from its members as they are written: a repeated key keeps its first
place and takes its last value. -/
def ofMembers (members : List (Text × Json)) : Json :=
  .object (members.foldl (fun entries member => Keyed.assign member.1 member.2 entries) [])

def strings (texts : List Text) : Json := .array (texts.map .string)

def optional : Option Text → Json
  | none => .null
  | some text => .string text

end Json

end Playthrough
