import Playthrough.IdSet
import Playthrough.Schema.Scalar

/-!
# Reading structures

Arrays, tables and records.  A record takes the members that it knows and ignores all
others; a member with a default may be left out.
-/

namespace Playthrough.Decoder

variable {α : Type}

def elements (decode : Decoder α) : Nat → List Json → List (Checked α)
  | _, [] => []
  | position, json :: rest =>
      (decode json).under (.index position) :: elements decode (position + 1) rest

def list (decode : Decoder α) : Decoder (List α)
  | .array jsons => .all (elements decode 0 jsons)
  | _ => .issue .notList

def idSet : Decoder IdSet
  | .array jsons => (Checked.all (elements string 0 jsons)).map .ofList
  | _ => .issue .notSet

/-- A table of texts, in document order.  The path to an entry shows its key repaired. -/
def table : Decoder (Keyed Text)
  | .object members =>
      (Checked.all (members.map fun member =>
        ((string member.2).under (.field member.1.repaired)).map fun value => (member.1, value))).map
        .ofList
  | _ => .issue .notTable

def anyObject : Decoder Json
  | .object members => .valid (.object members)
  | _ => .issue .notTable

def record (fields : List (Text × Json) → Checked α) : Decoder α
  | .object members => fields members
  | _ => .issue .notRecord

def required (decode : Decoder α) (name : String) (members : List (Text × Json)) :
    Checked α :=
  match members.lookup (name : Text) with
  | some json => (decode json).under (.field name)
  | none => .invalid [⟨[.field name], .missing⟩]

def optional (decode : Decoder α) (default : α) (name : String)
    (members : List (Text × Json)) : Checked α :=
  match members.lookup (name : Text) with
  | some json => (decode json).under (.field name)
  | none => .valid default

end Playthrough.Decoder
