import Playthrough.Proofs.Documents
import Playthrough.Service.Message

/-!
# Models read back

Every value that was read from a document has a document of its own, its dump, and the dump is
read as that value.
-/

namespace Playthrough

namespace Checked

variable {α β : Type}

theorem map_eq_valid_iff {f : α → β} {a : Checked α} {b : β} :
    a.map f = valid b ↔ ∃ value, a = valid value ∧ f value = b := by
  cases a <;> simp [map]

theorem under_eq_valid_iff {step : PathStep} {a : Checked α} {value : α} :
    a.under step = valid value ↔ a = valid value := by
  cases a <;> simp [under]

end Checked

namespace Decoder

/-! ## Values -/

@[simp] theorem bool_bool (value : Bool) : bool (.bool value) = .valid value := rfl

@[simp] theorem idSet_toJson (ids : IdSet) : idSet ids.toJson = .valid ids := by
  rw [IdSet.toJson, Json.strings, idSet, elements_map string_string, Checked.all_map_valid,
    Checked.map_valid, IdSet.ofList_toList]

theorem anyObject_eq_valid {json value : Json} (h : anyObject json = .valid value) :
    ∃ members, value = .object members := by
  cases json with
  | object members =>
      cases h
      exact ⟨members, rfl⟩
  | _ => cases h

theorem exists_of_required {α : Type} {decode : Decoder α} {name : String}
    {members : List (Text × Json)} {value : α} (h : required decode name members = .valid value) :
    ∃ json, decode json = .valid value := by
  unfold required at h
  split at h
  · next json _ => exact ⟨json, Checked.under_eq_valid_iff.1 h⟩
  · cases h

end Decoder

/-! ## Graphs, worlds and requests -/

open Decoder

theorem Config.ofJson_toJson (config : Config) : ofJson config.toJson = .valid config := by
  unfold ofJson toJson
  rw [record_object, optional_eq rfl (bool_bool _), optional_eq rfl (string_string _),
    optional_eq rfl (string_string _), optional_eq rfl (string_string _)]
  rfl

theorem Edge.ofJson_toJson (edge : Edge) : ofJson edge.toJson = .valid edge := by
  unfold ofJson toJson
  rw [record_object, required_eq rfl (string_string _), required_eq rfl (string_string _),
    optional_eq rfl (string_string _)]
  rfl

namespace Graph

theorem nodeOfJson_nodeToJson (node : Text) : nodeOfJson (nodeToJson node) = .valid node := by
  unfold nodeOfJson nodeToJson
  rw [record_object, required_eq rfl (string_string _)]

theorem list_pathToJson (path : List Edge) : list Edge.ofJson (pathToJson path) = .valid path :=
  list_map Edge.ofJson_toJson path

theorem ofJson_toJson (graph : Graph) : ofJson graph.toJson = .valid graph := by
  unfold ofJson toJson
  rw [record_object, required_eq rfl (list_map nodeOfJson_nodeToJson _),
    required_eq rfl (list_pathToJson _), optional_eq rfl (list_map list_pathToJson _),
    optional_eq rfl (list_pathToJson _), optional_eq rfl (int_int _)]
  rfl

end Graph

theorem World.ofJson_toJson (world : World) : ofJson world.toJson = .valid world := by
  unfold ofJson toJson
  rw [record_object, required_eq rfl (string_string _), optional_eq rfl (table_toJson _),
    optional_eq rfl (table_toJson _), optional_eq rfl (idSet_toJson _),
    optional_eq rfl (string_string _), optional_eq rfl (nullable_optional _)]
  rfl

namespace BuildRequest

theorem exists_members_of_ofJson {document : Json} {request : BuildRequest}
    (h : ofJson document = .valid request) : ∃ members, request.story = .object members := by
  cases document with
  | object members =>
      obtain ⟨build, flag, hbuild, -, rfl⟩ := Checked.seq_eq_valid_iff.1 h
      obtain ⟨story, hstory, rfl⟩ := Checked.map_eq_valid_iff.1 hbuild
      obtain ⟨json, hjson⟩ := exists_of_required hstory
      exact anyObject_eq_valid hjson
  | _ => cases h

theorem ofJson_toJson {request : BuildRequest} {members : List (Text × Json)}
    (h : request.story = .object members) : ofJson request.toJson = .valid request := by
  obtain ⟨story, flag⟩ := request
  cases h
  cases flag <;> rfl

end BuildRequest

/-! ## Models -/

inductive Model where
  | config
  | node
  | edge
  | graph
  | trigger
  | condition
  | effect
  | rule
  | manifest
  | story
  | world
  | buildRequest
  deriving DecidableEq, Repr

namespace Model

abbrev Value : Model → Type
  | config => Config
  | node => Text
  | edge => Edge
  | graph => Graph
  | trigger => Text
  | condition => Condition
  | effect => Effect
  | rule => Rule
  | manifest => Manifest
  | story => Story
  | world => World
  | buildRequest => BuildRequest

def ofJson : (model : Model) → Decoder model.Value
  | config => Config.ofJson
  | node => Graph.nodeOfJson
  | edge => Edge.ofJson
  | graph => Graph.ofJson
  | trigger => Rule.triggerOfJson
  | condition => Condition.ofJson
  | effect => Effect.ofJson
  | rule => Rule.ofJson
  | manifest => Manifest.ofJson
  | story => Story.ofJson
  | world => World.ofJson
  | buildRequest => BuildRequest.ofJson

def toJson : (model : Model) → model.Value → Json
  | config => Config.toJson
  | node => Graph.nodeToJson
  | edge => Edge.toJson
  | graph => Graph.toJson
  | trigger => Rule.triggerToJson
  | condition => Condition.toJson
  | effect => Effect.toJson
  | rule => Rule.toJson
  | manifest => Manifest.toJson
  | story => Story.toJson
  | world => World.toJson
  | buildRequest => BuildRequest.toJson

def redump (model : Model) (document : Json) : Checked Json :=
  (model.ofJson document).map model.toJson

theorem ofJson_toJson {model : Model} {document : Json} {value : model.Value}
    (h : model.ofJson document = .valid value) :
    model.ofJson (model.toJson value) = .valid value := by
  cases model with
  | config => exact Config.ofJson_toJson value
  | node => exact Graph.nodeOfJson_nodeToJson value
  | edge => exact Edge.ofJson_toJson value
  | graph => exact Graph.ofJson_toJson value
  | trigger => exact Rule.triggerOfJson_triggerToJson value
  | condition => exact Condition.ofJson_toJson value
  | effect => exact Effect.ofJson_toJson value
  | rule => exact Rule.ofJson_toJson value
  | manifest => exact Manifest.ofJson_toJson value
  | story => exact Story.ofJson_toJson value
  | world => exact World.ofJson_toJson value
  | buildRequest =>
      -- Only here must the value have been read: a request can hold a story that is no object.
      obtain ⟨members, hstory⟩ := BuildRequest.exists_members_of_ofJson h
      exact BuildRequest.ofJson_toJson hstory

end Model

end Playthrough
