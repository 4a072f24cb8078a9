import Playthrough.Catalog
import Playthrough.Proofs.Acceptance

/-!
# Stories written and read back

The document of a value is read as that value.  So a consistent story is accepted when its
document is loaded.
-/

namespace Playthrough

theorem Checked.all_map_valid {α : Type} (values : List α) :
    all (values.map valid) = valid values := by
  induction values with
  | nil => rfl
  | cons value rest ih => rw [List.map_cons, all, ih]; rfl

namespace Decoder

variable {α : Type} {decode : Decoder α} {encode : α → Json}

/-! ## Values -/

@[simp] theorem string_string (text : Text) : string (.string text) = .valid text := rfl

@[simp] theorem int_int (n : Int) : int (.int n) = .valid n := rfl

@[simp] theorem nullable_optional (text : Option Text) :
    nullable string (.optional text) = .valid text := by
  cases text <;> rfl

theorem named_name {ofName? : String → Option α} {name : String} {value : α}
    (h : ofName? name = some value) : named ofName? (.string name) = .valid value := by
  have hchars : (name : Text).chars? = some name.toList := Text.chars?_ofChars _
  simp [named, byChars, hchars, h]

theorem elements_map (h : ∀ value, decode (encode value) = .valid value) (values : List α)
    (position : Nat) :
    elements decode position (values.map encode) = values.map .valid := by
  induction values generalizing position with
  | nil => rfl
  | cons value rest ih => simp [elements, h, ih]

theorem list_map (h : ∀ value, decode (encode value) = .valid value) (values : List α) :
    list decode (.array (values.map encode)) = .valid values := by
  rw [list, elements_map h, Checked.all_map_valid]

@[simp] theorem list_strings (texts : List Text) :
    list string (.strings texts) = .valid texts :=
  list_map string_string texts

@[simp] theorem table_toJson (entries : Keyed Text) : table entries.toJson = .valid entries := by
  have hentries : (entries.entries.map fun entry => (entry.1, Json.string entry.2)).map
      (fun member => ((string member.2).under (.field member.1.repaired)).map
        fun value => (member.1, value)) = entries.entries.map .valid := by
    simp [Function.comp_def]
  rw [Keyed.toJson, table, hentries, Checked.all_map_valid, Checked.map_valid,
    Keyed.ofList_entries]

/-! ## Members -/

theorem record_object (fields : List (Text × Json) → Checked α) (members : List (Text × Json)) :
    record fields (.object members) = fields members := rfl

variable {name : String} {members : List (Text × Json)} {json : Json} {value : α}

theorem required_eq (hmember : members.lookup (name : Text) = some json)
    (hvalue : decode json = .valid value) : required decode name members = .valid value := by
  simp [required, hmember, hvalue]

theorem optional_eq {default : α} (hmember : members.lookup (name : Text) = some json)
    (hvalue : decode json = .valid value) :
    optional decode default name members = .valid value := by
  simp [optional, hmember, hvalue]

end Decoder

/-! ## Stories and their parts -/

open Decoder

theorem Condition.ofJson_toJson (condition : Condition) :
    ofJson condition.toJson = .valid condition := by
  unfold ofJson toJson
  rw [record_object, required_eq rfl (named_name condition.kind.ofName?_name),
    required_eq rfl (string_string _), optional_eq rfl (nullable_optional _)]
  rfl

theorem Effect.ofJson_toJson (effect : Effect) : ofJson effect.toJson = .valid effect := by
  unfold ofJson toJson
  rw [record_object, required_eq rfl (named_name effect.kind.ofName?_name),
    required_eq rfl (string_string _), optional_eq rfl (nullable_optional _)]
  rfl

theorem Rule.triggerOfJson_triggerToJson (entity : Text) :
    triggerOfJson (triggerToJson entity) = .valid entity := by
  unfold triggerOfJson triggerToJson
  rw [record_object, required_eq rfl (string_string _)]

theorem Rule.ofJson_toJson (rule : Rule) : ofJson rule.toJson = .valid rule := by
  unfold ofJson toJson
  rw [record_object, required_eq rfl (string_string _),
    required_eq rfl (triggerOfJson_triggerToJson _),
    optional_eq rfl (list_map Condition.ofJson_toJson _),
    optional_eq rfl (list_map Effect.ofJson_toJson _), optional_eq rfl (int_int _)]
  rfl

theorem Manifest.ofJson_toJson (manifest : Manifest) :
    ofJson manifest.toJson = .valid manifest := by
  unfold ofJson toJson
  rw [record_object, optional_eq rfl (list_strings _), required_eq rfl (list_strings _),
    optional_eq rfl (list_strings _), required_eq rfl (string_string _),
    optional_eq rfl (table_toJson _), optional_eq rfl (table_toJson _),
    optional_eq rfl (string_string _)]
  rfl

namespace Story

theorem ofJson_toJson (story : Story) : ofJson story.toJson = .valid story := by
  unfold ofJson toJson
  rw [record_object, optional_eq rfl (string_string _), required_eq rfl (Manifest.ofJson_toJson _),
    optional_eq rfl (list_map Rule.ofJson_toJson _)]
  rfl

theorem Consistent.load_toJson {story : Story} {root : Text} (h : story.Consistent root) :
    load story.toJson root = .ok story := by
  unfold load
  rw [ofJson_toJson]
  simp only [validate_eq_ok_iff.2 h]

end Story

end Playthrough
