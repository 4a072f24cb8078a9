import Playthrough.Story.Reference
import Playthrough.Text.Quoted

/-!
# Consistency of stories

A story is consistent when its ids are distinct, everything starts at a declared
place, rule summaries are distinct and leave the root of the graph free, and every
reference in a rule names a declared thing of the expected kind.  An inconsistent
story is refused with its first fault, in a fixed reading order.
-/

namespace Playthrough

inductive Fault where
  | repeatedIds (ids : List Text)
  | unknownStart (location : Text)
  | unplaceableItem (item : Text)
  | misplacedItem (item place : Text)
  | unplaceableCharacter (character : Text)
  | misplacedCharacter (character place : Text)
  | repeatedSummaries (summaries : List Text)
  | reservedSummary (summary : Text)
  | unknownTrigger (summary entity : Text)
  | missingReference (summary : Text) (clause : String) (kind : EntityKind)
  | unknownReference (summary : Text) (clause : String) (kind : EntityKind) (id : Text)
  deriving DecidableEq, Repr

namespace Fault

open Text.Quoted (quote)

/-- Ids stand as they are in messages about the manifest, and quoted in messages
about a rule. -/
def message : Fault → Text
  | repeatedIds ids =>
      "Entity ids must be unique across kinds: " ++ Text.intercalate ", " ids
  | unknownStart location => "Unknown start location: " ++ location
  | unplaceableItem item => "Placement for unknown item: " ++ item
  | misplacedItem item place => "Item " ++ item ++ " placed in unknown location: " ++ place
  | unplaceableCharacter character => "Placement for unknown character: " ++ character
  | misplacedCharacter character place =>
      "Character " ++ character ++ " placed in unknown location: " ++ place
  | repeatedSummaries summaries =>
      "Duplicate rule summaries: " ++ Text.intercalate ", " summaries
  | reservedSummary summary =>
      "Rule summary " ++ quote summary ++ " is reserved for the graph root"
  | unknownTrigger summary entity =>
      "Rule " ++ quote summary ++ ": trigger names unknown entity " ++ quote entity
  | missingReference summary clause kind =>
      "Rule " ++ quote summary ++ ": " ++ clause ++ " is missing its " ++ kind.name
  | unknownReference summary clause kind id =>
      "Rule " ++ quote summary ++ ": " ++ clause ++ " names unknown " ++ kind.name ++ " " ++
        quote id

def when (present : Prop) [Decidable present] (fault : Fault) : List Fault :=
  if present then [fault] else []

@[simp] theorem when_eq_nil_iff {present : Prop} [Decidable present] {fault : Fault} :
    when present fault = [] ↔ ¬ present := by
  simp [when]

end Fault

/-! ## Faults in reading order -/

namespace Manifest

def itemFaults (manifest : Manifest) (item place : Text) : List Fault :=
  Fault.when (item ∉ manifest.items) (.unplaceableItem item) ++
    Fault.when (place ≠ inventoryPlace ∧ place ∉ manifest.locations)
      (.misplacedItem item place)

def characterFaults (manifest : Manifest) (character place : Text) : List Fault :=
  Fault.when (character ∉ manifest.characters) (.unplaceableCharacter character) ++
    Fault.when (place ∉ manifest.locations) (.misplacedCharacter character place)

def faults (manifest : Manifest) : List Fault :=
  let clashes := (repeatedIds manifest.entityIds).toList
  Fault.when (clashes ≠ []) (.repeatedIds clashes) ++
    Fault.when (manifest.startLocation ∉ manifest.locations)
      (.unknownStart manifest.startLocation) ++
    manifest.itemPlacement.entries.flatMap (fun entry => manifest.itemFaults entry.1 entry.2) ++
    manifest.characterPlacement.entries.flatMap
      (fun entry => manifest.characterFaults entry.1 entry.2)

end Manifest

def Reference.faults (manifest : Manifest) (summary : Text) (reference : Reference) :
    List Fault :=
  match reference.id with
  | none => [.missingReference summary reference.clause reference.kind]
  | some id =>
      Fault.when (id ∉ manifest.declared reference.kind)
        (.unknownReference summary reference.clause reference.kind id)

def Rule.faults (manifest : Manifest) (root : Text) (rule : Rule) : List Fault :=
  Fault.when (rule.summary = root) (.reservedSummary rule.summary) ++
    Fault.when (rule.trigger ∉ manifest.entityIds)
      (.unknownTrigger rule.summary rule.trigger) ++
    rule.references.flatMap (Reference.faults manifest rule.summary)

namespace Story

def summaries (story : Story) : List Text := story.rules.map Rule.summary

def faults (story : Story) (root : Text) : List Fault :=
  let clashes := (repeatedIds story.summaries).toList
  story.manifest.faults ++
    Fault.when (clashes ≠ []) (.repeatedSummaries clashes) ++
    story.rules.flatMap (Rule.faults story.manifest root)

def firstFault? (story : Story) (root : Text) : Option Fault :=
  (story.faults root).head?

end Story

/-! ## Consistency -/

/-- The id at a reference is there and declared under the expected kind. -/
def Reference.Resolved (manifest : Manifest) (reference : Reference) : Prop :=
  ∃ id, reference.id = some id ∧ id ∈ manifest.declared reference.kind

structure Rule.Consistent (manifest : Manifest) (root : Text) (rule : Rule) : Prop where
  summary_ne_root : rule.summary ≠ root
  trigger_declared : rule.trigger ∈ manifest.entityIds
  references_resolved : ∀ reference ∈ rule.references, reference.Resolved manifest

structure Story.Consistent (story : Story) (root : Text) : Prop where
  ids_distinct : story.manifest.entityIds.Nodup
  start_declared : story.manifest.startLocation ∈ story.manifest.locations
  items_placed : ∀ entry ∈ story.manifest.itemPlacement.entries,
    entry.1 ∈ story.manifest.items ∧
      (entry.2 = inventoryPlace ∨ entry.2 ∈ story.manifest.locations)
  characters_placed : ∀ entry ∈ story.manifest.characterPlacement.entries,
    entry.1 ∈ story.manifest.characters ∧ entry.2 ∈ story.manifest.locations
  summaries_distinct : story.summaries.Nodup
  rules_consistent : ∀ rule ∈ story.rules, rule.Consistent story.manifest root

end Playthrough
