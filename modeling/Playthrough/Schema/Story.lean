import Playthrough.Schema.World
import Playthrough.Story.Basic

/-!
# Stories as documents
-/

namespace Playthrough

namespace Manifest

def ofJson : Decoder Manifest := .record fun members =>
  Manifest.mk <$> Decoder.optional (.list .string) [] "items" members
    <*> Decoder.required (.list .string) "locations" members
    <*> Decoder.optional (.list .string) [] "characters" members
    <*> Decoder.required .string "start_location" members
    <*> Decoder.optional .table ∅ "item_placement" members
    <*> Decoder.optional .table ∅ "character_placement" members
    <*> Decoder.optional .string "start" "start_scene" members

def toJson (manifest : Manifest) : Json := .object [
  ("items", .strings manifest.items),
  ("locations", .strings manifest.locations),
  ("characters", .strings manifest.characters),
  ("start_location", .string manifest.startLocation),
  ("item_placement", manifest.itemPlacement.toJson),
  ("character_placement", manifest.characterPlacement.toJson),
  ("start_scene", .string manifest.startScene)]

end Manifest

namespace Condition

def ofJson : Decoder Condition := .record fun members =>
  Condition.mk <$> Decoder.required (.named ConditionKind.ofName?) "kind" members
    <*> Decoder.required .string "subject" members
    <*> Decoder.optional (.nullable .string) none "target" members

def toJson (condition : Condition) : Json := .object [
  ("kind", .string condition.kind.name),
  ("subject", .string condition.subject),
  ("target", .optional condition.target)]

end Condition

namespace Effect

def ofJson : Decoder Effect := .record fun members =>
  Effect.mk <$> Decoder.required (.named EffectKind.ofName?) "kind" members
    <*> Decoder.required .string "subject" members
    <*> Decoder.optional (.nullable .string) none "target" members

def toJson (effect : Effect) : Json := .object [
  ("kind", .string effect.kind.name),
  ("subject", .string effect.subject),
  ("target", .optional effect.target)]

end Effect

namespace Rule

def triggerOfJson : Decoder Text := .record (Decoder.required .string "entity")

def triggerToJson (entity : Text) : Json := .object [("entity", .string entity)]

def ofJson : Decoder Rule := .record fun members =>
  Rule.mk <$> Decoder.required .string "summary" members
    <*> Decoder.required triggerOfJson "trigger" members
    <*> Decoder.optional (.list Condition.ofJson) [] "preconditions" members
    <*> Decoder.optional (.list Effect.ofJson) [] "effects" members
    <*> Decoder.optional .int 0 "priority" members

def toJson (rule : Rule) : Json := .object [
  ("summary", .string rule.summary),
  ("trigger", triggerToJson rule.trigger),
  ("preconditions", .array (rule.preconditions.map Condition.toJson)),
  ("effects", .array (rule.effects.map Effect.toJson)),
  ("priority", .int rule.priority)]

end Rule

namespace Story

def ofJson : Decoder Story := .record fun members =>
  Story.mk <$> Decoder.optional .string "" "title" members
    <*> Decoder.required Manifest.ofJson "manifest" members
    <*> Decoder.optional (.list Rule.ofJson) [] "rules" members

def toJson (story : Story) : Json := .object [
  ("title", .string story.title),
  ("manifest", story.manifest.toJson),
  ("rules", .array (story.rules.map Rule.toJson))]

end Story

end Playthrough
