import Playthrough.Story.Basic

/-!
# References

What the subject and the target of a condition or an effect refer to.  Scenes and
endings are free text, and a target that its kind does not use refers to nothing.
-/

namespace Playthrough

namespace ConditionKind

def subjectKind : ConditionKind → Option EntityKind
  | playerAt => some .location
  | itemInInventory => some .item
  | itemNotInInventory => some .item
  | itemAt => some .item
  | characterAt => some .character
  | locationDiscovered => some .location
  | locationUndiscovered => some .location
  | sceneIs => none

def targetKind : ConditionKind → Option EntityKind
  | itemAt => some .location
  | characterAt => some .location
  | _ => none

end ConditionKind

namespace EffectKind

def subjectKind : EffectKind → Option EntityKind
  | moveItemToInventory => some .item
  | moveItemTo => some .item
  | removeItem => some .item
  | moveCharacterTo => some .character
  | removeCharacter => some .character
  | movePlayerTo => some .location
  | discoverLocation => some .location
  | setScene => none
  | setEnding => none

def targetKind : EffectKind → Option EntityKind
  | moveItemTo => some .location
  | moveCharacterTo => some .location
  | _ => none

end EffectKind

/-- A place in a rule where an id of one kind is expected. -/
structure Reference where
  clause : String
  kind : EntityKind
  id : Option Text
  deriving DecidableEq, Repr

/-- The reference at a place, if the place refers to anything. -/
def Reference.expected (clause : String) (kind : Option EntityKind) (id : Option Text) :
    List Reference :=
  match kind with
  | none => []
  | some kind => [⟨clause, kind, id⟩]

def Condition.references (condition : Condition) : List Reference :=
  Reference.expected condition.kind.name condition.kind.subjectKind (some condition.subject) ++
    Reference.expected condition.kind.name condition.kind.targetKind condition.target

def Effect.references (effect : Effect) : List Reference :=
  Reference.expected effect.kind.name effect.kind.subjectKind (some effect.subject) ++
    Reference.expected effect.kind.name effect.kind.targetKind effect.target

/-- The references of a rule in reading order: conditions before effects, the subject
of each before its target. -/
def Rule.references (rule : Rule) : List Reference :=
  rule.preconditions.flatMap Condition.references ++
    rule.effects.flatMap Effect.references

end Playthrough
