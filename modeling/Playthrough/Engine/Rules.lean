import Playthrough.Engine.Apply
import Playthrough.Engine.Basic
import Playthrough.Engine.Match

/-!
# The engine of a list of rules

Once an ending is set, be it the one with the empty name, every interaction is
refused.  Before that the first eligible rule fires, and without one the player takes
or travels.

Everything that a view can show comes from the start or from an effect.  So the views
that a walk can meet are finitely many, and with the number of things that one view
offers they bound the turns of the walk.
-/

namespace Playthrough.Rule

def attempt (ranked : List Rule) (entity : Text) (world : World) :
    Except (List Unplaced) (Outcome World) :=
  match world.ending with
  | some _ => .ok ⟨world, none⟩
  | none =>
      match firstEligible? ranked entity world with
      | some rule => (rule.apply world).map fun next => ⟨next, some rule.summary⟩
      | none => .ok ⟨world.interact entity, none⟩

/-! ## The budget -/

def subjects (rules : List Rule) (kinds : List EffectKind) : List Text :=
  rules.flatMap fun rule =>
    (rule.effects.filter fun effect => decide (effect.kind ∈ kinds)).map Effect.subject

/-- What views can show that are met from a start world on. -/
structure Scope where
  locations : List Text
  items : List Text
  characters : List Text
  scenes : List Text
  endings : List (Option Text)
  deriving DecidableEq, Repr

def scope (rules : List Rule) (start : World) : Scope where
  locations := start.location :: start.discovered.toList ++
    subjects rules [.movePlayerTo, .discoverLocation]
  items := start.items.keys ++ subjects rules [.moveItemToInventory, .moveItemTo]
  characters := start.characters.keys ++ subjects rules [.moveCharacterTo]
  scenes := start.scene :: subjects rules [.setScene]
  endings := start.ending :: (subjects rules [.setEnding]).map some

namespace Scope

def subsets (ids : List Text) : Nat := Nat.pow 2 ids.length

def views (scope : Scope) : Nat :=
  scope.locations.length * subsets scope.items * subsets scope.items *
    subsets scope.locations * subsets scope.characters * scope.scenes.length *
    scope.endings.length

def offers (scope : Scope) : Nat :=
  scope.characters.length + 2 * scope.items.length + scope.locations.length

/-- Each view is entered once, each of its interactables is tried once, and one turn
leaves it. -/
def turns (scope : Scope) : Nat := (scope.views + 1) * (scope.offers + 1)

end Scope

def engine (rules : List Rule) : Engine World (List Unplaced) :=
  let ranked := byPriority rules
  { attempt := attempt ranked
    budget := fun start => (scope rules start).turns }

end Playthrough.Rule
