import Playthrough.Story.Rule
import Playthrough.World

/-!
# Which rule fires

A rule may fire on its trigger when all its preconditions hold.  Among the rules that
may, the one of highest priority fires, and the first of them in the catalog if
several have that priority.
-/

namespace Playthrough

namespace Condition

/-- A missing target stands for being nowhere. -/
def holds (condition : Condition) (world : World) : Bool :=
  match condition.kind with
  | .playerAt => world.location == condition.subject
  | .itemInInventory => world.items.get? condition.subject == some inventoryPlace
  | .itemNotInInventory => world.items.get? condition.subject != some inventoryPlace
  | .itemAt => world.items.get? condition.subject == condition.target
  | .characterAt => world.characters.get? condition.subject == condition.target
  | .locationDiscovered => decide (condition.subject ∈ world.discovered)
  | .locationUndiscovered => decide (condition.subject ∉ world.discovered)
  | .sceneIs => world.scene == condition.subject

end Condition

namespace Rule

def eligible (rule : Rule) (entity : Text) (world : World) : Bool :=
  rule.trigger == entity && rule.preconditions.all (·.holds world)

/-! ## The order of priority -/

/-- Put a rule before the first one whose priority is not higher. -/
def rank (rule : Rule) : List Rule → List Rule
  | [] => [rule]
  | other :: rest =>
      if other.priority ≤ rule.priority then rule :: other :: rest
      else other :: rank rule rest

def byPriority (rules : List Rule) : List Rule := rules.foldr rank []

def firstEligible? (ranked : List Rule) (entity : Text) (world : World) : Option Rule :=
  ranked.find? (·.eligible entity world)

@[simp] theorem mem_rank {rule other : Rule} {rules : List Rule} :
    other ∈ rule.rank rules ↔ other = rule ∨ other ∈ rules := by
  induction rules with
  | nil => simp [rank]
  | cons first rest ih =>
      simp only [rank]
      split
      · simp
      · simp only [List.mem_cons, ih, or_left_comm]

@[simp] theorem mem_byPriority {rule : Rule} {rules : List Rule} :
    rule ∈ byPriority rules ↔ rule ∈ rules := by
  induction rules with
  | nil => simp [byPriority]
  | cons first rest ih =>
      change rule ∈ first.rank (byPriority rest) ↔ _
      simp [ih]

end Rule

end Playthrough
