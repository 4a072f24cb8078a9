import Playthrough.IdSet

/-!
# What a player sees

A world is known to a walk only through seven projections.  Worlds that agree on
all seven are the same world as far as a playthrough is concerned, and what can be
interacted with is read off the projections alone.
-/

namespace Playthrough

/-- The seven projections of a world. -/
structure View where
  location : Text
  itemsHere : IdSet
  inventory : IdSet
  discovered : IdSet
  charactersHere : IdSet
  scene : Text
  ending : Option Text
  deriving DecidableEq, Repr

namespace View

/-- Everything that can be tried: characters here, items here, carried items, then
discovered locations, each group ascending. -/
def interactables (view : View) : List Text :=
  view.charactersHere.toList ++ view.itemsHere.toList ++ view.inventory.toList ++
    view.discovered.toList

/-- An ending with a name has been reached.  The ending named by the empty text is
set without completing anything. -/
def isComplete (view : View) : Bool :=
  match view.ending with
  | none => false
  | some ending => ending != ""

theorem mem_interactables {view : View} {entity : Text} :
    entity ∈ view.interactables ↔
      entity ∈ view.charactersHere ∨ entity ∈ view.itemsHere ∨
        entity ∈ view.inventory ∨ entity ∈ view.discovered := by
  simp [interactables, IdSet.mem_iff]

theorem isComplete_iff {view : View} :
    view.isComplete = true ↔ ∃ ending, view.ending = some ending ∧ ending ≠ "" := by
  unfold isComplete
  split <;> simp_all

end View

class Observable (σ : Type) where
  view : σ → View

export Observable (view)

variable {σ : Type} [Observable σ]

/-- States that no projection tells apart. -/
def ObservablyEqual (a b : σ) : Prop := view a = view b

instance (a b : σ) : Decidable (ObservablyEqual a b) :=
  inferInstanceAs (Decidable (view a = view b))

def interactables (state : σ) : List Text := (view state).interactables

end Playthrough
