import Playthrough.Engine.Basic
import Playthrough.World

/-!
# Engines given as tables

An engine may be listed: what each state shows, and which moves there are.  A move
that is listed twice is replaced by the later one, and without a move nothing
happens.  Such an engine knows no endings of its own.
-/

namespace Playthrough

namespace Table

structure Move where
  source : Text
  entity : Text
  target : Text
  rule : Option Text
  deriving DecidableEq, Repr

structure Position where
  id : Text
  view : View
  deriving DecidableEq, Repr

instance : Observable Position := ⟨Position.view⟩

end Table

/-- The states that a table does not list show nothing at all. -/
structure Table where
  start : Text
  views : Keyed View
  moves : List Table.Move
  deriving DecidableEq, Repr

namespace Table

def blank : View := ⟨"", ∅, ∅, ∅, ∅, "", none⟩

def position (table : Table) (id : Text) : Position :=
  ⟨id, (table.views.get? id).getD blank⟩

def attempt (table : Table) (entity : Text) (state : Position) : Outcome Position :=
  match table.moves.reverse.find? fun move =>
      move.source == state.id && move.entity == entity with
  | some move => ⟨table.position move.target, move.rule⟩
  | none => ⟨state, none⟩

def positions (table : Table) (start : Position) : List Position :=
  start :: table.moves.map fun move => table.position move.target

def offers (table : Table) (start : Position) : Nat :=
  ((table.positions start).map fun state => state.view.interactables.length).foldl max 0

def engine (table : Table) : Engine Position Empty where
  attempt entity state := .ok (table.attempt entity state)
  budget start := ((table.positions start).length + 1) * (table.offers start + 1)

end Table

end Playthrough
