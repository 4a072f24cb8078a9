import Playthrough.Graph.Edge
import Playthrough.Walk.Visited

/-!
# The record of a walk

What a walk has found so far: visited states, nodes, edges and completed
playthroughs, each in the order of discovery.  A record only grows.
-/

namespace Playthrough

structure Record (σ : Type) [Observable σ] where
  visited : Visited σ
  nodes : List Text
  edges : List Edge
  completed : List (List Edge)

namespace Record

variable {σ : Type} [Observable σ]

def start (state : σ) (root : Text) : Record σ where
  visited := (∅ : Visited σ).add state
  nodes := [root]
  edges := []
  completed := []

def addNode (node : Text) (record : Record σ) : Record σ :=
  if node ∈ record.nodes then record else { record with nodes := record.nodes ++ [node] }

/-- Add an edge and its target.  The first edge of a key stays. -/
def addEdge (edge : Edge) (record : Record σ) : Record σ :=
  addNode edge.target { record with edges := edge.enter record.edges }

def complete (path : List Edge) (record : Record σ) : Record σ :=
  { record with completed := record.completed ++ [path] }

def visit (state : σ) (record : Record σ) : Record σ :=
  { record with visited := record.visited.add state }

end Record

end Playthrough
