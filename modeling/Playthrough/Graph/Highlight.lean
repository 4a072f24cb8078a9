import Playthrough.Config
import Playthrough.Graph.Basic
import Playthrough.Walk.Basic

/-!
# The graph of a record

The first playthrough that was completed is the example.  Edges whose key it uses get
the highlight color, all others the default color.
-/

namespace Playthrough

namespace Graph

def ofRecord {σ : Type} [Observable σ] (config : Config) (record : Record σ) : Graph :=
  let first := record.completed.head?.getD []
  { nodes := record.nodes
    edges := record.edges.map fun edge =>
      edge.recolor (if edge.isAmong first then config.highlightColor else config.defaultColor)
    completedPaths := record.completed
    examplePath := first.map (·.recolor config.highlightColor)
    statesVisited := record.visited.size }

def build {σ ε : Type} [Observable σ] (engine : Engine σ ε) (config : Config) (state : σ) :
    Except (Stop ε) Graph :=
  (Walk.build engine config state).map (ofRecord config)

/-! ## Keys -/

variable {σ : Type} [Observable σ]

theorem map_key_ofRecord (config : Config) (record : Record σ) :
    (ofRecord config record).edges.map Edge.key = record.edges.map Edge.key := by
  simp [ofRecord]

theorem map_key_example (config : Config) (record : Record σ) :
    (ofRecord config record).examplePath.map Edge.key =
      (record.completed.head?.getD []).map Edge.key := by
  simp [ofRecord]

end Graph

end Playthrough
