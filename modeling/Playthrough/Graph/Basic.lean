import Playthrough.Graph.Edge

/-!
# Graphs

A finished graph: its nodes are rule ids, and it keeps the playthroughs that were
completed, one of them as the example.
-/

namespace Playthrough

structure Graph where
  nodes : List Text
  edges : List Edge
  completedPaths : List (List Edge)
  examplePath : List Edge
  statesVisited : Int
  deriving DecidableEq, Repr

end Playthrough
