import Playthrough.Engine.Rules
import Playthrough.Graph.Highlight
import Playthrough.Story.Basic

/-!
# The graph of a story

The walk of a story starts in its start world and is led by its rules.
-/

namespace Playthrough

def Story.graph (story : Story) (config : Config) : Except (Stop (List Unplaced)) Graph :=
  Graph.build (Rule.engine story.rules) config story.manifest.startWorld

end Playthrough
