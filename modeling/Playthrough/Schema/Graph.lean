import Playthrough.Config
import Playthrough.Graph.Basic
import Playthrough.Schema.Structure

/-!
# Graphs and configurations as documents
-/

namespace Playthrough

namespace Config

def ofJson : Decoder Config := .record fun members =>
  Config.mk <$> Decoder.optional .bool false "include_non_progressing_rules" members
    <*> Decoder.optional .string "black" "default_color" members
    <*> Decoder.optional .string "red" "highlight_color" members
    <*> Decoder.optional .string "Begining" "root_rule_id" members

def toJson (config : Config) : Json := .object [
  ("include_non_progressing_rules", .bool config.includeNonProgressing),
  ("default_color", .string config.defaultColor),
  ("highlight_color", .string config.highlightColor),
  ("root_rule_id", .string config.root)]

end Config

namespace Edge

def ofJson : Decoder Edge := .record fun members =>
  Edge.mk <$> Decoder.required .string "source" members
    <*> Decoder.required .string "target" members
    <*> Decoder.optional .string "black" "color" members

def toJson (edge : Edge) : Json := .object [
  ("source", .string edge.source),
  ("target", .string edge.target),
  ("color", .string edge.color)]

end Edge

namespace Graph

def nodeOfJson : Decoder Text := .record (Decoder.required .string "rule_id")

def nodeToJson (node : Text) : Json := .object [("rule_id", .string node)]

def pathToJson (path : List Edge) : Json := .array (path.map Edge.toJson)

def ofJson : Decoder Graph := .record fun members =>
  Graph.mk <$> Decoder.required (.list nodeOfJson) "nodes" members
    <*> Decoder.required (.list Edge.ofJson) "edges" members
    <*> Decoder.optional (.list (.list Edge.ofJson)) [] "completed_paths" members
    <*> Decoder.optional (.list Edge.ofJson) [] "example_path" members
    <*> Decoder.optional .int 0 "states_visited" members

def toJson (graph : Graph) : Json := .object [
  ("nodes", .array (graph.nodes.map nodeToJson)),
  ("edges", pathToJson graph.edges),
  ("completed_paths", .array (graph.completedPaths.map pathToJson)),
  ("example_path", pathToJson graph.examplePath),
  ("states_visited", .int graph.statesVisited)]

end Graph

end Playthrough
