import Playthrough.Graph.Basic

/-!
# Graphs as DOT text

One statement a line: a node by its quoted id, an edge by its quoted ends and color.
In quotes only the backslash and the quote itself are escaped.
-/

namespace Playthrough.Dot

def escape (point : CodePoint) : List CodePoint :=
  if point = '\\' then ['\\', '\\']
  else if point = '"' then ['\\', '"']
  else [point]

def replace (old : CodePoint) (new points : List CodePoint) : List CodePoint :=
  points.flatMap fun point => if point = old then new else [point]

/-- Escaping is replacing, first the backslash and then the quote. -/
theorem flatMap_escape (points : List CodePoint) :
    points.flatMap escape = replace '"' ['\\', '"'] (replace '\\' ['\\', '\\'] points) := by
  have hpoint : ∀ point : CodePoint,
      replace '"' ['\\', '"'] (if point = '\\' then ['\\', '\\'] else [point]) =
        escape point := by
    intro point
    by_cases hbackslash : point = '\\'
    · rw [escape, if_pos hbackslash, if_pos hbackslash]
      decide
    · rw [escape, if_neg hbackslash, if_neg hbackslash, replace, List.flatMap_singleton]
  calc points.flatMap escape
      = points.flatMap fun point : CodePoint =>
          replace '"' ['\\', '"'] (if point = '\\' then ['\\', '\\'] else [point]) := by
        simp only [hpoint]
    _ = replace '"' ['\\', '"'] (replace '\\' ['\\', '\\'] points) := List.flatMap_assoc.symm

-- In the other order the backslash that escapes a quote is escaped itself.
example : replace '\\' ['\\', '\\'] (replace '"' ['\\', '"'] ['"']) =
    (['\\', '\\', '"'] : List CodePoint) := by
  decide

def quote (text : Text) : Text := ⟨.ofChar '"' :: text.points.flatMap escape ++ [.ofChar '"']⟩

def nodeLine (node : Text) : Text := "    " ++ quote node ++ ";"

def edgeLine (edge : Edge) : Text :=
  "    " ++ quote edge.source ++ " -> " ++ quote edge.target ++ " [color=" ++
    quote edge.color ++ "];"

def headerLine (name : Text) : Text := "digraph " ++ quote name ++ " \x7b"

def lines (graph : Graph) (name : Text) : List Text :=
  headerLine name :: graph.nodes.map nodeLine ++ graph.edges.map edgeLine ++ [.ofString "\x7d"]

def print (graph : Graph) (name : Text) : Text :=
  ⟨(lines graph name).flatMap fun line => line.points ++ [.ofChar '\n']⟩

end Playthrough.Dot
