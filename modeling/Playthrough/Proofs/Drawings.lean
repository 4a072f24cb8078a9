import Mathlib.Data.List.Basic
import Playthrough.Graph.Dot

/-!
# Graphs read back from DOT text

Ids are free text and may look like the end of a statement, but in quotes they cannot end one.
So what stands in quotes is read back from the front of a text, and with it a statement, and
with that the list of statements.  Exactly what is printed is read back.
-/

namespace Playthrough.Dot

/-- What the text of a graph shows. -/
structure Drawing where
  name : Text
  nodes : List Text
  edges : List Edge
  deriving DecidableEq, Repr

def Drawing.ofGraph (graph : Graph) (name : Text) : Drawing := ⟨name, graph.nodes, graph.edges⟩

/-! ## Reading -/

def Special (point : CodePoint) : Prop := point = '\\' ∨ point = '"'

instance (point : CodePoint) : Decidable (Special point) :=
  inferInstanceAs (Decidable (_ ∨ _))

def readEscaped : List CodePoint → Option (List CodePoint × List CodePoint)
  | [] => none
  | point :: rest =>
      if point = '"' then some ([], rest)
      else if point = '\\' then
        match rest with
        | [] => none
        | escaped :: rest =>
            if Special escaped then
              (readEscaped rest).map fun read => (escaped :: read.1, read.2)
            else none
      else (readEscaped rest).map fun read => (point :: read.1, read.2)

def readWord (word : Text) (points : List CodePoint) : Option (List CodePoint) :=
  points.dropPrefix? word.points

def readQuoted (points : List CodePoint) : Option (Text × List CodePoint) := do
  let points ← readWord "\"" points
  let (content, points) ← readEscaped points
  return (⟨content⟩, points)

def readNode (points : List CodePoint) : Option (Text × List CodePoint) := do
  let points ← readWord "    " points
  let (node, points) ← readQuoted points
  let points ← readWord ";\n" points
  return (node, points)

def readEdge (points : List CodePoint) : Option (Edge × List CodePoint) := do
  let points ← readWord "    " points
  let (source, points) ← readQuoted points
  let points ← readWord " -> " points
  let (target, points) ← readQuoted points
  let points ← readWord " [color=" points
  let (color, points) ← readQuoted points
  let points ← readWord "];\n" points
  return (⟨source, target, color⟩, points)

def readMany {α : Type} (read : List CodePoint → Option (α × List CodePoint))
    (points : List CodePoint) : List α × List CodePoint :=
  match read points with
  | none => ([], points)
  | some (value, rest) =>
      if rest.length < points.length then
        let more := readMany read rest
        (value :: more.1, more.2)
      else ([], points)
termination_by points.length

def read? (text : Text) : Option Drawing := do
  let points ← readWord "digraph " text.points
  let (name, points) ← readQuoted points
  let points ← readWord " \x7b\n" points
  let (nodes, points) := readMany readNode points
  let (edges, points) := readMany readEdge points
  if points = ("\x7d\n" : Text).points then some ⟨name, nodes, edges⟩ else none

/-! ## Quoted ids -/

theorem escape_special {point : CodePoint} (h : Special point) :
    escape point = [.ofChar '\\', point] := by
  rcases h with rfl | rfl <;> rfl

theorem escape_plain {point : CodePoint} (h : ¬ Special point) : escape point = [point] := by
  unfold escape
  rw [if_neg fun hslash => h (.inl hslash), if_neg fun hquote => h (.inr hquote)]

theorem readEscaped_quote (rest : List CodePoint) :
    readEscaped (.ofChar '"' :: rest) = some ([], rest) := by
  rw [readEscaped.eq_def]
  exact if_pos rfl

theorem readEscaped_special {point : CodePoint} (h : Special point) (rest : List CodePoint) :
    readEscaped (.ofChar '\\' :: point :: rest) =
      (readEscaped rest).map fun read => (point :: read.1, read.2) := by
  rw [readEscaped, if_neg (by decide), if_pos rfl]
  exact if_pos h

theorem readEscaped_plain {point : CodePoint} (h : ¬ Special point) (rest : List CodePoint) :
    readEscaped (point :: rest) =
      (readEscaped rest).map fun read => (point :: read.1, read.2) := by
  rw [readEscaped.eq_def]
  exact (if_neg fun hquote => h (.inr hquote)).trans (if_neg fun hslash => h (.inl hslash))

theorem readEscaped_flatMap (content rest : List CodePoint) :
    readEscaped (content.flatMap escape ++ .ofChar '"' :: rest) = some (content, rest) := by
  induction content with
  | nil => exact readEscaped_quote rest
  | cons point content ih =>
      rw [List.flatMap_cons, List.append_assoc]
      by_cases h : Special point
      · rw [escape_special h, List.cons_append, List.singleton_append, readEscaped_special h, ih]
        rfl
      · rw [escape_plain h, List.singleton_append, readEscaped_plain h, ih]
        rfl

theorem readEscaped_eq_some_iff {points content rest : List CodePoint} :
    readEscaped points = some (content, rest) ↔
      points = content.flatMap escape ++ .ofChar '"' :: rest := by
  refine ⟨fun h => ?_, fun h => h ▸ readEscaped_flatMap content rest⟩
  -- along the reader: the end of the text, the closing quote, what is escaped, anything else
  induction points using readEscaped.induct generalizing content with
  | case1 => cases h
  | case2 after =>
      rw [readEscaped_quote] at h
      cases h
      rfl
  | case3 => cases h
  | case4 point after hspecial _ ih =>
      rw [readEscaped_special hspecial, Option.map_eq_some_iff] at h
      obtain ⟨⟨left, _⟩, hleft, ⟨⟩⟩ := h
      rw [ih hleft, List.flatMap_cons, escape_special hspecial]
      rfl
  | case5 point after hplain hne =>
      rw [readEscaped, if_neg hne, if_pos rfl, if_neg hplain] at h
      cases h
  | case6 point after hquote hslash ih =>
      have hplain : ¬ Special point := not_or.2 ⟨hslash, hquote⟩
      rw [readEscaped_plain hplain, Option.map_eq_some_iff] at h
      obtain ⟨⟨left, _⟩, hleft, ⟨⟩⟩ := h
      rw [ih hleft, List.flatMap_cons, escape_plain hplain]
      rfl

theorem readWord_eq_some_iff {word : Text} {points rest : List CodePoint} :
    readWord word points = some rest ↔ points = word.points ++ rest := by
  unfold readWord
  rw [List.dropPrefix?_eq_some_iff]
  constructor
  · rintro ⟨front, rfl, heq⟩
    rw [eq_of_beq heq]
  · rintro rfl
    exact ⟨word.points, rfl, beq_self_eq_true _⟩

theorem readQuoted_eq_some_iff {points rest : List CodePoint} {text : Text} :
    readQuoted points = some (text, rest) ↔ points = (quote text).points ++ rest := by
  have hquote : (quote text).points ++ rest =
      ("\"" : Text).points ++ (text.points.flatMap escape ++ .ofChar '"' :: rest) := by
    simp [quote, Text.ofString, Text.ofChars]
  rw [hquote]
  unfold readQuoted
  simp only [Option.bind_eq_bind, Option.bind_eq_some_iff, readWord_eq_some_iff]
  constructor
  · rintro ⟨after, rfl, ⟨content, _⟩, hcontent, ⟨⟩⟩
    rw [readEscaped_eq_some_iff.1 hcontent]
  · rintro rfl
    exact ⟨_, rfl, (text.points, rest), readEscaped_flatMap _ _, rfl⟩

theorem quote_append_inj {text other : Text} {rest after : List CodePoint} :
    (quote text).points ++ rest = (quote other).points ++ after ↔ text = other ∧ rest = after := by
  rw [← readQuoted_eq_some_iff, readQuoted_eq_some_iff.2 rfl]
  simp

/-! ## Statements -/

def ended (line : Text) : List CodePoint := line.points ++ [.ofChar '\n']

theorem nodeLine_append (node : Text) (rest : List CodePoint) :
    ended (nodeLine node) ++ rest =
      ("    " : Text).points ++ ((quote node).points ++ ((";\n" : Text).points ++ rest)) := by
  simp [ended, nodeLine, Text.ofString, Text.ofChars]

theorem edgeLine_append (edge : Edge) (rest : List CodePoint) :
    ended (edgeLine edge) ++ rest =
      ("    " : Text).points ++ ((quote edge.source).points ++ ((" -> " : Text).points ++
        ((quote edge.target).points ++ ((" [color=" : Text).points ++
          ((quote edge.color).points ++ (("];\n" : Text).points ++ rest)))))) := by
  simp [ended, edgeLine, Text.ofString, Text.ofChars]

theorem readNode_eq_some_iff {points rest : List CodePoint} {node : Text} :
    readNode points = some (node, rest) ↔ points = ended (nodeLine node) ++ rest := by
  rw [nodeLine_append]
  unfold readNode
  simp only [Option.bind_eq_bind, Option.bind_eq_some_iff, readWord_eq_some_iff]
  constructor
  · rintro ⟨_, rfl, ⟨id, _⟩, hid, _, rfl, ⟨⟩⟩
    rw [readQuoted_eq_some_iff.1 hid]
  · rintro rfl
    exact ⟨_, rfl, (node, _), readQuoted_eq_some_iff.2 rfl, _, rfl, rfl⟩

theorem readEdge_eq_some_iff {points rest : List CodePoint} {edge : Edge} :
    readEdge points = some (edge, rest) ↔ points = ended (edgeLine edge) ++ rest := by
  rw [edgeLine_append]
  unfold readEdge
  simp only [Option.bind_eq_bind, Option.bind_eq_some_iff, readWord_eq_some_iff]
  constructor
  · rintro ⟨_, rfl, ⟨source, _⟩, hsource, _, rfl, ⟨target, _⟩, htarget, _, rfl, ⟨color, _⟩, hcolor,
      _, rfl, ⟨⟩⟩
    rw [readQuoted_eq_some_iff.1 hsource, readQuoted_eq_some_iff.1 htarget,
      readQuoted_eq_some_iff.1 hcolor]
  · rintro rfl
    exact ⟨_, rfl, (edge.source, _), readQuoted_eq_some_iff.2 rfl, _, rfl,
      (edge.target, _), readQuoted_eq_some_iff.2 rfl, _, rfl,
      (edge.color, _), readQuoted_eq_some_iff.2 rfl, _, rfl, rfl⟩

theorem readNode_edges (edges : List Edge) :
    readNode (edges.flatMap (fun edge => ended (edgeLine edge)) ++ ("\x7d\n" : Text).points) =
      none := by
  rw [Option.eq_none_iff_forall_ne_some]
  rintro ⟨node, rest⟩ hnode
  rw [readNode_eq_some_iff, nodeLine_append] at hnode
  cases edges with
  | nil =>
      have hhead : some (CodePoint.ofChar '\x7d') = some (CodePoint.ofChar ' ') :=
        congrArg List.head? hnode
      exact absurd hhead (by decide)
  | cons edge edges =>
      rw [List.flatMap_cons, List.append_assoc, edgeLine_append, List.append_cancel_left_eq,
        quote_append_inj] at hnode
      have hhead : some (CodePoint.ofChar ' ') = some (CodePoint.ofChar ';') :=
        congrArg List.head? hnode.2
      exact absurd hhead (by decide)

theorem readEdge_end : readEdge ("\x7d\n" : Text).points = none := by
  rw [Option.eq_none_iff_forall_ne_some]
  rintro ⟨edge, rest⟩ hedge
  rw [readEdge_eq_some_iff, edgeLine_append] at hedge
  have hhead : some (CodePoint.ofChar '\x7d') = some (CodePoint.ofChar ' ') :=
    congrArg List.head? hedge
  exact absurd hhead (by decide)

/-! ## Lists of statements -/

section

variable {α : Type} {read : List CodePoint → Option (α × List CodePoint)}
  {write : α → List CodePoint}
  (hread : ∀ {points value rest}, read points = some (value, rest) ↔ points = write value ++ rest)
include hread

theorem readMany_flatMap (hwrite : ∀ value, write value ≠ []) (values : List α)
    {rest : List CodePoint} (hrest : read rest = none) :
    readMany read (values.flatMap write ++ rest) = (values, rest) := by
  induction values with
  | nil =>
      rw [readMany, List.flatMap_nil, List.nil_append, hrest]
  | cons value values ih =>
      have hshorter : (values.flatMap write ++ rest).length <
          (write value ++ (values.flatMap write ++ rest)).length := by
        have hpos := List.length_pos_iff.2 (hwrite value)
        simp only [List.length_append]
        omega
      rw [List.flatMap_cons, List.append_assoc, readMany, hread.2 rfl]
      simp only [if_pos hshorter, ih]

theorem flatMap_readMany (points : List CodePoint) :
    (readMany read points).1.flatMap write ++ (readMany read points).2 = points := by
  induction points using readMany.induct read with
  | case1 points hnone => rw [readMany, hnone, List.flatMap_nil, List.nil_append]
  | case2 points value rest hsome hshorter ih =>
      rw [readMany, hsome]
      simp only [if_pos hshorter]
      rw [List.flatMap_cons, List.append_assoc, ih, ← hread.1 hsome]
  | case3 points value rest hsome hlong =>
      rw [readMany, hsome]
      simp only [if_neg hlong]
      rw [List.flatMap_nil, List.nil_append]

end

/-! ## Drawings -/

def Drawing.write (drawing : Drawing) : List CodePoint :=
  ("digraph " : Text).points ++ ((quote drawing.name).points ++ ((" \x7b\n" : Text).points ++
    (drawing.nodes.flatMap (fun node => ended (nodeLine node)) ++
      (drawing.edges.flatMap (fun edge => ended (edgeLine edge)) ++ ("\x7d\n" : Text).points))))

theorem points_print (graph : Graph) (name : Text) :
    (print graph name).points = (Drawing.ofGraph graph name).write := by
  simp [print, lines, headerLine, ended, Drawing.write, Drawing.ofGraph, List.flatMap_append,
    List.flatMap_map, Text.ofString, Text.ofChars]

theorem ended_ne_nil (line : Text) : ended line ≠ [] := by
  simp [ended]

theorem read?_eq_some_iff {text : Text} {drawing : Drawing} :
    read? text = some drawing ↔ text.points = drawing.write := by
  unfold read? Drawing.write
  simp only [Option.bind_eq_bind, Option.bind_eq_some_iff, readWord_eq_some_iff]
  constructor
  · rintro ⟨_, htext, ⟨name, _⟩, hname, points, rfl, hrest⟩
    split at hrest
    · next hend =>
        cases hrest
        rw [htext, readQuoted_eq_some_iff.1 hname, ← hend,
          flatMap_readMany readEdge_eq_some_iff, flatMap_readMany readNode_eq_some_iff]
    · cases hrest
  · intro htext
    refine ⟨_, htext, (drawing.name, _), readQuoted_eq_some_iff.2 rfl, _, rfl, ?_⟩
    simp only [readMany_flatMap readNode_eq_some_iff (fun _ => ended_ne_nil _) drawing.nodes
        (readNode_edges drawing.edges),
      readMany_flatMap readEdge_eq_some_iff (fun _ => ended_ne_nil _) drawing.edges readEdge_end,
      if_true]

theorem read?_print (graph : Graph) (name : Text) :
    read? (print graph name) = some (.ofGraph graph name) :=
  read?_eq_some_iff.2 (points_print graph name)

theorem print_eq_iff {graph : Graph} {name text : Text} :
    print graph name = text ↔ text.points = (Drawing.ofGraph graph name).write := by
  rw [← points_print, eq_comm]
  cases text
  cases print graph name
  simp

/-- Exactly the texts of graphs are read, each as the drawing that it shows.  So two texts are
the same only if they show the same name, nodes and edges. -/
theorem print_determines :
    (∀ text drawing, read? text = some drawing ↔
      ∃ graph name, print graph name = text ∧ Drawing.ofGraph graph name = drawing) ∧
    ∀ graph other name title, print graph name = print other title ↔
      name = title ∧ graph.nodes = other.nodes ∧ graph.edges = other.edges := by
  constructor
  · intro text drawing
    constructor
    · intro hread
      refine ⟨⟨drawing.nodes, drawing.edges, [], [], 0⟩, drawing.name, ?_, rfl⟩
      exact print_eq_iff.2 (read?_eq_some_iff.1 hread)
    · rintro ⟨graph, name, rfl, rfl⟩
      exact read?_print graph name
  · intro graph other name title
    constructor
    · intro hprint
      have hread : some (Drawing.ofGraph graph name) = some (Drawing.ofGraph other title) := by
        rw [← read?_print, ← read?_print, hprint]
      simpa [Drawing.ofGraph] using hread
    · rintro ⟨rfl, hnodes, hedges⟩
      rw [print_eq_iff, points_print]
      unfold Drawing.ofGraph
      rw [hnodes, hedges]

/-- An id that looks like the end of a node is read as an id. -/
example : read? (print ⟨["\";\n\x7d\n"], [⟨"\\", "];", ""⟩], [], [], 1⟩ "\" \x7b") =
    some ⟨"\" \x7b", ["\";\n\x7d\n"], [⟨"\\", "];", ""⟩]⟩ := by decide +kernel

end Playthrough.Dot
