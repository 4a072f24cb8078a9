import Playthrough.Text.Basic

/-!
# Edges

An edge says that one rule fired directly after another.  Which edge it is depends on
the two rules alone; the color is for drawing.
-/

namespace Playthrough

structure Edge where
  source : Text
  target : Text
  color : Text
  deriving DecidableEq, Repr

namespace Edge

def key (edge : Edge) : Text × Text := (edge.source, edge.target)

def recolor (edge : Edge) (color : Text) : Edge := { edge with color := color }

@[simp] theorem key_recolor (edge : Edge) (color : Text) :
    (edge.recolor color).key = edge.key := rfl

@[simp] theorem color_recolor (edge : Edge) (color : Text) :
    (edge.recolor color).color = color := rfl

@[simp] theorem recolor_recolor (edge : Edge) (first second : Text) :
    (edge.recolor first).recolor second = edge.recolor second := rfl

def isAmong (edge : Edge) (edges : List Edge) : Bool :=
  decide (edge.key ∈ edges.map key)

@[simp] theorem isAmong_iff {edge : Edge} {edges : List Edge} :
    edge.isAmong edges = true ↔ edge.key ∈ edges.map key := decide_eq_true_iff

/-- Add an edge at the end of a list, unless its key is there. -/
def enter (edge : Edge) (edges : List Edge) : List Edge :=
  if edge.isAmong edges then edges else edges ++ [edge]

def distinct (edges : List Edge) : List Edge :=
  edges.foldl (fun kept edge => edge.enter kept) []

theorem map_key_enter (edge : Edge) (edges : List Edge) :
    (edge.enter edges).map key =
      if edge.key ∈ edges.map key then edges.map key else edges.map key ++ [edge.key] := by
  unfold enter
  simp only [isAmong_iff]
  split <;> simp

theorem mem_enter {edge other : Edge} {edges : List Edge} :
    other ∈ edge.enter edges ↔ other ∈ edges ∨ other = edge ∧ edge.key ∉ edges.map key := by
  unfold enter
  split
  · next h => simp [isAmong_iff.1 h]
  · next h => simp [mt isAmong_iff.2 h]

theorem nodup_enter {edge : Edge} {edges : List Edge} (h : (edges.map key).Nodup) :
    ((edge.enter edges).map key).Nodup := by
  rw [map_key_enter]
  split
  · exact h
  · next hmem =>
      refine List.nodup_append.2 ⟨h, by simp, fun a ha b hb => ?_⟩
      rw [List.mem_singleton.1 hb]
      exact fun heq => hmem (heq ▸ ha)

theorem prefix_enter (edge : Edge) (edges : List Edge) : edges <+: edge.enter edges := by
  unfold enter
  split
  · exact List.prefix_rfl
  · exact List.prefix_append edges [edge]

end Edge

end Playthrough
