import Playthrough.Walk.Record

/-!
# Records only grow

Every list of a record is continued at its end, by each operation on it.
-/

namespace Playthrough.Record

variable {σ : Type} [Observable σ]

def Completes (record : Record σ) (rule : Text) : Prop :=
  ∃ path ∈ record.completed, ∃ edge, path.getLast? = some edge ∧ edge.target = rule

/-! ## Reading an operation's result -/

theorem nodes_addNode (node : Text) (record : Record σ) :
    (record.addNode node).nodes =
      if node ∈ record.nodes then record.nodes else record.nodes ++ [node] := by
  unfold addNode
  split <;> rfl

@[simp] theorem edges_addNode (node : Text) (record : Record σ) :
    (record.addNode node).edges = record.edges := by
  unfold addNode
  split <;> rfl

theorem nodup_addNode {node : Text} {record : Record σ} (h : record.nodes.Nodup) :
    (record.addNode node).nodes.Nodup := by
  rw [nodes_addNode]
  split
  · exact h
  · next hnew =>
      refine List.nodup_append.2 ⟨h, by simp, fun known hknown added hadded heq => hnew ?_⟩
      rwa [← List.mem_singleton.1 hadded, ← heq]

@[simp] theorem visited_addEdge (edge : Edge) (record : Record σ) :
    (record.addEdge edge).visited = record.visited := by
  unfold addEdge addNode
  split <;> rfl

@[simp] theorem edges_addEdge (edge : Edge) (record : Record σ) :
    (record.addEdge edge).edges = edge.enter record.edges := by
  unfold addEdge addNode
  split <;> rfl

@[simp] theorem completed_addEdge (edge : Edge) (record : Record σ) :
    (record.addEdge edge).completed = record.completed := by
  unfold addEdge addNode
  split <;> rfl

@[simp] theorem mem_nodes_addEdge {node : Text} {edge : Edge} {record : Record σ} :
    node ∈ (record.addEdge edge).nodes ↔ node ∈ record.nodes ∨ node = edge.target := by
  unfold addEdge addNode
  split
  · next h =>
      constructor
      · exact Or.inl
      · rintro (hnode | rfl)
        · exact hnode
        · exact h
  · simp

theorem key_mem_edges_addEdge (edge : Edge) (record : Record σ) :
    edge.key ∈ (record.addEdge edge).edges.map Edge.key := by
  rw [edges_addEdge, Edge.map_key_enter]
  split
  · next h => exact h
  · simp

theorem mem_edges_addEdge {edge other : Edge} {record : Record σ}
    (h : other ∈ (record.addEdge edge).edges) :
    other ∈ record.edges ∨ other = edge := by
  rw [edges_addEdge] at h
  unfold Edge.enter at h
  split at h
  · exact .inl h
  · simpa using h

@[simp] theorem visited_visit (state : σ) (record : Record σ) :
    (record.visit state).visited = record.visited.add state := rfl

@[simp] theorem nodes_visit (state : σ) (record : Record σ) :
    (record.visit state).nodes = record.nodes := rfl

@[simp] theorem edges_visit (state : σ) (record : Record σ) :
    (record.visit state).edges = record.edges := rfl

@[simp] theorem completed_visit (state : σ) (record : Record σ) :
    (record.visit state).completed = record.completed := rfl

@[simp] theorem visited_complete (path : List Edge) (record : Record σ) :
    (record.complete path).visited = record.visited := rfl

@[simp] theorem nodes_complete (path : List Edge) (record : Record σ) :
    (record.complete path).nodes = record.nodes := rfl

@[simp] theorem edges_complete (path : List Edge) (record : Record σ) :
    (record.complete path).edges = record.edges := rfl

@[simp] theorem completed_complete (path : List Edge) (record : Record σ) :
    (record.complete path).completed = record.completed ++ [path] := rfl

/-! ## Growth -/

structure Grows (before after : Record σ) : Prop where
  visited : before.visited.states <+: after.visited.states
  nodes : before.nodes <+: after.nodes
  edges : before.edges <+: after.edges
  completed : before.completed <+: after.completed

namespace Grows

theorem refl (record : Record σ) : record.Grows record :=
  ⟨List.prefix_rfl, List.prefix_rfl, List.prefix_rfl, List.prefix_rfl⟩

theorem trans {first second third : Record σ} (h : first.Grows second)
    (h' : second.Grows third) : first.Grows third :=
  ⟨h.visited.trans h'.visited, h.nodes.trans h'.nodes, h.edges.trans h'.edges,
    h.completed.trans h'.completed⟩

theorem mem_visited {before after : Record σ} (h : before.Grows after) {state : σ}
    (hstate : state ∈ before.visited) : state ∈ after.visited := by
  obtain ⟨other, hother, heq⟩ := Visited.mem_iff.1 hstate
  exact Visited.mem_iff.2 ⟨other, h.visited.subset hother, heq⟩

theorem mem_keys {before after : Record σ} (h : before.Grows after) {edge : Edge}
    (hedge : edge.key ∈ before.edges.map Edge.key) :
    edge.key ∈ after.edges.map Edge.key :=
  (h.edges.map Edge.key).subset hedge

theorem completes {before after : Record σ} (h : before.Grows after) {rule : Text}
    (hrule : before.Completes rule) : after.Completes rule := by
  obtain ⟨path, hpath, hlast⟩ := hrule
  exact ⟨path, h.completed.subset hpath, hlast⟩

theorem head?_nodes {before after : Record σ} (h : before.Grows after) {root : Text}
    (hroot : before.nodes.head? = some root) : after.nodes.head? = some root := by
  obtain ⟨rest, hrest⟩ := h.nodes
  rw [← hrest, List.head?_append, hroot, Option.some_or]

theorem size_le {before after : Record σ} (h : before.Grows after) :
    before.visited.size ≤ after.visited.size :=
  h.visited.length_le

end Grows

theorem grows_addNode (node : Text) (record : Record σ) :
    record.Grows (record.addNode node) := by
  unfold addNode
  split
  · exact .refl record
  · exact ⟨List.prefix_rfl, List.prefix_append _ _, List.prefix_rfl, List.prefix_rfl⟩

theorem grows_addEdge (edge : Edge) (record : Record σ) :
    record.Grows (record.addEdge edge) where
  visited := by simp
  nodes := by
    unfold addEdge addNode
    split <;> simp
  edges := by simpa using Edge.prefix_enter edge record.edges
  completed := by simp

theorem grows_complete (path : List Edge) (record : Record σ) :
    record.Grows (record.complete path) where
  visited := by simp
  nodes := by simp
  edges := by simp
  completed := by simp

theorem grows_visit (state : σ) (record : Record σ) :
    record.Grows (record.visit state) where
  visited := by
    rw [visited_visit, Visited.states_add]
    split <;> simp
  nodes := by simp
  edges := by simp
  completed := by simp

end Playthrough.Record
