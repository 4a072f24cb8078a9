import Playthrough.Proofs.Turn

/-!
# Bookkeeping

Whatever is done to a record comes down to four kinds of entries: a node, an edge, a completed
path, a visited state.  Each entry keeps a record in order and lets its lists only grow.  So a
record is in order after any sequence of additions, steps and whole walks, and each of its
edges is the first one with its pair that was ever added.
-/

namespace Playthrough

/-! ## First edges -/

namespace Edge

def IsFirstIn (edge : Edge) (added : List Edge) : Prop :=
  added.find? (fun other => decide (other.key = edge.key)) = some edge

variable {edge : Edge} {added : List Edge}

theorem IsFirstIn.append (h : edge.IsFirstIn added) (later : List Edge) :
    edge.IsFirstIn (added ++ later) := by
  unfold IsFirstIn at h ⊢
  rw [List.find?_append, h, Option.some_or]

theorem isFirstIn_snoc (h : edge.key ∉ added.map key) : edge.IsFirstIn (added ++ [edge]) := by
  have hnone : added.find? (fun other => decide (other.key = edge.key)) = none := by
    refine List.find?_eq_none.2 fun other hother hkey => h ?_
    rw [← of_decide_eq_true hkey]
    exact List.mem_map_of_mem hother
  unfold IsFirstIn
  rw [List.find?_append, hnone]
  simp

end Edge

/-! ## Entries -/

inductive Entry (σ : Type) where
  | node (node : Text)
  | edge (edge : Edge)
  | path (path : List Edge)
  | state (state : σ)
  deriving DecidableEq, Repr

def Entry.edge? {σ : Type} : Entry σ → Option Edge
  | .edge written => some written
  | _ => none

variable {σ : Type} [Observable σ]

namespace Record

def write (record : Record σ) : Entry σ → Record σ
  | .node node => record.addNode node
  | .edge edge => record.addEdge edge
  | .path path => record.complete path
  | .state state => record.visit state

def writeAll (record : Record σ) (entries : List (Entry σ)) : Record σ :=
  entries.foldl write record

theorem writeAll_append (record : Record σ) (first second : List (Entry σ)) :
    record.writeAll (first ++ second) = (record.writeAll first).writeAll second :=
  List.foldl_append

/-! ### Growth -/

theorem grows_write (record : Record σ) (entry : Entry σ) : record.Grows (record.write entry) := by
  cases entry with
  | node node => exact record.grows_addNode node
  | edge edge => exact record.grows_addEdge edge
  | path path => exact record.grows_complete path
  | state state => exact record.grows_visit state

theorem grows_writeAll (record : Record σ) (entries : List (Entry σ)) :
    record.Grows (record.writeAll entries) := by
  induction entries generalizing record with
  | nil => exact .refl record
  | cons entry entries ih => exact (record.grows_write entry).trans (ih _)

/-! ### Order -/

/-- Nothing is listed twice, the root comes first, and the edges lead to nodes.  Each edge is
the first one with its pair among those that were added. -/
structure Orderly (record : Record σ) (root : Text) (added : List Edge) : Prop where
  root_first : record.nodes.head? = some root
  nodes_distinct : record.nodes.Nodup
  pairs_distinct : (record.edges.map Edge.key).Nodup
  first : ∀ edge ∈ record.edges, edge.IsFirstIn added
  recorded : ∀ edge ∈ added, edge.key ∈ record.edges.map Edge.key
  target_mem : ∀ edge ∈ record.edges, edge.target ∈ record.nodes
  states_distinct : record.visited.states.Pairwise fun first second =>
    ¬ ObservablyEqual first second

theorem orderly_start (state : σ) (root : Text) : (start state root).Orderly root [] where
  root_first := rfl
  nodes_distinct := by simp [start]
  pairs_distinct := List.nodup_nil
  first := by simp [start]
  recorded := by simp
  target_mem := by simp [start]
  states_distinct := Visited.pairwise_states _

variable {record : Record σ} {root : Text} {added : List Edge}

theorem Orderly.addNode (h : record.Orderly root added) (node : Text) :
    (record.addNode node).Orderly root added where
  root_first := (record.grows_addNode node).head?_nodes h.root_first
  nodes_distinct := nodup_addNode h.nodes_distinct
  pairs_distinct := by simpa using h.pairs_distinct
  first := by simpa using h.first
  recorded := by simpa using h.recorded
  target_mem := by
    intro edge hedge
    rw [edges_addNode] at hedge
    exact (record.grows_addNode node).nodes.subset (h.target_mem edge hedge)
  states_distinct := Visited.pairwise_states _

theorem Orderly.addEdge (h : record.Orderly root added) (edge : Edge) :
    (record.addEdge edge).Orderly root (added ++ [edge]) where
  root_first := (record.grows_addEdge edge).head?_nodes h.root_first
  nodes_distinct := nodup_addNode h.nodes_distinct
  pairs_distinct := by
    rw [edges_addEdge]
    exact Edge.nodup_enter h.pairs_distinct
  first := by
    intro other hother
    rw [edges_addEdge, Edge.mem_enter] at hother
    rcases hother with hold | ⟨rfl, hnew⟩
    · exact (h.first other hold).append [edge]
    · -- whatever was added before has an edge with its pair, and this pair has none
      refine Edge.isFirstIn_snoc fun hadded => hnew ?_
      obtain ⟨earlier, hearlier, hkey⟩ := List.mem_map.1 hadded
      rw [← hkey]
      exact h.recorded earlier hearlier
  recorded := by
    intro other hother
    rcases List.mem_append.1 hother with hold | hnew
    · exact (record.grows_addEdge edge).mem_keys (h.recorded other hold)
    · rw [List.mem_singleton.1 hnew]
      exact record.key_mem_edges_addEdge edge
  target_mem := by
    intro other hother
    rw [mem_nodes_addEdge]
    rcases mem_edges_addEdge hother with hold | rfl
    · exact .inl (h.target_mem other hold)
    · exact .inr rfl
  states_distinct := Visited.pairwise_states _

theorem Orderly.complete (h : record.Orderly root added) (path : List Edge) :
    (record.complete path).Orderly root added :=
  ⟨h.root_first, h.nodes_distinct, h.pairs_distinct, h.first, h.recorded, h.target_mem,
    Visited.pairwise_states _⟩

theorem Orderly.visit (h : record.Orderly root added) (state : σ) :
    (record.visit state).Orderly root added :=
  ⟨h.root_first, h.nodes_distinct, h.pairs_distinct, h.first, h.recorded, h.target_mem,
    Visited.pairwise_states _⟩

theorem Orderly.write (h : record.Orderly root added) (entry : Entry σ) :
    (record.write entry).Orderly root (added ++ entry.edge?.toList) := by
  cases entry with
  | node node => simpa [Record.write, Entry.edge?] using h.addNode node
  | edge edge => exact h.addEdge edge
  | path path => simpa [Record.write, Entry.edge?] using h.complete path
  | state state => simpa [Record.write, Entry.edge?] using h.visit state

theorem Orderly.writeAll (h : record.Orderly root added) (entries : List (Entry σ)) :
    (record.writeAll entries).Orderly root (added ++ entries.filterMap Entry.edge?) := by
  induction entries generalizing record added with
  | nil => simpa [writeAll] using h
  | cons entry entries ih =>
      have hedges : (entry :: entries).filterMap Entry.edge? =
          entry.edge?.toList ++ entries.filterMap Entry.edge? := by
        cases hedge : entry.edge? <;> simp [hedge]
      rw [hedges, ← List.append_assoc]
      exact ih (h.write entry)

end Record

/-! ## Journals -/

/-- What actions write one after the other.  What an action writes depends on the record that
it finds. -/
def journal {α : Type*} (act : α → Record σ → Record σ)
    (entries : α → Record σ → List (Entry σ)) : List α → Record σ → List (Entry σ)
  | [], _ => []
  | action :: actions, record =>
      entries action record ++ journal act entries actions (act action record)

theorem Record.writeAll_journal {α : Type*} {act : α → Record σ → Record σ}
    {entries : α → Record σ → List (Entry σ)}
    (h : ∀ action record, act action record = record.writeAll (entries action record))
    (actions : List α) (record : Record σ) :
    record.writeAll (journal act entries actions record) =
      actions.foldl (fun record action => act action record) record := by
  induction actions generalizing record with
  | nil => rfl
  | cons action actions ih => rw [journal, writeAll_append, ← h, ih, List.foldl_cons]

/-! ### Steps -/

namespace Step

def entries (config : Config) (step : Step σ) (record : Record σ) : List (Entry σ) :=
  match step.meaning with
  | .ending edge => [.edge edge, .path (step.frame.path ++ [edge])]
  | .flavorLoop edge =>
      if config.includeNonProgressing ∧ edge.target ∉ record.nodes then [.edge edge] else []
  | .progress edge => [.edge edge, .state step.next]
  | .defaultLoop => []
  | .defaultProgress => [.state step.next]

theorem enter_eq_writeAll (config : Config) (step : Step σ) (record : Record σ) :
    step.enter config record = record.writeAll (step.entries config record) := by
  unfold enter entries
  cases step.meaning with
  | flavorLoop edge =>
      dsimp only
      split <;> rfl
  | _ => rfl

end Step

/-- The record of a walk is what its steps make of the record that it started on. -/
theorem Walk.record_explore {ε : Type} (engine : Engine σ ε) (config : Config) (frame : Frame σ)
    (record : Record σ) :
    (explore engine config frame record).1.record =
      (explore engine config frame record).1.steps.foldl
        (fun record step => step.enter config record) record := by
  refine Turns.keeps (P := fun walk => walk.record =
    walk.steps.foldl (fun record step => step.enter config record) record) ?_
    (run_turns engine config (engine.budget frame.state) (start frame record)) rfl
  intro walk after turn h
  cases turn with
  | leave => exact h
  | @attempt frame entity pending below current history outcome step answer judged =>
      change step.enter config current = _
      rw [steps_advance, List.foldl_append]
      exact congrArg (step.enter config) h

/-! ## Operations -/

/-- What can be done to a record.  A step may come from any engine and may have been classified
with any record; a walk may start anywhere, and may be stopped by a fault. -/
inductive Operation (σ : Type) [Observable σ] where
  | addNode (node : Text)
  | addEdge (edge : Edge)
  | complete (path : List Edge)
  | visit (state : σ)
  | enter (config : Config) (step : Step σ)
  | explore {ε : Type} (engine : Engine σ ε) (config : Config) (frame : Frame σ)

namespace Operation

def perform : Operation σ → Record σ → Record σ
  | addNode node, record => record.addNode node
  | addEdge edge, record => record.addEdge edge
  | complete path, record => record.complete path
  | visit state, record => record.visit state
  | enter config step, record => step.enter config record
  | explore engine config frame, record => (Walk.explore engine config frame record).1.record

def entries : Operation σ → Record σ → List (Entry σ)
  | addNode node, _ => [.node node]
  | addEdge edge, _ => [.edge edge]
  | complete path, _ => [.path path]
  | visit state, _ => [.state state]
  | enter config step, record => step.entries config record
  | explore engine config frame, record =>
      journal (Step.enter config) (Step.entries config)
        (Walk.explore engine config frame record).1.steps record

theorem perform_eq_writeAll (operation : Operation σ) (record : Record σ) :
    operation.perform record = record.writeAll (operation.entries record) := by
  cases operation with
  | enter config step => exact step.enter_eq_writeAll config record
  | explore engine config frame =>
      rw [entries, Record.writeAll_journal (Step.enter_eq_writeAll config)]
      exact Walk.record_explore engine config frame record
  | _ => rfl

end Operation

namespace Record

def performAll (record : Record σ) (operations : List (Operation σ)) : Record σ :=
  operations.foldl (fun record operation => operation.perform record) record

def entries (record : Record σ) (operations : List (Operation σ)) : List (Entry σ) :=
  journal Operation.perform Operation.entries operations record

def added (record : Record σ) (operations : List (Operation σ)) : List Edge :=
  (record.entries operations).filterMap Entry.edge?

theorem performAll_eq_writeAll (record : Record σ) (operations : List (Operation σ)) :
    record.performAll operations = record.writeAll (record.entries operations) :=
  (writeAll_journal Operation.perform_eq_writeAll operations record).symm

/-- After any operations a record holds what they wrote, it is in order, and whatever is done
next only continues its lists. -/
theorem orderly_performAll (start : σ) (root : Text) (operations : List (Operation σ)) :
    (Record.start start root).performAll operations =
      (Record.start start root).writeAll ((Record.start start root).entries operations) ∧
    ((Record.start start root).performAll operations).Orderly root
      ((Record.start start root).added operations) ∧
    ∀ operation : Operation σ, ((Record.start start root).performAll operations).Grows
      (operation.perform ((Record.start start root).performAll operations)) := by
  refine ⟨performAll_eq_writeAll _ _, ?_, fun operation => ?_⟩
  · rw [performAll_eq_writeAll]
    exact (orderly_start start root).writeAll _
  · rw [Operation.perform_eq_writeAll]
    exact grows_writeAll _ _

end Record

end Playthrough
