import Playthrough.Proofs.Retelling
import Playthrough.Proofs.Twins

/-!
# Highlighted graphs

The graph of a walk shows what the walk recorded, with the first playthrough in the highlight
color.  The edges of that playthrough are among those that are drawn, since a completed path
is recorded edge by edge.  Colors only color: with others the graph is the same but for them.
-/

namespace Playthrough

/-! ## Colors during the walk -/

namespace Walk

variable {σ ε : Type} [Observable σ] {engine : Engine σ ε} {config : Config} {start : σ}

structure Plain (config : Config) (walk : Walk σ) : Prop where
  frames : ∀ top ∈ walk.stack, ∀ edge ∈ top.frame.path, edge.color = config.defaultColor
  completed : ∀ path ∈ walk.record.completed, ∀ edge ∈ path, edge.color = config.defaultColor

theorem plain_fresh (config : Config) (start : σ) : Plain config (fresh config start) where
  frames := by
    intro top htop
    rw [List.mem_singleton.1 htop]
    exact fun _ hedge => nomatch hedge
  completed _ hpath := nomatch hpath

theorem Turn.plain {walk after : Walk σ} (turn : Turn engine config walk after)
    (h : Plain config walk) : Plain config after := by
  cases turn with
  | leave => exact ⟨fun top htop => h.frames top (List.mem_cons_of_mem _ htop), h.completed⟩
  | @attempt frame entity pending below record history outcome step answer judged =>
      have hframe : ∀ edge ∈ frame.path, edge.color = config.defaultColor :=
        h.frames _ List.mem_cons_self
      have hsnoc : ∀ rule, ∀ edge ∈ frame.path ++ [frame.edgeTo config rule],
          edge.color = config.defaultColor := by
        intro rule edge hedge
        rcases List.mem_append.1 hedge with hold | hnew
        · exact hframe edge hold
        · rw [List.mem_singleton.1 hnew]
          rfl
      constructor
      · intro top htop
        rcases mem_stack_advance.1 htop with ⟨child, hchild, rfl⟩ | hold
        · change ∀ edge ∈ child.path, _
          rw [judged.child_eq_after hchild]
          unfold Frame.after
          cases outcome.rule with
          | none => exact hframe
          | some rule => exact hsnoc rule
        · rcases List.mem_cons.1 hold with rfl | hbelow
          · exact hframe
          · exact h.frames top (List.mem_cons_of_mem _ hbelow)
      · intro path hpath
        change path ∈ (step.enter config record).completed at hpath
        rw [judged.completed_enter] at hpath
        rcases List.mem_append.1 hpath with hold | hnew
        · exact h.completed path hold
        · split at hnew
          · obtain ⟨rule, -, rfl⟩ := Option.map_eq_some_iff.1 (Option.mem_toList.1 hnew)
            exact hsnoc rule
          · cases hnew

theorem Finished.plain {walk : Walk σ} (h : Finished engine config start walk) :
    Plain config walk :=
  h.turns.keeps (fun _ _ turn => turn.plain) (plain_fresh config start)

end Walk

/-! ## The example path -/

namespace Graph

variable {σ ε : Type} [Observable σ]

/-- A graph shows a record, and the first completed path in the highlight color. -/
structure Highlights (graph : Graph) (config : Config) (record : Record σ) : Prop where
  nodes_eq : graph.nodes = record.nodes
  visited_eq : graph.statesVisited = record.visited.size
  completed_eq : graph.completedPaths = record.completed
  completed_color : ∀ path ∈ graph.completedPaths, ∀ edge ∈ path,
    edge.color = config.defaultColor
  example_eq : graph.examplePath.map Edge.key =
    (record.completed.head?.getD []).map Edge.key
  example_color : ∀ edge ∈ graph.examplePath, edge.color = config.highlightColor
  keys_eq : graph.edges.map Edge.key = record.edges.map Edge.key
  edge_color : ∀ edge ∈ graph.edges, edge.color =
    if edge.isAmong graph.examplePath then config.highlightColor else config.defaultColor
  example_drawn : ∀ edge ∈ graph.examplePath, edge.isAmong graph.edges

theorem color_ofRecord {config : Config} {record : Record σ} {edge : Edge}
    (h : edge ∈ (ofRecord config record).edges) :
    edge.color = if edge.isAmong (ofRecord config record).examplePath then config.highlightColor
      else config.defaultColor := by
  obtain ⟨known, -, rfl⟩ := List.mem_map.1 h
  simp only [Edge.color_recolor, Edge.isAmong_iff, Edge.key_recolor, map_key_example]

theorem isAmong_ofRecord {config : Config} {record : Record σ} {edge : Edge}
    (h : ∀ path ∈ record.completed, ∀ edge ∈ path, edge.key ∈ record.edges.map Edge.key)
    (hedge : edge ∈ (ofRecord config record).examplePath) :
    edge.isAmong (ofRecord config record).edges := by
  obtain ⟨known, hknown, rfl⟩ := List.mem_map.1 hedge
  rw [Edge.isAmong_iff, map_key_ofRecord, Edge.key_recolor]
  cases hfirst : record.completed.head? with
  | none => simp [hfirst] at hknown
  | some path =>
      rw [hfirst] at hknown
      exact h path (List.mem_of_head? hfirst) known hknown

theorem highlights_of_finished {engine : Engine σ ε} {config : Config} {start : σ}
    {walk : Walk σ} (h : Walk.Finished engine config start walk) :
    (ofRecord config walk.record).Highlights config walk.record where
  nodes_eq := rfl
  visited_eq := rfl
  completed_eq := rfl
  completed_color := h.plain.completed
  example_eq := map_key_example config walk.record
  example_color := by
    intro edge hedge
    obtain ⟨known, -, rfl⟩ := List.mem_map.1 hedge
    rfl
  keys_eq := map_key_ofRecord config walk.record
  edge_color _ := color_ofRecord
  example_drawn _ :=
    isAmong_ofRecord fun path hpath => (h.turns.retelling.completed path hpath).recorded

/-! ## Equal up to colors -/

structure Twins (graph twin : Graph) : Prop where
  nodes_eq : twin.nodes = graph.nodes
  keys_eq : twin.edges.map Edge.key = graph.edges.map Edge.key
  completed_eq :
    twin.completedPaths.map (·.map Edge.key) = graph.completedPaths.map (·.map Edge.key)
  example_eq : twin.examplePath.map Edge.key = graph.examplePath.map Edge.key
  visited_eq : twin.statesVisited = graph.statesVisited

theorem twins_ofRecord {τ : Type} [Observable τ] {record : Record σ} {twin : Record τ}
    (h : record.Twins twin) (config other : Config) :
    (ofRecord config record).Twins (ofRecord other twin) where
  nodes_eq := h.nodes_eq
  keys_eq := by rw [map_key_ofRecord, map_key_ofRecord, h.keys_eq]
  completed_eq := h.completed_eq
  example_eq := by rw [map_key_example, map_key_example, h.first_eq]
  visited_eq := congrArg Int.ofNat h.size_eq

theorem build_eq_ok_iff {engine : Engine σ ε} {config : Config} {start : σ} {graph : Graph} :
    build engine config start = .ok graph ↔
      ∃ record, Walk.build engine config start = .ok record ∧ ofRecord config record = graph := by
  unfold build
  cases Walk.build engine config start <;> simp [Except.map]

/-- The graph of a walk highlights the first completed path, and other colors color the same
graph. -/
theorem build_highlights (engine : Engine σ ε) (config : Config) (start : σ) (graph : Graph)
    (h : build engine config start = .ok graph) :
    (∃ record, Walk.build engine config start = .ok record ∧
      graph.Highlights config record) ∧
    ∀ plain highlight, ∃ twin,
      build engine (config.recolor plain highlight) start = .ok twin ∧ graph.Twins twin := by
  obtain ⟨record, hbuild, rfl⟩ := build_eq_ok_iff.1 h
  constructor
  · obtain ⟨walk, hfinished, rfl⟩ := Walk.build_finished hbuild
    exact ⟨walk.record, hbuild, highlights_of_finished hfinished⟩
  · intro plain highlight
    obtain ⟨twin, htwin, htwins⟩ :=
      Walk.exists_build_twins engine.matches_self rfl rfl plain highlight hbuild
    exact ⟨_, build_eq_ok_iff.2 ⟨twin, htwin, rfl⟩, twins_ofRecord htwins config _⟩

theorem umbrella_highlights :
    ∃ graph, build (Rule.engine Story.umbrella.rules) {} Story.umbrella.manifest.startWorld =
        .ok graph ∧
      (∃ record, Walk.build (Rule.engine Story.umbrella.rules) {}
          Story.umbrella.manifest.startWorld = .ok record ∧ graph.Highlights {} record) ∧
      (∀ plain highlight, ∃ twin,
        build (Rule.engine Story.umbrella.rules) (Config.recolor {} plain highlight)
          Story.umbrella.manifest.startWorld = .ok twin ∧ graph.Twins twin) ∧
      graph.completedPaths = [Walk.umbrellaPath] ∧
      graph.examplePath.map Edge.color = ["red", "red"] := by
  obtain ⟨graph, hbuild, hcompleted, hcolors⟩ : ∃ graph,
      build (Rule.engine Story.umbrella.rules) {} Story.umbrella.manifest.startWorld =
        .ok graph ∧
      graph.completedPaths = [Walk.umbrellaPath] ∧
      graph.examplePath.map Edge.color = ["red", "red"] := ⟨_, rfl, by decide, by decide⟩
  obtain ⟨hhighlights, htwins⟩ := build_highlights _ _ _ graph hbuild
  exact ⟨graph, hbuild, hhighlights, htwins, hcompleted, hcolors⟩

end Graph

end Playthrough
