import Mathlib.Data.List.Basic
import Mathlib.Data.Prod.Basic
import Playthrough.Graph.Highlight

/-!
# Relabelled walks

The rules that an engine reports and the root are labels: they key the nodes and the edges of
a graph and mean nothing else.  With other labels, different ones for different rules, a walk
takes the same turns and comes to the same graph with the other labels on it.
-/

namespace Playthrough

variable {σ ε : Type} (names : Text → Text)

/-! ## Other labels -/

def Config.relabel (config : Config) : Config := { config with root := names config.root }

def Outcome.relabel (outcome : Outcome σ) : Outcome σ :=
  { outcome with rule := outcome.rule.map names }

def Engine.relabel (engine : Engine σ ε) : Engine σ ε :=
  { engine with attempt := fun entity state => (engine.attempt entity state).map (·.relabel names) }

/-- An edge keeps its color. -/
def Edge.relabel (edge : Edge) : Edge := ⟨names edge.source, names edge.target, edge.color⟩

def Frame.relabel (frame : Frame σ) : Frame σ :=
  ⟨frame.path.map (·.relabel names), frame.state, names frame.lastRule⟩

def OpenFrame.relabel (top : OpenFrame σ) : OpenFrame σ :=
  { top with frame := top.frame.relabel names }

def Meaning.relabel : Meaning → Meaning
  | .ending edge => .ending (edge.relabel names)
  | .flavorLoop edge => .flavorLoop (edge.relabel names)
  | .progress edge => .progress (edge.relabel names)
  | .defaultLoop => .defaultLoop
  | .defaultProgress => .defaultProgress

def Step.relabel (step : Step σ) : Step σ :=
  { step with frame := step.frame.relabel names, meaning := step.meaning.relabel names }

/-- The order in which a graph lists its parts stays, and so does the number of states. -/
def Graph.relabel (graph : Graph) : Graph where
  nodes := graph.nodes.map names
  edges := graph.edges.map (·.relabel names)
  completedPaths := graph.completedPaths.map (·.map (·.relabel names))
  examplePath := graph.examplePath.map (·.relabel names)
  statesVisited := graph.statesVisited

variable [Observable σ]

def Record.relabel (record : Record σ) : Record σ where
  visited := record.visited
  nodes := record.nodes.map names
  edges := record.edges.map (·.relabel names)
  completed := record.completed.map (·.map (·.relabel names))

def Walk.relabel (walk : Walk σ) : Walk σ where
  stack := walk.stack.map (·.relabel names)
  record := walk.record.relabel names
  history := walk.history.map (Prod.map (·.relabel names) (·.relabel names))

/-! ## Steps mean the same -/

namespace Step

theorem meaningOf_relabel (config : Config) (record : Record σ) (frame : Frame σ)
    (outcome : Outcome σ) :
    meaningOf (config.relabel names) (record.relabel names) (frame.relabel names)
        (outcome.relabel names) =
      (meaningOf config record frame outcome).relabel names := by
  obtain ⟨next, rule⟩ := outcome
  unfold meaningOf
  cases rule with
  | none =>
      rw [apply_ite (Meaning.relabel names)]
      rfl
  | some rule =>
      rw [apply_ite (Meaning.relabel names), apply_ite (Meaning.relabel names)]
      rfl

theorem classify_relabel (engine : Engine σ ε) (config : Config) (record : Record σ)
    (frame : Frame σ) (entity : Text) :
    classify (engine.relabel names) (config.relabel names) (record.relabel names)
        (frame.relabel names) entity =
      (classify engine config record frame entity).map (·.relabel names) := by
  unfold classify Engine.relabel
  change ((engine.attempt entity frame.state).map _).map _ = _
  cases engine.attempt entity frame.state with
  | error fault => rfl
  | ok outcome =>
      simp only [Except.map, meaningOf_relabel names]
      rfl

omit [Observable σ] in
theorem child?_relabel (step : Step σ) :
    (step.relabel names).child? = step.child?.map (·.relabel names) := by
  obtain ⟨frame, entity, next, meaning⟩ := step
  cases meaning <;> simp [child?, relabel, Meaning.relabel, Frame.relabel, Edge.relabel]

end Step

/-! ## Different rules keep different labels -/

variable {names} (hnames : Function.Injective names)
include hnames

theorem Edge.isAmong_relabel (edge : Edge) (edges : List Edge) :
    (edge.relabel names).isAmong (edges.map (·.relabel names)) = edge.isAmong edges := by
  have hkeys : (edges.map (·.relabel names)).map key =
      (edges.map key).map (Prod.map names names) := by
    simp [Function.comp_def, key, relabel]
  have hkey : (edge.relabel names).key = Prod.map names names edge.key := rfl
  rw [Bool.eq_iff_iff, isAmong_iff, isAmong_iff, hkeys, hkey,
    List.mem_map_of_injective (hnames.prodMap hnames)]

theorem Edge.enter_relabel (edge : Edge) (edges : List Edge) :
    (edge.relabel names).enter (edges.map (·.relabel names)) =
      (edge.enter edges).map (·.relabel names) := by
  unfold enter
  rw [isAmong_relabel hnames]
  split
  · rfl
  · rw [List.map_append, List.map_singleton]

namespace Record

theorem mem_nodes_relabel {node : Text} {record : Record σ} :
    names node ∈ (record.relabel names).nodes ↔ node ∈ record.nodes :=
  List.mem_map_of_injective hnames

theorem addNode_relabel (node : Text) (record : Record σ) :
    (record.relabel names).addNode (names node) = (record.addNode node).relabel names := by
  unfold addNode
  simp only [mem_nodes_relabel hnames]
  split
  · rfl
  · simp [relabel]

theorem addEdge_relabel (edge : Edge) (record : Record σ) :
    (record.relabel names).addEdge (edge.relabel names) =
      (record.addEdge edge).relabel names := by
  unfold addEdge
  rw [← addNode_relabel hnames]
  simp only [relabel, Edge.enter_relabel hnames]
  rfl

end Record

theorem Step.enter_relabel (config : Config) (step : Step σ) (record : Record σ) :
    (step.relabel names).enter (config.relabel names) (record.relabel names) =
      (step.enter config record).relabel names := by
  obtain ⟨frame, entity, next, meaning⟩ := step
  have hadd := fun edge => Record.addEdge_relabel hnames edge record
  cases meaning with
  | ending edge =>
      change ((record.relabel names).addEdge (edge.relabel names)).complete _ = _
      rw [hadd]
      simp [enter, Record.complete, Record.relabel, relabel, Frame.relabel]
  | flavorLoop edge =>
      have hmem : (edge.relabel names).target ∈ (record.relabel names).nodes ↔
          edge.target ∈ record.nodes := Record.mem_nodes_relabel hnames
      simp only [enter, relabel, Meaning.relabel, hadd, hmem]
      rw [apply_ite (Record.relabel names)]
      rfl
  | progress edge =>
      change ((record.relabel names).addEdge (edge.relabel names)).visit next = _
      rw [hadd]
      rfl
  | defaultLoop => rfl
  | defaultProgress => rfl

/-! ## Walks and graphs -/

namespace Walk

theorem advance_relabel (config : Config) (step : Step σ) (walk : Walk σ) :
    advance (config.relabel names) (step.relabel names) (walk.relabel names) =
      (advance config step walk).relabel names := by
  have henter : (step.relabel names).enter (config.relabel names) (walk.relabel names).record =
      (step.enter config walk.record).relabel names :=
    Step.enter_relabel hnames config step walk.record
  have hopen : ((step.relabel names).child?.map openFrame).toList =
      (step.child?.map openFrame).toList.map (·.relabel names) := by
    rw [Step.child?_relabel names]
    cases step.child? <;> rfl
  unfold advance
  rw [henter, hopen]
  simp [relabel]

theorem run_relabel (engine : Engine σ ε) (config : Config) (fuel : Nat) (walk : Walk σ) :
    run (engine.relabel names) (config.relabel names) fuel (walk.relabel names) =
      Prod.map (·.relabel names) id (run engine config fuel walk) := by
  induction fuel generalizing walk with
  | zero => simp [run, relabel]
  | succ fuel ih =>
      obtain ⟨stack, record, history⟩ := walk
      cases stack with
      | nil => rfl
      | cons top below =>
          obtain ⟨frame, pending⟩ := top
          cases pending with
          | nil => exact ih ⟨below, record, history⟩
          | cons entity pending =>
              have hwalk : relabel names ⟨⟨frame, entity :: pending⟩ :: below, record, history⟩ =
                  ⟨⟨frame.relabel names, entity :: pending⟩ :: below.map (·.relabel names),
                    record.relabel names,
                    history.map (Prod.map (·.relabel names) (·.relabel names))⟩ := rfl
              rw [hwalk]
              simp only [run, Step.classify_relabel]
              cases Step.classify engine config record frame entity with
              | error fault => rfl
              | ok step =>
                  simp only [Except.map]
                  rw [← ih, ← advance_relabel hnames]
                  rfl

theorem build_relabel (engine : Engine σ ε) (config : Config) (state : σ) :
    build (engine.relabel names) (config.relabel names) state =
      (build engine config state).map (·.relabel names) := by
  have hexplore : explore (engine.relabel names) (config.relabel names)
        ⟨[], state, (config.relabel names).root⟩ (.start state (config.relabel names).root) =
      Prod.map (·.relabel names) id
        (explore engine config ⟨[], state, config.root⟩ (.start state config.root)) :=
    run_relabel hnames engine config (engine.budget state)
      (start ⟨[], state, config.root⟩ (.start state config.root))
  unfold build
  rw [hexplore]
  cases explore engine config ⟨[], state, config.root⟩ (.start state config.root) with
  | mk walk stop => cases stop <;> rfl

end Walk

theorem Graph.ofRecord_relabel (config : Config) (record : Record σ) :
    ofRecord (config.relabel names) (record.relabel names) =
      (ofRecord config record).relabel names := by
  have hfirst : (record.relabel names).completed.head?.getD [] =
      (record.completed.head?.getD []).map (·.relabel names) := by
    unfold Record.relabel
    cases record.completed <;> rfl
  have hedge : ∀ edge : Edge, ∀ first : List Edge,
      (edge.relabel names).recolor
          (if (edge.relabel names).isAmong (first.map (·.relabel names))
            then config.highlightColor else config.defaultColor) =
        (edge.recolor (if edge.isAmong first then config.highlightColor
          else config.defaultColor)).relabel names := by
    intro edge first
    rw [Edge.isAmong_relabel hnames]
    rfl
  unfold ofRecord
  rw [hfirst]
  simp only [relabel, Record.relabel, List.map_map, Graph.mk.injEq, true_and, and_true]
  exact ⟨List.map_congr_left fun edge _ => hedge edge _, List.map_congr_left fun _ _ => rfl⟩

theorem Graph.build_relabel (engine : Engine σ ε) (config : Config) (state : σ) :
    build (engine.relabel names) (config.relabel names) state =
      (build engine config state).map (·.relabel names) := by
  unfold build
  rw [Walk.build_relabel hnames]
  cases Walk.build engine config state with
  | error stop => rfl
  | ok record => exact congrArg Except.ok (ofRecord_relabel hnames config record)

end Playthrough
