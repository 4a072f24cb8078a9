import Playthrough.Proofs.Growth
import Playthrough.Proofs.Run
import Playthrough.Walk.Step

/-!
# What a step does

Each of the five meanings has its own conditions on the outcome of the attempt.  All
that later modules need to know about a step is read off these conditions here.
-/

namespace Playthrough

variable {σ ε : Type} [Observable σ]

def Frame.edgeTo (config : Config) (frame : Frame σ) (rule : Text) : Edge :=
  ⟨frame.lastRule, rule, config.defaultColor⟩

def Frame.after (config : Config) (frame : Frame σ) (outcome : Outcome σ) : Frame σ :=
  match outcome.rule with
  | some rule => ⟨frame.path ++ [frame.edgeTo config rule], outcome.next, rule⟩
  | none => ⟨frame.path, outcome.next, frame.lastRule⟩

omit [Observable σ] in
theorem Frame.state_after (config : Config) (frame : Frame σ) (outcome : Outcome σ) :
    (frame.after config outcome).state = outcome.next := by
  unfold after
  cases outcome.rule <;> rfl

namespace Step

/-- Which step an outcome makes, by a walk with some record. -/
inductive Judged (config : Config) (record : Record σ) (frame : Frame σ) (entity : Text) :
    Outcome σ → Step σ → Prop
  | ending {next : σ} {rule : Text} (complete : (view next).isComplete = true) :
      Judged config record frame entity ⟨next, some rule⟩
        ⟨frame, entity, next, .ending (frame.edgeTo config rule)⟩
  | flavorLoop {next : σ} {rule : Text} (open_ : ¬ (view next).isComplete = true)
      (known : next ∈ record.visited) :
      Judged config record frame entity ⟨next, some rule⟩
        ⟨frame, entity, next, .flavorLoop (frame.edgeTo config rule)⟩
  | progress {next : σ} {rule : Text} (open_ : ¬ (view next).isComplete = true)
      (new : next ∉ record.visited) :
      Judged config record frame entity ⟨next, some rule⟩
        ⟨frame, entity, next, .progress (frame.edgeTo config rule)⟩
  | defaultLoop {next : σ} (known : next ∈ record.visited) :
      Judged config record frame entity ⟨next, none⟩ ⟨frame, entity, next, .defaultLoop⟩
  | defaultProgress {next : σ} (new : next ∉ record.visited) :
      Judged config record frame entity ⟨next, none⟩ ⟨frame, entity, next, .defaultProgress⟩

theorem judged_meaningOf (config : Config) (record : Record σ) (frame : Frame σ)
    (entity : Text) (outcome : Outcome σ) :
    Judged config record frame entity outcome
      ⟨frame, entity, outcome.next, meaningOf config record frame outcome⟩ := by
  obtain ⟨next, _ | rule⟩ := outcome
  · by_cases known : next ∈ record.visited
    · simpa [meaningOf, known] using Judged.defaultLoop known
    · simpa [meaningOf, known] using Judged.defaultProgress known
  · by_cases complete : (view next).isComplete = true
    · simpa [meaningOf, complete, Frame.edgeTo] using Judged.ending complete
    · by_cases known : next ∈ record.visited
      · simpa [meaningOf, complete, known, Frame.edgeTo] using Judged.flavorLoop complete known
      · simpa [meaningOf, complete, known, Frame.edgeTo] using Judged.progress complete known

theorem classify_eq_ok {engine : Engine σ ε} {config : Config} {record : Record σ}
    {frame : Frame σ} {entity : Text} {step : Step σ}
    (h : classify engine config record frame entity = .ok step) :
    ∃ outcome, engine.attempt entity frame.state = .ok outcome ∧
      Judged config record frame entity outcome step := by
  unfold classify at h
  cases hattempt : engine.attempt entity frame.state with
  | error fault => simp [hattempt, Except.map] at h
  | ok outcome =>
      simp only [hattempt, Except.map, Except.ok.injEq] at h
      subst h
      exact ⟨outcome, rfl, judged_meaningOf config record frame entity outcome⟩

theorem classify_eq_error {engine : Engine σ ε} {config : Config} {record : Record σ}
    {frame : Frame σ} {entity : Text} {fault : ε}
    (h : classify engine config record frame entity = .error fault) :
    engine.attempt entity frame.state = .error fault := by
  unfold classify at h
  cases hattempt : engine.attempt entity frame.state with
  | error other => simpa [hattempt, Except.map] using h
  | ok outcome => simp [hattempt, Except.map] at h

def interaction (step : Step σ) : Interaction σ :=
  ⟨step.frame.state, step.entity, step.next, step.rule?⟩

theorem grows_enter (config : Config) (step : Step σ) (record : Record σ) :
    record.Grows (step.enter config record) := by
  unfold enter
  cases step.meaning with
  | ending edge => exact (record.grows_addEdge edge).trans (Record.grows_complete _ _)
  | flavorLoop edge =>
      dsimp only
      split
      · exact record.grows_addEdge edge
      · exact .refl record
  | progress edge => exact (record.grows_addEdge edge).trans (Record.grows_visit _ _)
  | defaultLoop => exact .refl record
  | defaultProgress => exact record.grows_visit step.next

namespace Judged

variable {config : Config} {record : Record σ} {frame : Frame σ} {entity : Text}
  {outcome : Outcome σ} {step : Step σ}

theorem interaction_eq (h : Judged config record frame entity outcome step) :
    step.interaction = ⟨frame.state, entity, outcome⟩ := by
  cases h <;> rfl

/-- A state is recorded exactly when the walk goes on from it. -/
theorem states_enter (h : Judged config record frame entity outcome step) :
    (step.enter config record).visited.states =
      record.visited.states ++ (step.child?.map Frame.state).toList := by
  cases h with
  | ending complete => simp [enter, child?]
  | flavorLoop open_ known =>
      simp only [enter, child?]
      split <;> simp
  | progress open_ new => simp [enter, child?, Visited.states_add, new]
  | defaultLoop known => simp [enter, child?]
  | defaultProgress new => simp [enter, child?, Visited.states_add, new]

theorem child_eq_after (h : Judged config record frame entity outcome step)
    {child : Frame σ} (hchild : step.child? = some child) :
    child = frame.after config outcome := by
  cases h with
  | ending complete => cases hchild
  | flavorLoop open_ known => cases hchild
  | progress open_ new => cases hchild; rfl
  | defaultLoop known => cases hchild
  | defaultProgress new => cases hchild; rfl

theorem not_isEnding_of_child (h : Judged config record frame entity outcome step)
    {child : Frame σ} (hchild : step.child? = some child) : ¬ outcome.IsEnding := by
  cases h with
  | ending complete => cases hchild
  | flavorLoop open_ known => cases hchild
  | progress open_ new => exact fun hending => open_ hending.2
  | defaultLoop known => cases hchild
  | defaultProgress new => simp [Outcome.IsEnding]

theorem not_mem_visited_of_child (h : Judged config record frame entity outcome step)
    {child : Frame σ} (hchild : step.child? = some child) :
    outcome.next ∉ record.visited := by
  cases h with
  | ending complete => cases hchild
  | flavorLoop open_ known => cases hchild
  | progress open_ new => exact new
  | defaultLoop known => cases hchild
  | defaultProgress new => exact new

theorem next_mem_visited (h : Judged config record frame entity outcome step)
    (hopen : ¬ outcome.IsEnding) : outcome.next ∈ (step.enter config record).visited := by
  have hgrows := step.grows_enter config record
  cases h with
  | ending complete => exact absurd ⟨rfl, complete⟩ hopen
  | flavorLoop open_ known => exact hgrows.mem_visited known
  | progress open_ new => exact Visited.mem_add.2 (.inl rfl)
  | defaultLoop known => exact known
  | defaultProgress new => exact Visited.mem_add.2 (.inl rfl)

theorem completed_enter (h : Judged config record frame entity outcome step) :
    (step.enter config record).completed =
      record.completed ++
        if outcome.IsEnding then
          (outcome.rule.map fun rule => frame.path ++ [frame.edgeTo config rule]).toList
        else [] := by
  cases h with
  | ending complete => simp [enter, Outcome.IsEnding, complete]
  | flavorLoop open_ known =>
      simp only [enter, Outcome.IsEnding, open_]
      split <;> simp
  | progress open_ new => simp [enter, Outcome.IsEnding, open_]
  | defaultLoop known => simp [enter, Outcome.IsEnding]
  | defaultProgress new => simp [enter, Outcome.IsEnding]

theorem length_completed_enter (h : Judged config record frame entity outcome step) :
    (step.enter config record).completed.length =
      record.completed.length + if outcome.IsEnding then 1 else 0 := by
  rw [h.completed_enter, List.length_append]
  split
  · next hending =>
      obtain ⟨rule, hrule⟩ := Option.isSome_iff_exists.1 hending.1
      simp [hrule]
  · simp

theorem completes_enter (h : Judged config record frame entity outcome step)
    (hending : outcome.IsEnding) {rule : Text} (hrule : outcome.rule = some rule) :
    rule ∈ (step.enter config record).nodes ∧ (step.enter config record).Completes rule := by
  constructor
  · cases h with
    | ending complete =>
        cases hrule
        simp [enter, Frame.edgeTo]
    | flavorLoop open_ known => exact absurd hending.2 open_
    | progress open_ new => exact absurd hending.2 open_
    | defaultLoop known => simp at hrule
    | defaultProgress new => simp at hrule
  · refine ⟨frame.path ++ [frame.edgeTo config rule], ?_, frame.edgeTo config rule, ?_, rfl⟩
    · rw [h.completed_enter, if_pos hending, hrule]
      simp
    · simp

theorem mem_nodes_of_enter (h : Judged config record frame entity outcome step)
    {node : Text} (hnode : node ∈ (step.enter config record).nodes) :
    node ∈ record.nodes ∨ outcome.rule = some node := by
  cases h with
  | ending complete => simpa [enter, Frame.edgeTo, eq_comm] using hnode
  | flavorLoop open_ known =>
      simp only [enter] at hnode
      split at hnode
      · simpa [Frame.edgeTo, eq_comm] using hnode
      · exact .inl hnode
  | progress open_ new => simpa [enter, Frame.edgeTo, eq_comm] using hnode
  | defaultLoop known => exact .inl hnode
  | defaultProgress new => exact .inl hnode

theorem mem_edges_of_enter (h : Judged config record frame entity outcome step)
    {edge : Edge} (hedge : edge ∈ (step.enter config record).edges) :
    edge ∈ record.edges ∨ ∃ rule, outcome.rule = some rule ∧ edge = frame.edgeTo config rule ∧
      (outcome.IsEnding ∨ step.child?.isSome ∨ config.includeNonProgressing = true) := by
  have hadd : ∀ rule, edge ∈ (record.addEdge (frame.edgeTo config rule)).edges →
      outcome.rule = some rule →
      (outcome.IsEnding ∨ step.child?.isSome ∨ config.includeNonProgressing = true) →
      edge ∈ record.edges ∨ ∃ rule, outcome.rule = some rule ∧
        edge = frame.edgeTo config rule ∧
        (outcome.IsEnding ∨ step.child?.isSome ∨ config.includeNonProgressing = true) := by
    intro rule hmem hrule hkept
    exact (Record.mem_edges_addEdge hmem).imp_right fun heq => ⟨rule, hrule, heq, hkept⟩
  cases h with
  | ending complete => exact hadd _ hedge rfl (.inl ⟨rfl, complete⟩)
  | flavorLoop open_ known =>
      simp only [enter] at hedge
      split at hedge
      · next hflavor => exact hadd _ hedge rfl (.inr (.inr hflavor.1))
      · exact .inl hedge
  | progress open_ new => exact hadd _ hedge rfl (.inr (.inl rfl))
  | defaultLoop known => exact .inl hedge
  | defaultProgress new => exact .inl hedge

theorem rule_mem_nodes_enter (h : Judged config record frame entity outcome step)
    (hflag : config.includeNonProgressing = true) {rule : Text}
    (hrule : outcome.rule = some rule) : rule ∈ (step.enter config record).nodes := by
  cases h with
  | ending complete => cases hrule; simp [enter, Frame.edgeTo]
  | flavorLoop open_ known =>
      cases hrule
      by_cases hnode : rule ∈ record.nodes
      · simp [enter, Frame.edgeTo, hnode]
      · simp [enter, Frame.edgeTo, hnode, hflag]
  | progress open_ new => cases hrule; simp [enter, Frame.edgeTo]
  | defaultLoop known => simp at hrule
  | defaultProgress new => simp at hrule

end Judged

end Step

end Playthrough
