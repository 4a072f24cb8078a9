import Mathlib.Data.List.Nodup
import Playthrough.Proofs.Naming
import Playthrough.Proofs.Saturation

/-!
# Flavor as leaves

With flavor in the graph a walk does what it does without it: it tries the same things in
the same order, meets the same states and completes the same playthroughs.  The two
records differ by the edges to flavor, and no two of these lead to the same rule.
-/

namespace Playthrough

variable {σ ε : Type} [Observable σ]

def Config.flavored (config : Config) (flag : Bool) : Config :=
  { config with includeNonProgressing := flag }

theorem Config.flavored_eq_self (config : Config) :
    config.flavored false = config ∨ config.flavored true = config := by
  obtain ⟨flag, _, _, _⟩ := config
  cases flag with
  | false => exact .inl rfl
  | true => exact .inr rfl

/-! ## Records that differ by leaves -/

namespace Record

theorem mem_keys_addEdge {edge : Edge} {record : Record σ} {pair : Text × Text} :
    pair ∈ (record.addEdge edge).edges.map Edge.key ↔
      pair ∈ record.edges.map Edge.key ∨ pair = edge.key := by
  rw [edges_addEdge, Edge.map_key_enter]
  split
  · next hmem =>
      refine ⟨Or.inl, fun h => h.elim id ?_⟩
      rintro rfl
      exact hmem
  · simp

/-- A record has what another one has, and beyond that only edges to different rules. -/
structure Leaves (plain flavored : Record σ) : Prop where
  visited_eq : plain.visited = flavored.visited
  completed_eq : plain.completed = flavored.completed
  nodes : ∀ node ∈ plain.nodes, node ∈ flavored.nodes
  keys : ∀ pair ∈ plain.edges.map Edge.key, pair ∈ flavored.edges.map Edge.key
  target_mem : ∀ edge ∈ flavored.edges, edge.target ∈ flavored.nodes
  distinct : (flavored.edges.map Edge.key).Nodup
  apart : ∀ edge ∈ flavored.edges, ∀ other ∈ flavored.edges,
    edge.key ∉ plain.edges.map Edge.key → other.key ∉ plain.edges.map Edge.key →
    edge.target = other.target → edge = other

namespace Leaves

theorem start (state : σ) (root : Text) :
    (Record.start state root).Leaves (Record.start state root) where
  visited_eq := rfl
  completed_eq := rfl
  nodes _ hnode := hnode
  keys _ hpair := hpair
  target_mem := by simp [Record.start]
  distinct := List.nodup_nil
  apart := by simp [Record.start]

variable {plain flavored : Record σ}

theorem target_mem_addEdge (h : plain.Leaves flavored) (edge : Edge) :
    ∀ other ∈ (flavored.addEdge edge).edges, other.target ∈ (flavored.addEdge edge).nodes := by
  intro other hother
  rw [mem_nodes_addEdge]
  exact (mem_edges_addEdge hother).imp (h.target_mem other) (congrArg Edge.target)

theorem distinct_addEdge (h : plain.Leaves flavored) (edge : Edge) :
    ((flavored.addEdge edge).edges.map Edge.key).Nodup := by
  rw [edges_addEdge]
  exact Edge.nodup_enter h.distinct

theorem addEdge (h : plain.Leaves flavored) (edge : Edge) :
    (plain.addEdge edge).Leaves (flavored.addEdge edge) where
  visited_eq := by simpa using h.visited_eq
  completed_eq := by simpa using h.completed_eq
  nodes node hnode := by
    rw [mem_nodes_addEdge] at hnode ⊢
    exact hnode.imp_left (h.nodes node)
  keys pair hpair := by
    rw [mem_keys_addEdge] at hpair ⊢
    exact hpair.imp_left (h.keys pair)
  target_mem := h.target_mem_addEdge edge
  distinct := h.distinct_addEdge edge
  apart := by
    -- the edge itself is in both records, so only older edges can be apart
    have hold : ∀ other ∈ (flavored.addEdge edge).edges,
        other.key ∉ (plain.addEdge edge).edges.map Edge.key →
        other ∈ flavored.edges ∧ other.key ∉ plain.edges.map Edge.key := by
      intro other hother hnot
      rw [mem_keys_addEdge, not_or] at hnot
      refine ⟨(mem_edges_addEdge hother).resolve_right fun heq => hnot.2 ?_, hnot.1⟩
      rw [heq]
    intro first hfirst second hsecond hfirstNot hsecondNot
    obtain ⟨hfirst, hfirstNot⟩ := hold first hfirst hfirstNot
    obtain ⟨hsecond, hsecondNot⟩ := hold second hsecond hsecondNot
    exact h.apart first hfirst second hsecond hfirstNot hsecondNot

theorem addLeaf (h : plain.Leaves flavored) {edge : Edge}
    (hnew : edge.target ∉ flavored.nodes) : plain.Leaves (flavored.addEdge edge) where
  visited_eq := by simpa using h.visited_eq
  completed_eq := by simpa using h.completed_eq
  nodes node hnode := mem_nodes_addEdge.2 (.inl (h.nodes node hnode))
  keys pair hpair := mem_keys_addEdge.2 (.inl (h.keys pair hpair))
  target_mem := h.target_mem_addEdge edge
  distinct := h.distinct_addEdge edge
  apart := by
    have hother : ∀ other ∈ flavored.edges, other.target ≠ edge.target := fun other hother heq =>
      hnew (heq ▸ h.target_mem other hother)
    intro first hfirst second hsecond hfirstNot hsecondNot htarget
    rcases mem_edges_addEdge hfirst with hfirst | hfirst
    · rcases mem_edges_addEdge hsecond with hsecond | hsecond
      · exact h.apart first hfirst second hsecond hfirstNot hsecondNot htarget
      · exact absurd (htarget.trans (congrArg Edge.target hsecond)) (hother first hfirst)
    · rcases mem_edges_addEdge hsecond with hsecond | hsecond
      · exact absurd (htarget.symm.trans (congrArg Edge.target hfirst)) (hother second hsecond)
      · exact hfirst.trans hsecond.symm

theorem visit (h : plain.Leaves flavored) (state : σ) :
    (plain.visit state).Leaves (flavored.visit state) where
  visited_eq := by simp [h.visited_eq]
  completed_eq := h.completed_eq
  nodes := h.nodes
  keys := h.keys
  target_mem := h.target_mem
  distinct := h.distinct
  apart := h.apart

theorem complete (h : plain.Leaves flavored) (path : List Edge) :
    (plain.complete path).Leaves (flavored.complete path) where
  visited_eq := h.visited_eq
  completed_eq := by simp [h.completed_eq]
  nodes := h.nodes
  keys := h.keys
  target_mem := h.target_mem
  distinct := h.distinct
  apart := h.apart

theorem enter (h : plain.Leaves flavored) (config : Config) (step : Step σ) :
    (step.enter (config.flavored false) plain).Leaves
      (step.enter (config.flavored true) flavored) := by
  unfold Step.enter
  cases step.meaning with
  | ending edge => exact (h.addEdge edge).complete _
  | flavorLoop edge =>
      have hoff : ¬((config.flavored false).includeNonProgressing = true ∧
          edge.target ∉ plain.nodes) := fun hand => Bool.false_ne_true hand.1
      dsimp only
      rw [if_neg hoff]
      split
      · next hflavor => exact h.addLeaf hflavor.2
      · exact h
  | progress edge => exact (h.addEdge edge).visit _
  | defaultLoop => exact h
  | defaultProgress => exact h.visit _

theorem nodup_targets (h : plain.Leaves flavored) :
    ((flavored.edges.filter fun edge => !edge.isAmong plain.edges).map Edge.target).Nodup := by
  refine List.Nodup.map_on ?_ (h.distinct.of_map.filter _)
  intro edge hedge other hother htarget
  simp only [List.mem_filter, Bool.not_eq_true', Bool.eq_false_iff, ne_eq,
    Edge.isAmong_iff] at hedge hother
  exact h.apart edge hedge.1 other hother.1 hedge.2 hother.2 htarget

end Leaves

end Record

/-! ## Walks side by side -/

/-- What a step means does not depend on nodes and edges. -/
theorem Step.classify_flavored (engine : Engine σ ε) (config : Config) (frame : Frame σ)
    (entity : Text) {plain flavored : Record σ} (h : plain.visited = flavored.visited) :
    classify engine (config.flavored true) flavored frame entity =
      classify engine (config.flavored false) plain frame entity := by
  unfold classify meaningOf
  rw [h]
  rfl

namespace Walk

/-- Two walks have taken the same steps, and have the same ones before them. -/
structure Abreast (plain flavored : Walk σ) : Prop where
  stack_eq : plain.stack = flavored.stack
  steps_eq : plain.steps = flavored.steps
  leaves : plain.record.Leaves flavored.record

theorem abreast_start (frame : Frame σ) (state : σ) (root : Text) :
    Abreast (start frame (.start state root)) (start frame (.start state root)) :=
  ⟨rfl, rfl, .start state root⟩

theorem Abreast.advance {plain flavored : Walk σ} (h : Abreast plain flavored)
    (config : Config) (step : Step σ) :
    Abreast (plain.advance (config.flavored false) step)
      (flavored.advance (config.flavored true) step) where
  stack_eq := congrArg ((step.child?.map openFrame).toList ++ ·) h.stack_eq
  steps_eq := by simp [h.steps_eq]
  leaves := h.leaves.enter config step

theorem Abreast.run (engine : Engine σ ε) (config : Config) (fuel : Nat)
    {plain flavored : Walk σ} (h : Abreast plain flavored) :
    Abreast (run engine (config.flavored false) fuel plain).1
        (run engine (config.flavored true) fuel flavored).1 ∧
      (run engine (config.flavored false) fuel plain).2 =
        (run engine (config.flavored true) fuel flavored).2 := by
  induction fuel generalizing plain flavored with
  | zero => exact ⟨h, by simp only [Walk.run, h.stack_eq]⟩
  | succ fuel ih =>
      obtain ⟨stack, plain, plainHistory⟩ := plain
      obtain ⟨other, flavored, flavoredHistory⟩ := flavored
      obtain rfl : stack = other := h.stack_eq
      cases stack with
      | nil => exact ⟨h, rfl⟩
      | cons top below =>
          obtain ⟨frame, pending⟩ := top
          cases pending with
          | nil => exact ih ⟨rfl, h.steps_eq, h.leaves⟩
          | cons entity pending =>
              have hstep := Step.classify_flavored engine config frame entity
                h.leaves.visited_eq
              simp only [Walk.run, hstep]
              cases Step.classify engine (config.flavored false) plain frame entity with
              | error fault => exact ⟨h, rfl⟩
              | ok step =>
                  have hleft : Abreast ⟨⟨frame, pending⟩ :: below, plain, plainHistory⟩
                      ⟨⟨frame, pending⟩ :: below, flavored, flavoredHistory⟩ :=
                    ⟨rfl, h.steps_eq, h.leaves⟩
                  exact ih (hleft.advance config step)

/-- Flavor changes what is drawn, not where the walk goes. -/
structure AddsLeaves (config : Config) (plain flavored : Walk σ) : Prop where
  attempted : plain.interactions = flavored.interactions
  visited : plain.record.visited.states = flavored.record.visited.states
  completed : plain.record.completed = flavored.record.completed
  nodes : ∀ node ∈ plain.record.nodes, node ∈ flavored.record.nodes
  edges : ∀ edge ∈ plain.record.edges, edge.isAmong flavored.record.edges
  named : ∀ node, node ∈ flavored.record.nodes ↔ node = config.root ∨
    ∃ interaction ∈ flavored.interactions, interaction.outcome.rule = some node
  apart : ((flavored.record.edges.filter fun edge => !edge.isAmong plain.record.edges).map
    Edge.target).Nodup

theorem Abreast.addsLeaves {plain flavored : Walk σ} {config : Config}
    (h : Abreast plain flavored) (hnaming : Naming (config.flavored true) flavored) :
    AddsLeaves config plain flavored where
  attempted := by rw [interactions_eq, interactions_eq, h.steps_eq]
  visited := congrArg Visited.states h.leaves.visited_eq
  completed := h.leaves.completed_eq
  nodes := h.leaves.nodes
  edges edge hedge := Edge.isAmong_iff.2 (h.leaves.keys _ (List.mem_map_of_mem hedge))
  named node := by
    refine ⟨hnaming.fired node, ?_⟩
    rintro (rfl | ⟨interaction, hinteraction, hrule⟩)
    · exact hnaming.root_mem
    · exact hnaming.flavored rfl interaction hinteraction node hrule
  apart := h.leaves.nodup_targets

theorem abreast_explore (engine : Engine σ ε) (config : Config) (frame : Frame σ) (state : σ)
    (root : Text) :
    Abreast (explore engine (config.flavored false) frame (.start state root)).1
        (explore engine (config.flavored true) frame (.start state root)).1 ∧
      (explore engine (config.flavored false) frame (.start state root)).2 =
        (explore engine (config.flavored true) frame (.start state root)).2 :=
  (abreast_start frame state root).run engine config (engine.budget frame.state)

/-- A walk that comes to its end with flavor makes the same attempts without it. -/
theorem Finished.flavored {engine : Engine σ ε} {config : Config} {start : σ} {walk : Walk σ}
    (h : Finished engine (config.flavored true) start walk) (flag : Bool) :
    ∃ other, Finished engine (config.flavored flag) start other ∧
      other.interactions = walk.interactions := by
  cases flag with
  | true => exact ⟨walk, h, rfl⟩
  | false =>
      obtain ⟨habreast, hstop⟩ :=
        abreast_explore engine config ⟨[], start, config.root⟩ start config.root
      have hexplored : explore engine (config.flavored true) ⟨[], start, config.root⟩
          (.start start config.root) = (walk, none) := h.explored
      rw [hexplored] at habreast hstop
      refine ⟨_, finished_of_explore (Prod.ext rfl hstop), ?_⟩
      rw [interactions_eq, interactions_eq]
      exact congrArg _ habreast.steps_eq

/-- The same walk is told with and without its flavor. -/
theorem build_flavored (engine : Engine σ ε) (config : Config) (start : σ)
    (record : Record σ) (h : build engine config start = .ok record) :
    ∃ plain flavored, Finished engine (config.flavored false) start plain ∧
      Finished engine (config.flavored true) start flavored ∧
      AddsLeaves config plain flavored := by
  obtain ⟨walk, hfinished, -⟩ := build_finished h
  have hnone := congrArg Prod.snd hfinished.explored
  obtain ⟨habreast, hstop⟩ :=
    abreast_explore engine config ⟨[], start, config.root⟩ start config.root
  -- one of the two walks is the one that came to its end
  have hboth : (explore engine (config.flavored false) ⟨[], start, config.root⟩
        (.start start config.root)).2 = none ∧
      (explore engine (config.flavored true) ⟨[], start, config.root⟩
        (.start start config.root)).2 = none := by
    rcases config.flavored_eq_self with hself | hself
    · rw [← hstop, hself]
      exact ⟨hnone, hnone⟩
    · rw [hstop, hself]
      exact ⟨hnone, hnone⟩
  have hplain := finished_of_explore (Prod.ext rfl hboth.1)
  have hflavored := finished_of_explore (Prod.ext rfl hboth.2)
  exact ⟨_, _, hplain, hflavored, habreast.addsLeaves hflavored.naming⟩

def lookAround : Rule where
  summary := "LookAround"
  trigger := "Home"
  preconditions := []
  effects := []
  priority := 0

theorem lookAround_flavored :
    ∃ record, build (Rule.engine (lookAround :: Story.umbrella.rules)) {}
        Story.umbrella.manifest.startWorld = .ok record ∧
      ∃ plain flavored,
        Finished (Rule.engine (lookAround :: Story.umbrella.rules))
          (Config.flavored {} false) Story.umbrella.manifest.startWorld plain ∧
        Finished (Rule.engine (lookAround :: Story.umbrella.rules))
          (Config.flavored {} true) Story.umbrella.manifest.startWorld flavored ∧
        AddsLeaves {} plain flavored ∧
        plain.record.nodes = ["Begining", "TakeUmbrella", "GoOut"] ∧
        flavored.record.nodes = ["Begining", "TakeUmbrella", "LookAround", "GoOut"] ∧
        flavored.record.edges.filter (fun edge => !edge.isAmong plain.record.edges) =
          [⟨"TakeUmbrella", "LookAround", "black"⟩] := by
  obtain ⟨record, hbuild⟩ : ∃ record,
      build (Rule.engine (lookAround :: Story.umbrella.rules)) {}
        Story.umbrella.manifest.startWorld = .ok record := ⟨_, rfl⟩
  obtain ⟨plain, flavored, hplain, hflavored, hleaves⟩ := build_flavored _ _ _ record hbuild
  refine ⟨record, hbuild, plain, flavored, hplain, hflavored, hleaves, ?_, ?_, ?_⟩
  · rw [← hplain.fst_explore]
    decide
  · rw [← hflavored.fst_explore]
    decide
  · rw [← hplain.fst_explore, ← hflavored.fst_explore]
    decide

end Walk

end Playthrough
