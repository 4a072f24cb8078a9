import Playthrough.Proofs.Acceptance
import Playthrough.Proofs.Trail

/-!
# Rooted graphs

The nodes of a graph are the root and the targets of its edges.  An edge starts at the
last rule of a frame, which is the root or has been a target before, so every node can be
reached from the root.  And an edge says no more than it should: on some run its target
fires directly after its source.
-/

namespace Playthrough

variable {σ ε : Type} [Observable σ]

/-! ## First occurrences -/

theorem eraseDups_snoc (ids : List Text) (id : Text) :
    (ids ++ [id]).eraseDups =
      if id ∈ ids then ids.eraseDups else ids.eraseDups ++ [id] := by
  rw [List.eraseDups_append]
  split
  · next h => simp [List.removeAll, h]
  · next h => simp [List.removeAll, h, List.eraseDups_cons]

namespace Record

variable {record : Record σ} {root : Text}

theorem nodes_addEdge (edge : Edge) (record : Record σ) :
    (record.addEdge edge).nodes =
      if edge.target ∈ record.nodes then record.nodes else record.nodes ++ [edge.target] := by
  unfold addEdge addNode
  split <;> rfl

def Leads (record : Record σ) (source target : Text) : Prop :=
  ∃ edge ∈ record.edges, edge.source = source ∧ edge.target = target

theorem Grows.leads {before after : Record σ} (h : before.Grows after)
    {source target : Text} (hleads : before.Leads source target) :
    after.Leads source target := by
  obtain ⟨edge, hedge, hends⟩ := hleads
  exact ⟨edge, h.edges.subset hedge, hends⟩

/-- The nodes are the root and what the edges lead to, in the order in which they come
first, and every node can be reached from the root. -/
structure Rooted (record : Record σ) (root : Text) : Prop where
  nodes_eq : record.nodes = (root :: record.edges.map Edge.target).eraseDups
  distinct : (record.edges.map Edge.key).Nodup
  source_mem : ∀ edge ∈ record.edges, edge.source ∈ record.nodes
  reachable : ∀ node ∈ record.nodes, Relation.ReflTransGen record.Leads root node

theorem rooted_start (state : σ) (root : Text) : (start state root).Rooted root where
  nodes_eq := rfl
  distinct := List.nodup_nil
  source_mem := by simp [start]
  reachable := by
    intro node hnode
    rw [List.mem_singleton.1 hnode]

theorem Rooted.mem_nodes_iff (h : record.Rooted root) {node : Text} :
    node ∈ record.nodes ↔ node = root ∨ node ∈ record.edges.map Edge.target := by
  rw [h.nodes_eq, List.mem_eraseDups, List.mem_cons]

theorem Rooted.mem_nodes_iff_of_keys {τ : Type} [Observable τ] {other : Record τ}
    (h : record.Rooted root) (hother : other.Rooted root)
    (hkeys : ∀ pair, pair ∈ other.edges.map Edge.key ↔ pair ∈ record.edges.map Edge.key)
    (node : Text) : node ∈ other.nodes ↔ node ∈ record.nodes := by
  have htargets : ∀ edges : List Edge,
      edges.map Edge.target = (edges.map Edge.key).map Prod.snd := by simp [Edge.key]
  rw [h.mem_nodes_iff, hother.mem_nodes_iff, htargets, htargets, List.mem_map, List.mem_map]
  simp only [hkeys]

theorem Rooted.target_mem (h : record.Rooted root) {edge : Edge}
    (hedge : edge.key ∈ record.edges.map Edge.key) : edge.target ∈ record.nodes := by
  obtain ⟨known, hknown, hkey⟩ := List.mem_map.1 hedge
  refine h.mem_nodes_iff.2 (.inr ?_)
  rw [show edge.target = known.target from (congrArg Prod.snd hkey).symm]
  exact List.mem_map_of_mem hknown

/-! ## Adding an edge -/

theorem leads_addEdge (edge : Edge) (record : Record σ) :
    (record.addEdge edge).Leads edge.source edge.target := by
  obtain ⟨known, hknown, hkey⟩ := List.mem_map.1 (record.key_mem_edges_addEdge edge)
  exact ⟨known, hknown, congrArg Prod.fst hkey, congrArg Prod.snd hkey⟩

theorem Rooted.nodes_addEdge_eq (h : record.Rooted root) (edge : Edge) :
    (record.addEdge edge).nodes =
      (root :: (record.addEdge edge).edges.map Edge.target).eraseDups := by
  rw [nodes_addEdge, edges_addEdge]
  unfold Edge.enter
  by_cases hknown : edge.isAmong record.edges = true
  · rw [if_pos hknown, if_pos (h.target_mem (Edge.isAmong_iff.1 hknown)), h.nodes_eq]
  · have hmem : edge.target ∈ record.nodes ↔
        edge.target ∈ root :: record.edges.map Edge.target := by
      rw [h.nodes_eq, List.mem_eraseDups]
    rw [if_neg hknown, List.map_append, List.map_singleton, ← List.cons_append,
      eraseDups_snoc, ← h.nodes_eq]
    simp only [hmem]

theorem Rooted.addEdge (h : record.Rooted root) {edge : Edge}
    (hsource : edge.source ∈ record.nodes) : (record.addEdge edge).Rooted root where
  nodes_eq := h.nodes_addEdge_eq edge
  distinct := by
    rw [edges_addEdge]
    exact Edge.nodup_enter h.distinct
  source_mem := by
    intro other hother
    rw [mem_nodes_addEdge]
    rcases mem_edges_addEdge hother with hold | rfl
    · exact .inl (h.source_mem other hold)
    · exact .inl hsource
  reachable := by
    have hgrows := record.grows_addEdge edge
    have hold : ∀ node ∈ record.nodes,
        Relation.ReflTransGen (record.addEdge edge).Leads root node := fun node hnode =>
      (h.reachable node hnode).lift id fun _ _ => hgrows.leads
    intro node hnode
    rcases mem_nodes_addEdge.1 hnode with hknown | rfl
    · exact hold node hknown
    · exact (hold _ hsource).tail (record.leads_addEdge edge)

theorem Rooted.visit (h : record.Rooted root) (state : σ) : (record.visit state).Rooted root :=
  ⟨h.nodes_eq, h.distinct, h.source_mem, h.reachable⟩

theorem Rooted.complete (h : record.Rooted root) (path : List Edge) :
    (record.complete path).Rooted root :=
  ⟨h.nodes_eq, h.distinct, h.source_mem, h.reachable⟩

end Record

/-! ## The whole walk -/

theorem Frame.Retells.lastRule_mem {engine : Engine σ ε} {root : Text} {start : σ}
    {record : Record σ} {frame : Frame σ} (h : frame.Retells engine root start record)
    (hrooted : record.Rooted root) : frame.lastRule ∈ record.nodes := by
  have hlast : frame.lastRule ∈ root :: frame.path.map Edge.target := by
    rw [← h.chained]
    simp
  rcases List.mem_cons.1 hlast with hroot | htarget
  · exact hrooted.mem_nodes_iff.2 (.inl hroot)
  · obtain ⟨edge, hedge, heq⟩ := List.mem_map.1 htarget
    rw [← heq]
    exact hrooted.target_mem (h.recorded edge hedge)

namespace Step.Judged

variable {config : Config} {record : Record σ} {frame : Frame σ} {entity : Text}
  {outcome : Outcome σ} {step : Step σ} {root : Text}

theorem rooted_enter (h : Judged config record frame entity outcome step)
    (hrooted : record.Rooted root) (hlast : frame.lastRule ∈ record.nodes) :
    (step.enter config record).Rooted root := by
  have hadd : ∀ rule, (record.addEdge (frame.edgeTo config rule)).Rooted root :=
    fun rule => hrooted.addEdge hlast
  cases h with
  | ending complete => exact (hadd _).complete _
  | flavorLoop open_ known =>
      simp only [enter]
      split
      · exact hadd _
      · exact hrooted
  | progress open_ new => exact (hadd _).visit _
  | defaultLoop known => exact hrooted
  | defaultProgress new => exact hrooted.visit _

end Step.Judged

theorem Walk.Turn.rooted {engine : Engine σ ε} {config : Config} {start : σ}
    {walk after : Walk σ} (turn : Turn engine config walk after)
    (hretelling : Retelling engine config start walk)
    (h : walk.record.Rooted config.root) : after.record.Rooted config.root := by
  cases turn with
  | leave => exact h
  | attempt answer judged =>
      exact judged.rooted_enter h ((hretelling.frames _ List.mem_cons_self).lastRule_mem h)

theorem Walk.Turns.rooted {engine : Engine σ ε} {config : Config} {start : σ} {walk : Walk σ}
    (turns : Turns engine config (fresh config start) walk) :
    walk.record.Rooted config.root :=
  turns.keeps_along (fun _ _ turns turn => turn.rooted turns.retelling)
    (Record.rooted_start start config.root)

/-! ## Edges on runs -/

/-- On some run one rule fires directly after another.  Nothing but the start stands
before the first rule. -/
def Engine.Follows (engine : Engine σ ε) (root : Text) (start : σ) (source target : Text) :
    Prop :=
  ∃ taken last state, engine.Run start (taken ++ [last]) state ∧
    last.outcome.rule = some target ∧ lastFired root taken = source

theorem Engine.Occurs.follows {engine : Engine σ ε} {root : Text} {start : σ}
    {pair : Text × Text} (h : engine.Occurs root start pair) :
    engine.Follows root start pair.1 pair.2 := by
  obtain ⟨taken, last, hfires⟩ := h
  exact ⟨taken, last, _, hfires.direct.run.step hfires.answers, hfires.rule_eq,
    hfires.source_eq⟩

/-! ## Graphs of rules -/

namespace Rule

theorem exists_summary_of_fired {rules : List Rule} {entity fired : Text} {world : World}
    {outcome : Outcome World} (h : (engine rules).attempt entity world = .ok outcome)
    (hrule : outcome.rule = some fired) : ∃ rule ∈ rules, rule.summary = fired := by
  obtain ⟨-, rule, hmem, hsummary, -⟩ := attempt_fired h hrule
  exact ⟨rule, hmem, hsummary⟩

theorem exists_summary_of_follows {rules : List Rule} {root source target : Text}
    {start : World} (h : (engine rules).Follows root start source target) :
    ∃ rule ∈ rules, rule.summary = target := by
  obtain ⟨taken, last, state, hrun, hrule, -⟩ := h
  obtain ⟨-, hanswers, -⟩ := Engine.run_snoc_iff.1 hrun
  exact exists_summary_of_fired hanswers.2 hrule

/-- The graph of a walk by rules is rooted and its edges are real.  If the rules are those
of an accepted story, nothing leads back to the root, and the other nodes are rules. -/
theorem build_rooted (rules : List Rule) (config : Config) (start : World)
    (record : Record World) (h : Walk.build (engine rules) config start = .ok record) :
    record.Rooted config.root ∧
    (∀ edge ∈ record.edges,
      (engine rules).Follows config.root start edge.source edge.target) ∧
    ∀ (document : Json) (story : Story),
      Story.load document config.root = .ok story → story.rules = rules →
      (∀ edge ∈ record.edges, edge.target ≠ config.root) ∧
      ∀ node ∈ record.nodes, node ≠ config.root → ∃ rule ∈ story.rules, rule.summary = node := by
  obtain ⟨walk, hfinished, rfl⟩ := Walk.build_finished h
  have hrooted := hfinished.turns.rooted
  have hreal : ∀ edge ∈ walk.record.edges,
      (engine rules).Follows config.root start edge.source edge.target := fun edge hedge =>
    (hfinished.turns.tracing.fired edge hedge).follows
  refine ⟨hrooted, hreal, ?_⟩
  rintro document story hload rfl
  have hfired : ∀ edge ∈ walk.record.edges, ∃ rule ∈ story.rules, rule.summary = edge.target :=
    fun edge hedge => exists_summary_of_follows (hreal edge hedge)
  constructor
  · intro edge hedge
    obtain ⟨rule, hrule, hsummary⟩ := hfired edge hedge
    rw [← hsummary]
    exact ((Story.consistent_of_load hload).rules_consistent rule hrule).summary_ne_root
  · intro node hnode hroot
    obtain ⟨edge, hedge, rfl⟩ :=
      List.mem_map.1 ((hrooted.mem_nodes_iff.1 hnode).resolve_left hroot)
    exact hfired edge hedge

theorem umbrella_rooted :
    ∃ record, Walk.build (engine Story.umbrella.rules) {}
        Story.umbrella.manifest.startWorld = .ok record ∧
      Story.load Story.umbrella.toJson "Begining" = .ok Story.umbrella ∧
      record.Rooted "Begining" ∧
      (∀ edge ∈ record.edges, (engine Story.umbrella.rules).Follows "Begining"
        Story.umbrella.manifest.startWorld edge.source edge.target) ∧
      (∀ edge ∈ record.edges, edge.target ≠ "Begining") ∧
      (∀ node ∈ record.nodes, node ≠ "Begining" →
        ∃ rule ∈ Story.umbrella.rules, rule.summary = node) ∧
      record.nodes = ["Begining", "TakeUmbrella", "GoOut"] ∧
      record.edges = Walk.umbrellaPath := by
  have hload : Story.load Story.umbrella.toJson "Begining" = .ok Story.umbrella := by
    decide +kernel
  obtain ⟨record, hbuild, hnodes, hedges⟩ : ∃ record,
      Walk.build (engine Story.umbrella.rules) {} Story.umbrella.manifest.startWorld =
        .ok record ∧
      record.nodes = ["Begining", "TakeUmbrella", "GoOut"] ∧
      record.edges = Walk.umbrellaPath := ⟨_, rfl, by decide, by decide⟩
  obtain ⟨hrooted, hreal, hstory⟩ := build_rooted Story.umbrella.rules {}
    Story.umbrella.manifest.startWorld record hbuild
  obtain ⟨hfresh, hrules⟩ := hstory _ Story.umbrella hload rfl
  exact ⟨record, hbuild, hload, hrooted, hreal, hfresh, hrules, hnodes, hedges⟩

end Rule

end Playthrough
