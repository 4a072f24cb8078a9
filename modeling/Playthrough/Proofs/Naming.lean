import Playthrough.Proofs.Turn

/-!
# Nodes

A node is the root or a rule that fired somewhere on the walk.  With flavor in the
graph, every rule that fired is a node.
-/

namespace Playthrough.Walk

variable {σ ε : Type} [Observable σ]

structure Naming (config : Config) (walk : Walk σ) : Prop where
  root_mem : config.root ∈ walk.record.nodes
  fired : ∀ node ∈ walk.record.nodes, node = config.root ∨
    ∃ interaction ∈ walk.interactions, interaction.outcome.rule = some node
  flavored : config.includeNonProgressing = true → ∀ interaction ∈ walk.interactions,
    ∀ rule, interaction.outcome.rule = some rule → rule ∈ walk.record.nodes

variable {engine : Engine σ ε} {config : Config} {start : σ}

theorem naming_fresh : Naming config (fresh config start) where
  root_mem := by simp [fresh, Walk.start, Record.start]
  fired := by
    intro node hnode
    exact .inl (List.mem_singleton.1 hnode)
  flavored := by simp [fresh, Walk.start, interactions]

theorem Turn.naming {walk after : Walk σ} (turn : Turn engine config walk after)
    (h : Naming config walk) : Naming config after := by
  cases turn with
  | leave => exact ⟨h.root_mem, h.fired, h.flavored⟩
  | @attempt frame entity pending below record history outcome step answer judged =>
      have hgrows := step.grows_enter config record
      refine ⟨hgrows.nodes.subset h.root_mem, ?_, ?_⟩
      · intro node hnode
        rcases judged.mem_nodes_of_enter hnode with hold | hnew
        · rcases h.fired node hold with hroot | ⟨interaction, htried, hrule⟩
          · exact .inl hroot
          · exact .inr ⟨interaction, (mem_interactions_advance judged).2 (.inl htried), hrule⟩
        · exact .inr ⟨_, (mem_interactions_advance judged).2 (.inr rfl), hnew⟩
      · intro hflag interaction hinteraction rule hrule
        rcases (mem_interactions_advance judged).1 hinteraction with hold | rfl
        · exact hgrows.nodes.subset (h.flavored hflag interaction hold rule hrule)
        · exact judged.rule_mem_nodes_enter hflag hrule

theorem Finished.naming {walk : Walk σ} (h : Finished engine config start walk) :
    Naming config walk :=
  h.turns.keeps (fun _ _ turn => turn.naming) naming_fresh

end Playthrough.Walk
