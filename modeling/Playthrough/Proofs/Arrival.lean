import Playthrough.Proofs.Completeness
import Playthrough.Proofs.Rooting

/-!
# Arrivals

Which of several direct runs a walk takes to a state depends on the order of enumeration.
Where all of them arrive by firing the same two rules, the edge between the two is drawn
whatever the order.
-/

namespace Playthrough

variable {σ ε : Type} [Observable σ]

namespace Engine

/-- Wherever a direct run gets by firing two rules, the others get by firing the same two. -/
def Forces (engine : Engine σ ε) (root : Text) (start : σ) (pair : Text × Text) : Prop :=
  ∃ taken last, engine.Fires root start pair taken last ∧ Advances start taken last ∧
    (last.outcome.IsEnding → ∀ other reached, engine.Direct start other reached →
      ObservablyEqual last.state reached → lastFired root other = pair.1) ∧
    (¬ last.outcome.IsEnding → ∀ other reached, engine.Direct start other reached →
      ObservablyEqual last.outcome.next reached → arrival root other = some pair)

/-- Direct runs to states that look the same fire the same two rules last. -/
def OneWay (engine : Engine σ ε) (root : Text) (start : σ) : Prop :=
  ∀ taken state other reached, engine.Direct start taken state →
    engine.Direct start other reached → ObservablyEqual state reached →
    arrival root taken = arrival root other

/-- A rule that does not lead on where it fires after some rule fires after no other. -/
def Anchored (engine : Engine σ ε) (root : Text) (start : σ) : Prop :=
  ∀ pair other, engine.Occurs root start pair → ¬ engine.Draws root start pair →
    engine.Occurs root start other → other.2 = pair.2 → other = pair

theorem Fires.arrival_eq {engine : Engine σ ε} {root : Text} {start : σ} {pair : Text × Text}
    {taken : List (Interaction σ)} {last : Interaction σ}
    (h : engine.Fires root start pair taken last) :
    arrival root (taken ++ [last]) = some pair := by
  rw [arrival_snoc, h.rule_eq, h.source_eq]
  rfl

theorem OneWay.forces {engine : Engine σ ε} {root : Text} {start : σ} {pair : Text × Text}
    (h : engine.OneWay root start) (hdraws : engine.Draws root start pair) :
    engine.Forces root start pair := by
  obtain ⟨taken, last, hfires, hadvances⟩ := hdraws
  refine ⟨taken, last, hfires, hadvances, ?_, ?_⟩
  · intro _ other reached hdirect hequal
    have harrival := h _ _ _ _ hfires.direct hdirect hequal
    rw [← hfires.source_eq, lastFired_eq_arrival, lastFired_eq_arrival, harrival]
  · intro hopen other reached hdirect hequal
    have hlonger := hfires.direct.snoc hfires.answers hopen (hadvances.resolve_left hopen)
    rw [← h _ _ _ _ hlonger hdirect hequal]
    exact hfires.arrival_eq

end Engine

namespace Walk

variable {engine : Engine σ ε} {config : Config} {start : σ} {walk : Walk σ}

theorem Finished.mem_keys_of_forces (h : Finished engine config start walk)
    (hcongruent : engine.Congruent start) {pair : Text × Text}
    (hforces : engine.Forces config.root start pair) :
    pair ∈ walk.record.edges.map Edge.key := by
  obtain ⟨taken, last, hfires, hadvances, hended, hmet⟩ := hforces
  have hsaturating := h.saturating
  have htracing := h.turns.tracing
  by_cases hending : last.outcome.IsEnding
  · have hvisited := hsaturating.visited_of_run h.stack_eq hfires.direct.run
      hfires.direct.unfinished (hcongruent.evident_of_run hfires.direct.run)
    obtain ⟨tried, htried, hequal, halike⟩ := hsaturating.exists_alike h.stack_eq hvisited
      hfires.answers (hcongruent.evident ⟨taken, hfires.direct.run⟩ hfires.answers)
    obtain ⟨other, htrail, hmem⟩ := htracing.ended tried htried pair.2
      (halike.1.trans hfires.rule_eq) (halike.isEnding_iff.2 hending)
    rwa [hended hending other _ htrail.direct hequal.symm] at hmem
  · have hlonger := hfires.direct.snoc hfires.answers hending (hadvances.resolve_left hending)
    have hvisited := hsaturating.visited_of_run h.stack_eq hlonger.run hlonger.unfinished
      (hcongruent.evident_of_run hlonger.run)
    obtain ⟨state, hstate, hequal⟩ := Visited.mem_iff.1 hvisited
    obtain ⟨other, htrail⟩ := htracing.visited state hstate
    exact htrail.recorded pair (hmet hending other state htrail.direct hequal.symm)

theorem Finished.occurs_of_mem_keys (h : Finished engine config start walk)
    {pair : Text × Text} (hpair : pair ∈ walk.record.edges.map Edge.key) :
    engine.Occurs config.root start pair := by
  obtain ⟨edge, hedge, rfl⟩ := List.mem_map.1 hpair
  exact h.turns.tracing.fired edge hedge

theorem Finished.mem_keys_iff_draws (h : Finished engine config start walk)
    (hcongruent : engine.Congruent start) (hway : engine.OneWay config.root start)
    (hflag : config.includeNonProgressing = false) {pair : Text × Text} :
    pair ∈ walk.record.edges.map Edge.key ↔ engine.Draws config.root start pair := by
  constructor
  · intro hpair
    obtain ⟨edge, hedge, rfl⟩ := List.mem_map.1 hpair
    exact h.turns.tracing.drawn hflag edge hedge
  · intro hdraws
    exact h.mem_keys_of_forces hcongruent (hway.forces hdraws)

theorem Finished.mem_keys_iff_occurs (h : Finished engine config start walk)
    (hcongruent : engine.Congruent start) (hway : engine.OneWay config.root start)
    (hanchored : engine.Anchored config.root start)
    (hroot : ∀ pair, engine.Occurs config.root start pair → pair.2 ≠ config.root)
    (hflag : config.includeNonProgressing = true) {pair : Text × Text} :
    pair ∈ walk.record.edges.map Edge.key ↔ engine.Occurs config.root start pair := by
  refine ⟨h.occurs_of_mem_keys, fun hoccurs => ?_⟩
  by_cases hdraws : engine.Draws config.root start pair
  · exact h.mem_keys_of_forces hcongruent (hway.forces hdraws)
  · have hnode : pair.2 ∈ walk.record.nodes := by
      obtain ⟨taken, last, hfires⟩ := hoccurs
      exact (h.saturating.mem_nodes_iff h.stack_eq h.naming hcongruent hflag pair.2).2
        (.inr ⟨taken, last, _, hfires.direct.run.step hfires.answers,
          hfires.direct.unfinished, hfires.rule_eq⟩)
    have htarget := (h.turns.rooted.mem_nodes_iff.1 hnode).resolve_left
      (hroot pair hoccurs)
    obtain ⟨edge, hedge, htarget⟩ := List.mem_map.1 htarget
    have hkey := List.mem_map_of_mem (f := Edge.key) hedge
    rwa [hanchored pair edge.key hoccurs hdraws (h.occurs_of_mem_keys hkey) htarget] at hkey

end Walk

end Playthrough
