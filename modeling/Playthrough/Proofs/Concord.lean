import Playthrough.Proofs.Descent
import Playthrough.Story.Graph

/-!
# Walks that are answered alike

A walk asks its engine about nothing but what it tries.  So another engine that gives the
same answers to all of that leads the same walk, whatever it would answer to other things
and however many turns it would allow.
-/

namespace Playthrough

namespace Step

variable {σ ε : Type} [Observable σ] {engine other : Engine σ ε} {config : Config}

theorem classify_congr {record : Record σ} {frame : Frame σ} {entity : Text}
    (h : other.attempt entity frame.state = engine.attempt entity frame.state) :
    classify other config record frame entity =
      classify engine config record frame entity := by
  unfold classify
  rw [h]

end Step

namespace Walk

variable {σ ε : Type} [Observable σ] {engine other : Engine σ ε} {config : Config}

/-- Another engine answers all that was tried on a walk as the first one did, and fails
where the first one fails next. -/
structure Concurs (engine other : Engine σ ε) (walk : Walk σ) : Prop where
  answers : ∀ interaction ∈ walk.interactions,
    other.attempt interaction.entity interaction.state =
      engine.attempt interaction.entity interaction.state
  breaks : ∀ fault, walk.Breaks engine fault → walk.Breaks other fault

theorem concurs_of_attempt_eq (h : ∀ entity state, other.attempt entity state =
    engine.attempt entity state) (walk : Walk σ) : walk.Concurs engine other where
  answers interaction _ := h interaction.entity interaction.state
  breaks fault hbreaks := by
    cases hbreaks with
    | attempt refused => exact .attempt ((h _ _).trans refused)

theorem Turns.interactions_subset {walk after : Walk σ} (turns : Turns engine config walk after) :
    ∀ interaction ∈ walk.interactions, interaction ∈ after.interactions := by
  intro interaction
  refine turns.keeps (P := fun walk => interaction ∈ walk.interactions) ?_
  intro walk after turn hmem
  cases turn with
  | leave => exact hmem
  | attempt answer judged => exact (mem_interactions_advance judged).2 (.inl hmem)

theorem run_congr {fuel : Nat} {walk : Walk σ}
    (h : Concurs engine other (run engine config fuel walk).1) :
    run other config fuel walk = run engine config fuel walk := by
  induction fuel generalizing walk with
  | zero => rfl
  | succ fuel ih =>
      obtain ⟨stack, record, history⟩ := walk
      cases stack with
      | nil => rfl
      | cons top below =>
          obtain ⟨frame, pending⟩ := top
          cases pending with
          | nil => exact ih h
          | cons entity pending =>
              simp only [run] at h ⊢
              cases hstep : Step.classify engine config record frame entity with
              | error fault =>
                  simp only [hstep] at h
                  have hrefused := Step.classify_eq_error hstep
                  cases h.breaks fault (.attempt hrefused) with
                  | attempt hother =>
                      rw [Step.classify_congr (hother.trans hrefused.symm), hstep]
              | ok step =>
                  simp only [hstep] at h
                  obtain ⟨outcome, answer, judged⟩ := Step.classify_eq_ok hstep
                  let next := advance config step ⟨⟨frame, pending⟩ :: below, record, history⟩
                  have htried := (run_turns engine config fuel next).interactions_subset _
                    ((mem_interactions_advance judged).2 (.inr rfl))
                  rw [Step.classify_congr (h.answers _ htried), hstep]
                  exact ih h

theorem run_eq_run {fuel more : Nat} {walk : Walk σ}
    (h : (run engine config fuel walk).2 ≠ some .exhausted)
    (hmore : (run engine config more walk).2 ≠ some .exhausted) :
    run engine config fuel walk = run engine config more walk :=
  calc run engine config fuel walk
      = run engine config (fuel + more) walk := (run_add h more).symm
    _ = run engine config (more + fuel) walk := by rw [Nat.add_comm]
    _ = run engine config more walk := run_add hmore fuel

end Walk

namespace Rule

variable {rules others : List Rule} {config : Config}

theorem explore_congr {frame : Frame World} {record : Record World}
    (h : (Walk.explore (engine rules) config frame record).1.Concurs (engine rules)
      (engine others)) :
    Walk.explore (engine others) config frame record =
      Walk.explore (engine rules) config frame record := by
  have hspent := explore_not_exhausted rules config frame record
  have hspentOther := explore_not_exhausted others config frame record
  unfold Walk.explore at h hspent hspentOther ⊢
  have hsame := Walk.run_congr h
  rw [← hsame] at hspent ⊢
  exact Walk.run_eq_run hspentOther hspent

/-- Rules that concur with others on the walk that those lead come to the same graph. -/
theorem build_graph_congr {start : World}
    (h : (Walk.explore (engine rules) config ⟨[], start, config.root⟩
      (.start start config.root)).1.Concurs (engine rules) (engine others)) :
    Graph.build (engine others) config start = Graph.build (engine rules) config start := by
  unfold Graph.build Walk.build
  rw [explore_congr h]

end Rule

end Playthrough
