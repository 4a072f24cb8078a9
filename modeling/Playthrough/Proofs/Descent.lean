import Playthrough.Proofs.Scope

/-!
# The walk as a recursion

What a walk does can be said without a stack: go through the interactables of a state
from left to right, and where a step leads on, go through those of the next state first.
The stack of a walk is what is left to do of the recursions that are under way, so both
come to the same record.
-/

namespace Playthrough

namespace Walk

variable {σ ε : Type} [Observable σ]

/-- Trying the pending interactables of a frame, each branch to its end before the next
one, leads from one record to another. -/
inductive Descends (engine : Engine σ ε) (config : Config) :
    Frame σ → List Text → Record σ → Record σ → Prop
  | done {frame : Frame σ} {record : Record σ} : Descends engine config frame [] record record
  | leaf {frame : Frame σ} {entity : Text} {pending : List Text} {record after : Record σ}
      {step : Step σ} :
      Step.classify engine config record frame entity = .ok step → step.child? = none →
      Descends engine config frame pending (step.enter config record) after →
      Descends engine config frame (entity :: pending) record after
  | branch {frame child : Frame σ} {entity : Text} {pending : List Text}
      {record between after : Record σ} {step : Step σ} :
      Step.classify engine config record frame entity = .ok step → step.child? = some child →
      Descends engine config child (interactables child.state) (step.enter config record)
        between →
      Descends engine config frame pending between after →
      Descends engine config frame (entity :: pending) record after

inductive Unwinds (engine : Engine σ ε) (config : Config) :
    List (OpenFrame σ) → Record σ → Record σ → Prop
  | nil {record : Record σ} : Unwinds engine config [] record record
  | cons {top : OpenFrame σ} {below : List (OpenFrame σ)} {record between after : Record σ} :
      Descends engine config top.frame top.pending record between →
      Unwinds engine config below between after →
      Unwinds engine config (top :: below) record after

variable {engine : Engine σ ε} {config : Config}

/-! ## From the stack to the recursion -/

theorem Unwinds.before_attempt {frame : Frame σ} {entity : Text} {pending : List Text}
    {below : List (OpenFrame σ)} {record after : Record σ}
    {history : List (Step σ × Record σ)} {step : Step σ}
    (hstep : Step.classify engine config record frame entity = .ok step)
    (h : Unwinds engine config
      (advance config step ⟨⟨frame, pending⟩ :: below, record, history⟩).stack
      (step.enter config record) after) :
    Unwinds engine config (⟨frame, entity :: pending⟩ :: below) record after := by
  cases hchild : step.child? with
  | none =>
      simp only [advance, hchild, Option.map_none, Option.toList_none, List.nil_append] at h
      cases h with
      | cons hpending hbelow => exact .cons (.leaf hstep hchild hpending) hbelow
  | some child =>
      simp only [advance, hchild, Option.map_some, Option.toList_some,
        List.singleton_append] at h
      cases h with
      | cons hbranch hrest =>
          cases hrest with
          | cons hpending hbelow => exact .cons (.branch hstep hchild hbranch hpending) hbelow

theorem unwinds_of_run {fuel : Nat} {walk last : Walk σ}
    (h : run engine config fuel walk = (last, none)) :
    Unwinds engine config walk.stack walk.record last.record := by
  induction fuel generalizing walk with
  | zero =>
      have hstack := stack_eq_nil_of_run (congrArg Prod.snd h)
      have hlast : walk = last := congrArg Prod.fst h
      subst hlast
      change walk.stack = [] at hstack
      rw [hstack]
      exact .nil
  | succ fuel ih =>
      obtain ⟨stack, record, history⟩ := walk
      cases stack with
      | nil =>
          cases h
          exact .nil
      | cons top below =>
          obtain ⟨frame, pending⟩ := top
          cases pending with
          | nil => exact .cons .done (ih h)
          | cons entity pending =>
              simp only [run] at h
              cases hstep : Step.classify engine config record frame entity with
              | error fault => simp [hstep] at h
              | ok step =>
                  simp only [hstep] at h
                  exact (ih h).before_attempt hstep

/-! ## From the recursion to the stack -/

/-- A descent from the top frame is some number of turns, whatever lies below. -/
theorem Descends.exists_turns {frame : Frame σ} {pending : List Text}
    {record after : Record σ} (h : Descends engine config frame pending record after) :
    ∃ turns, ∀ fuel below history, ∃ later,
      run engine config (fuel + turns) ⟨⟨frame, pending⟩ :: below, record, history⟩ =
        run engine config fuel ⟨below, after, later⟩ := by
  induction h with
  | done => exact ⟨1, fun fuel below history => ⟨history, rfl⟩⟩
  | @leaf frame entity pending record after step hstep hchild _ ih =>
      obtain ⟨turns, hturns⟩ := ih
      refine ⟨turns + 1, fun fuel below history => ?_⟩
      obtain ⟨later, hlater⟩ := hturns fuel below ((step, step.enter config record) :: history)
      refine ⟨later, ?_⟩
      rw [← hlater, ← Nat.add_assoc]
      simp only [run, hstep, advance, hchild, Option.map_none, Option.toList_none,
        List.nil_append]
  | @branch frame child entity pending record between after step hstep hchild _ _ ihbranch
      ihrest =>
      obtain ⟨turnsBranch, hbranch⟩ := ihbranch
      obtain ⟨turnsRest, hrest⟩ := ihrest
      refine ⟨turnsRest + turnsBranch + 1, fun fuel below history => ?_⟩
      obtain ⟨middle, hmiddle⟩ := hbranch (fuel + turnsRest) (⟨frame, pending⟩ :: below)
        ((step, step.enter config record) :: history)
      obtain ⟨later, hlater⟩ := hrest fuel below middle
      refine ⟨later, ?_⟩
      rw [← hlater, ← hmiddle, ← Nat.add_assoc, ← Nat.add_assoc]
      simp only [run, hstep, advance, hchild, openFrame, Option.map_some,
        Option.toList_some, List.singleton_append]

theorem run_add {fuel : Nat} {walk : Walk σ}
    (h : (run engine config fuel walk).2 ≠ some .exhausted) (extra : Nat) :
    run engine config (fuel + extra) walk = run engine config fuel walk := by
  induction fuel generalizing walk with
  | zero =>
      obtain ⟨stack, record, history⟩ := walk
      cases stack with
      | nil => cases extra <;> rfl
      | cons top below => exact absurd rfl h
  | succ fuel ih =>
      rw [Nat.succ_add]
      obtain ⟨stack, record, history⟩ := walk
      cases stack with
      | nil => rfl
      | cons top below =>
          obtain ⟨frame, pending⟩ := top
          cases pending with
          | nil => exact ih h
          | cons entity pending =>
              simp only [run] at h ⊢
              cases hstep : Step.classify engine config record frame entity with
              | error fault => rfl
              | ok step =>
                  simp only [hstep] at h ⊢
                  exact ih h

theorem Descends.explore_eq {frame : Frame σ} {record after : Record σ}
    (h : Descends engine config frame (interactables frame.state) record after)
    (hfuel : (explore engine config frame record).2 ≠ some .exhausted) :
    ∃ walk, explore engine config frame record = (walk, none) ∧ walk.record = after := by
  obtain ⟨turns, hturns⟩ := h.exists_turns
  obtain ⟨later, hlater⟩ := hturns (engine.budget frame.state) [] []
  refine ⟨⟨[], after, later⟩, ?_, rfl⟩
  calc explore engine config frame record
      = run engine config (engine.budget frame.state + turns) (start frame record) :=
        (run_add hfuel turns).symm
    _ = run engine config (engine.budget frame.state) ⟨[], after, later⟩ := hlater
    _ = (⟨[], after, later⟩, none) := by cases engine.budget frame.state <;> rfl

end Walk

/-- A walk by rules, from any frame and on top of any record, comes to the record that
the recursion comes to, and to none if the recursion comes to none. -/
theorem Rule.explore_iff_descends (rules : List Rule) (config : Config)
    (frame : Frame World) (record after : Record World) :
    (∃ walk, Walk.explore (engine rules) config frame record = (walk, none) ∧
        walk.record = after) ↔
      Walk.Descends (engine rules) config frame (interactables frame.state) record after := by
  constructor
  · rintro ⟨walk, hexplore, rfl⟩
    cases Walk.unwinds_of_run hexplore with
    | cons hframe hbelow =>
        cases hbelow with
        | nil => exact hframe
  · intro hdescends
    exact hdescends.explore_eq (explore_not_exhausted rules config frame record)

end Playthrough
