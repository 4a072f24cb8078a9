import Mathlib.Logic.Relation
import Playthrough.Proofs.Judgement
import Playthrough.Walk.Basic

/-!
# Turns of a walk

A walk takes one turn after the other until its stack is empty, an attempt fails, or
its fuel is spent.  What each turn keeps, the whole walk keeps.
-/

namespace Playthrough.Walk

variable {σ ε : Type} [Observable σ]

def interactions (walk : Walk σ) : List (Interaction σ) :=
  walk.history.reverse.map fun entry => entry.1.interaction

def steps (walk : Walk σ) : List (Step σ) := walk.history.reverse.map Prod.fst

theorem interactions_eq (walk : Walk σ) :
    walk.interactions = walk.steps.map Step.interaction := by
  simp [interactions, steps]

@[simp] theorem steps_advance (config : Config) (step : Step σ) (walk : Walk σ) :
    (advance config step walk).steps = walk.steps ++ [step] := by
  simp [advance, steps]

theorem mem_steps_advance {config : Config} {step other : Step σ} {walk : Walk σ} :
    other ∈ (advance config step walk).steps ↔ other ∈ walk.steps ∨ other = step := by
  simp

theorem interactions_advance (config : Config) (step : Step σ) (walk : Walk σ) :
    (advance config step walk).interactions = walk.interactions ++ [step.interaction] := by
  simp [advance, interactions]

theorem mem_interactions_advance {config : Config} {record : Record σ} {frame : Frame σ}
    {entity : Text} {outcome : Outcome σ} {step : Step σ} {walk : Walk σ}
    {interaction : Interaction σ}
    (judged : Step.Judged config record frame entity outcome step) :
    interaction ∈ (advance config step walk).interactions ↔
      interaction ∈ walk.interactions ∨ interaction = ⟨frame.state, entity, outcome⟩ := by
  rw [interactions_advance, judged.interaction_eq, List.mem_append, List.mem_singleton]

theorem mem_stack_advance {config : Config} {step : Step σ} {walk : Walk σ}
    {top : OpenFrame σ} :
    top ∈ (advance config step walk).stack ↔
      (∃ child, step.child? = some child ∧ top = openFrame child) ∨ top ∈ walk.stack := by
  cases hchild : step.child? with
  | none => simp [advance, hchild]
  | some child => simp [advance, hchild]

def fresh (config : Config) (state : σ) : Walk σ :=
  start ⟨[], state, config.root⟩ (.start state config.root)

theorem states_fresh (config : Config) (state : σ) :
    (fresh config state).record.visited.states = [state] := rfl

/-- The top frame is left, or one of its interactables is tried. -/
inductive Turn (engine : Engine σ ε) (config : Config) : Walk σ → Walk σ → Prop
  | leave {frame : Frame σ} {below : List (OpenFrame σ)} {record : Record σ}
      {history : List (Step σ × Record σ)} :
      Turn engine config ⟨⟨frame, []⟩ :: below, record, history⟩ ⟨below, record, history⟩
  | attempt {frame : Frame σ} {entity : Text} {pending : List Text}
      {below : List (OpenFrame σ)} {record : Record σ}
      {history : List (Step σ × Record σ)} {outcome : Outcome σ} {step : Step σ}
      (answer : engine.attempt entity frame.state = .ok outcome)
      (judged : Step.Judged config record frame entity outcome step) :
      Turn engine config ⟨⟨frame, entity :: pending⟩ :: below, record, history⟩
        (advance config step ⟨⟨frame, pending⟩ :: below, record, history⟩)

def Turns (engine : Engine σ ε) (config : Config) : Walk σ → Walk σ → Prop :=
  Relation.ReflTransGen (Turn engine config)

/-- What each turn keeps, a sequence of turns keeps; a turn may count on those before it. -/
theorem Turns.keeps_along {engine : Engine σ ε} {config : Config} {P : Walk σ → Prop}
    {first after : Walk σ}
    (hturn : ∀ walk after, Turns engine config first walk → Turn engine config walk after →
      P walk → P after)
    (turns : Turns engine config first after) (h : P first) : P after := by
  induction turns with
  | refl => exact h
  | tail turns turn ih => exact hturn _ _ turns turn ih

theorem Turns.keeps {engine : Engine σ ε} {config : Config} {P : Walk σ → Prop}
    (hturn : ∀ walk after, Turn engine config walk after → P walk → P after)
    {walk after : Walk σ} (turns : Turns engine config walk after) (h : P walk) :
    P after :=
  turns.keeps_along (fun _ _ _ turn => hturn _ _ turn) h

theorem run_turns (engine : Engine σ ε) (config : Config) (fuel : Nat) (walk : Walk σ) :
    Turns engine config walk (run engine config fuel walk).1 := by
  induction fuel generalizing walk with
  | zero => exact .refl
  | succ fuel ih =>
      obtain ⟨stack, record, history⟩ := walk
      cases stack with
      | nil => exact .refl
      | cons top below =>
          obtain ⟨frame, pending⟩ := top
          cases pending with
          | nil => exact .head .leave (ih ⟨below, record, history⟩)
          | cons entity pending =>
              simp only [run]
              cases hstep : Step.classify engine config record frame entity with
              | error fault => exact .refl
              | ok step =>
                  obtain ⟨outcome, answer, judged⟩ := Step.classify_eq_ok hstep
                  exact .head (.attempt answer judged) (ih _)

theorem stack_eq_nil_of_run {engine : Engine σ ε} {config : Config} {fuel : Nat}
    {walk : Walk σ} (h : (run engine config fuel walk).2 = none) :
    (run engine config fuel walk).1.stack = [] := by
  induction fuel generalizing walk with
  | zero => simpa [run] using h
  | succ fuel ih =>
      obtain ⟨stack, record, history⟩ := walk
      cases stack with
      | nil => rfl
      | cons top below =>
          obtain ⟨frame, pending⟩ := top
          cases pending with
          | nil => exact ih h
          | cons entity pending =>
              simp only [run] at h ⊢
              cases hstep : Step.classify engine config record frame entity with
              | error fault => simp [hstep] at h
              | ok step =>
                  simp only [hstep] at h
                  exact ih h

inductive Breaks (engine : Engine σ ε) : Walk σ → ε → Prop
  | attempt {frame : Frame σ} {entity : Text} {pending : List Text}
      {below : List (OpenFrame σ)} {record : Record σ}
      {history : List (Step σ × Record σ)} {fault : ε}
      (refused : engine.attempt entity frame.state = .error fault) :
      Breaks engine ⟨⟨frame, entity :: pending⟩ :: below, record, history⟩ fault

theorem Breaks.exists_attempt {engine : Engine σ ε} {walk : Walk σ} {fault : ε}
    (h : walk.Breaks engine fault) :
    ∃ entity state, engine.attempt entity state = .error fault := by
  cases h with
  | attempt refused => exact ⟨_, _, refused⟩

theorem breaks_of_run {engine : Engine σ ε} {config : Config} {fuel : Nat}
    {walk : Walk σ} {fault : ε} (h : (run engine config fuel walk).2 = some (.broken fault)) :
    Breaks engine (run engine config fuel walk).1 fault := by
  induction fuel generalizing walk with
  | zero =>
      simp only [run] at h
      split at h <;> cases h
  | succ fuel ih =>
      obtain ⟨stack, record, history⟩ := walk
      cases stack with
      | nil => cases h
      | cons top below =>
          obtain ⟨frame, pending⟩ := top
          cases pending with
          | nil => exact ih h
          | cons entity pending =>
              simp only [run] at h ⊢
              cases hstep : Step.classify engine config record frame entity with
              | error other =>
                  simp only [hstep, Option.some.injEq, Stop.broken.injEq] at h
                  subst h
                  exact .attempt (Step.classify_eq_error hstep)
              | ok step =>
                  simp only [hstep] at h ⊢
                  exact ih h

theorem explore_finished {engine : Engine σ ε} {config : Config} {frame : Frame σ}
    {record : Record σ} {walk : Walk σ}
    (h : explore engine config frame record = (walk, none)) :
    Turns engine config (start frame record) walk ∧ walk.stack = [] := by
  unfold explore at h
  have hturns := run_turns engine config (engine.budget frame.state) (start frame record)
  have hstack := stack_eq_nil_of_run (congrArg Prod.snd h)
  rw [h] at hturns hstack
  exact ⟨hturns, hstack⟩

/-- A walk from a state that has come to its end. -/
structure Finished (engine : Engine σ ε) (config : Config) (state : σ) (walk : Walk σ) :
    Prop where
  explored : explore engine config ⟨[], state, config.root⟩ (.start state config.root) =
    (walk, none)
  turns : Turns engine config (fresh config state) walk
  stack_eq : walk.stack = []

theorem finished_of_explore {engine : Engine σ ε} {config : Config} {state : σ}
    {walk : Walk σ}
    (h : explore engine config ⟨[], state, config.root⟩ (.start state config.root) =
      (walk, none)) : Finished engine config state walk :=
  ⟨h, (explore_finished h).1, (explore_finished h).2⟩

theorem Finished.fst_explore {engine : Engine σ ε} {config : Config} {state : σ}
    {walk : Walk σ} (h : Finished engine config state walk) :
    (explore engine config ⟨[], state, config.root⟩ (.start state config.root)).1 = walk :=
  congrArg Prod.fst h.explored

theorem build_finished {engine : Engine σ ε} {config : Config} {state : σ}
    {record : Record σ} (h : build engine config state = .ok record) :
    ∃ walk, Finished engine config state walk ∧ walk.record = record := by
  unfold build at h
  cases hexplore : explore engine config ⟨[], state, config.root⟩
      (.start state config.root) with
  | mk walk stop =>
      cases stop with
      | some stop => simp [hexplore] at h
      | none =>
          simp only [hexplore, Except.ok.injEq] at h
          exact ⟨walk, finished_of_explore hexplore, h⟩

end Playthrough.Walk
