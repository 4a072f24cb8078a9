import Playthrough.Engine.Basic
import Playthrough.View

/-!
# Runs

A run is a sequence of interactions.  Each of them is with something that the state
it is tried in has to offer, and goes on from the state that the one before it led to.
-/

namespace Playthrough

variable {σ ε : Type}

/-- An interaction that was tried: in which state, with what, and what came of it. -/
structure Interaction (σ : Type) where
  state : σ
  entity : Text
  outcome : Outcome σ

def fired (taken : List (Interaction σ)) : List Text :=
  taken.filterMap fun interaction => interaction.outcome.rule

@[simp] theorem fired_nil : fired ([] : List (Interaction σ)) = [] := rfl

@[simp] theorem fired_snoc (taken : List (Interaction σ)) (last : Interaction σ) :
    fired (taken ++ [last]) = fired taken ++ last.outcome.rule.toList := by
  cases h : last.outcome.rule <;> simp [fired, h]

variable [Observable σ]

/-- A rule fired, and a named ending has been reached. -/
def Outcome.IsEnding (outcome : Outcome σ) : Prop :=
  outcome.rule.isSome ∧ (view outcome.next).isComplete = true

instance (outcome : Outcome σ) : Decidable outcome.IsEnding :=
  inferInstanceAs (Decidable (_ ∧ _))

/-- No rule fired into a named ending. -/
def Unfinished (taken : List (Interaction σ)) : Prop :=
  ∀ interaction ∈ taken, ¬ interaction.outcome.IsEnding

@[simp] theorem unfinished_nil : Unfinished ([] : List (Interaction σ)) := by
  simp [Unfinished]

@[simp] theorem unfinished_snoc {taken : List (Interaction σ)} {last : Interaction σ} :
    Unfinished (taken ++ [last]) ↔ Unfinished taken ∧ ¬ last.outcome.IsEnding := by
  simp [Unfinished, or_imp, forall_and]

namespace Engine

/-- The interaction is with an interactable of its state, and has the engine's outcome. -/
def Answers (engine : Engine σ ε) (interaction : Interaction σ) : Prop :=
  interaction.entity ∈ interactables interaction.state ∧
    engine.attempt interaction.entity interaction.state = .ok interaction.outcome

inductive Run (engine : Engine σ ε) (start : σ) : List (Interaction σ) → σ → Prop
  | here : Run engine start [] start
  | step {taken : List (Interaction σ)} {last : Interaction σ} :
      Run engine start taken last.state → engine.Answers last →
      Run engine start (taken ++ [last]) last.outcome.next

def Reachable (engine : Engine σ ε) (start state : σ) : Prop :=
  ∃ taken, engine.Run start taken state

theorem run_snoc_iff {engine : Engine σ ε} {start state : σ}
    {taken : List (Interaction σ)} {last : Interaction σ} :
    engine.Run start (taken ++ [last]) state ↔
      engine.Run start taken last.state ∧ engine.Answers last ∧
        last.outcome.next = state := by
  constructor
  · intro h
    generalize hall : taken ++ [last] = all at h
    cases h with
    | here => simp at hall
    | step hrun hanswers =>
        obtain ⟨rfl, heq⟩ := List.append_inj' hall rfl
        cases heq
        exact ⟨hrun, hanswers, rfl⟩
  · rintro ⟨hrun, hanswers, rfl⟩
    exact .step hrun hanswers

/-! ## Closed sets of states -/

/-- What follows the interactions of some states is among them. -/
def Closed (engine : Engine σ ε) (states : List σ) : Prop :=
  ∀ state ∈ states, ∀ entity ∈ interactables state,
    ∀ outcome ∈ (engine.attempt entity state).toOption, outcome.next ∈ states

instance [DecidableEq σ] (engine : Engine σ ε) (states : List σ) :
    Decidable (engine.Closed states) :=
  inferInstanceAs (Decidable (∀ state ∈ states, ∀ entity ∈ interactables state,
    ∀ outcome ∈ (engine.attempt entity state).toOption, outcome.next ∈ states))

theorem Closed.mem_of_reachable {engine : Engine σ ε} {states : List σ} {start state : σ}
    (h : engine.Closed states) (hstart : start ∈ states)
    (hreachable : engine.Reachable start state) : state ∈ states := by
  obtain ⟨taken, hrun⟩ := hreachable
  induction hrun with
  | here => exact hstart
  | step hrun hanswers ih =>
      refine h _ ih _ hanswers.1 _ ?_
      rw [hanswers.2]
      rfl

end Engine

end Playthrough
