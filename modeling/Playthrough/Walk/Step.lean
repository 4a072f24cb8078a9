import Playthrough.Config
import Playthrough.Engine.Basic
import Playthrough.Walk.Record

/-!
# Steps

One attempted interaction, and what it means for the graph.  A rule that fires into a
named ending completes a playthrough.  Otherwise the walk goes on exactly when the
state is new.  A rule that leads to a known state is flavor: it becomes a leaf, if at
all.  Steps without a rule leave no trace in the graph.
-/

namespace Playthrough

structure Frame (σ : Type) where
  path : List Edge
  state : σ
  lastRule : Text
  deriving DecidableEq, Repr

/-- What a step means.  The edge leads from the last rule to the one that fired. -/
inductive Meaning where
  | ending (edge : Edge)
  | flavorLoop (edge : Edge)
  | progress (edge : Edge)
  | defaultLoop
  | defaultProgress
  deriving DecidableEq, Repr

namespace Meaning

def name : Meaning → String
  | ending _ => "ending"
  | flavorLoop _ => "flavor_loop"
  | progress _ => "progress"
  | defaultLoop => "default_loop"
  | defaultProgress => "default_progress"

def edge? : Meaning → Option Edge
  | ending edge => some edge
  | flavorLoop edge => some edge
  | progress edge => some edge
  | defaultLoop => none
  | defaultProgress => none

end Meaning

structure Step (σ : Type) where
  frame : Frame σ
  entity : Text
  next : σ
  meaning : Meaning
  deriving DecidableEq, Repr

namespace Step

variable {σ ε : Type} [Observable σ]

def rule? (step : Step σ) : Option Text := step.meaning.edge?.map Edge.target

/-- What the outcome of an attempt means to a walk with some record. -/
def meaningOf (config : Config) (record : Record σ) (frame : Frame σ)
    (outcome : Outcome σ) : Meaning :=
  match outcome.rule with
  | some rule =>
      let edge : Edge := ⟨frame.lastRule, rule, config.defaultColor⟩
      if (view outcome.next).isComplete then .ending edge
      else if outcome.next ∈ record.visited then .flavorLoop edge
      else .progress edge
  | none => if outcome.next ∈ record.visited then .defaultLoop else .defaultProgress

def classify (engine : Engine σ ε) (config : Config) (record : Record σ) (frame : Frame σ)
    (entity : Text) : Except ε (Step σ) :=
  (engine.attempt entity frame.state).map fun outcome =>
    ⟨frame, entity, outcome.next, meaningOf config record frame outcome⟩

def enter (config : Config) (step : Step σ) (record : Record σ) : Record σ :=
  match step.meaning with
  | .ending edge => (record.addEdge edge).complete (step.frame.path ++ [edge])
  | .flavorLoop edge =>
      if config.includeNonProgressing ∧ edge.target ∉ record.nodes then record.addEdge edge
      else record
  | .progress edge => (record.addEdge edge).visit step.next
  | .defaultLoop => record
  | .defaultProgress => record.visit step.next

/-- The frame that a step leads to, unless the branch ends with it. -/
def child? (step : Step σ) : Option (Frame σ) :=
  match step.meaning with
  | .progress edge => some ⟨step.frame.path ++ [edge], step.next, edge.target⟩
  | .defaultProgress => some ⟨step.frame.path, step.next, step.frame.lastRule⟩
  | _ => none

end Step

end Playthrough
