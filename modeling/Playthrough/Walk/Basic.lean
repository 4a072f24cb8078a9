import Playthrough.Walk.Step

/-!
# Walks

A walk tries everything that each state it meets has to offer, depth first: where a
step leads on, that branch is walked to its end before the next interactable of the
state is tried.  It keeps a stack of the frames that are not exhausted, and a history
of its steps.
-/

namespace Playthrough

/-- A frame with the interactables that have not been tried there. -/
structure OpenFrame (σ : Type) where
  frame : Frame σ
  pending : List Text
  deriving DecidableEq, Repr

/-- The top of the stack and the latest step come first.  Each step stands with the
record after it. -/
structure Walk (σ : Type) [Observable σ] where
  stack : List (OpenFrame σ)
  record : Record σ
  history : List (Step σ × Record σ)

/-- Why a walk ended before its time. -/
inductive Stop (ε : Type) where
  | broken (fault : ε)
  | exhausted
  deriving DecidableEq, Repr

namespace Walk

variable {σ ε : Type} [Observable σ]

def openFrame (frame : Frame σ) : OpenFrame σ := ⟨frame, interactables frame.state⟩

def start (frame : Frame σ) (record : Record σ) : Walk σ := ⟨[openFrame frame], record, []⟩

def advance (config : Config) (step : Step σ) (walk : Walk σ) : Walk σ :=
  let record := step.enter config walk.record
  { stack := (step.child?.map openFrame).toList ++ walk.stack
    record := record
    history := (step, record) :: walk.history }

/-- Take at most `fuel` turns.  A turn tries one interactable, or leaves a frame that
has none left. -/
def run (engine : Engine σ ε) (config : Config) : Nat → Walk σ → Walk σ × Option (Stop ε)
  | 0, walk => (walk, if walk.stack.isEmpty then none else some .exhausted)
  | fuel + 1, walk =>
      match walk.stack with
      | [] => (walk, none)
      | ⟨_, []⟩ :: below => run engine config fuel { walk with stack := below }
      | ⟨frame, entity :: pending⟩ :: below =>
          match Step.classify engine config walk.record frame entity with
          | .error fault => (walk, some (.broken fault))
          | .ok step =>
              run engine config fuel
                (advance config step { walk with stack := ⟨frame, pending⟩ :: below })

/-- Walk from a frame on top of what a record already holds. -/
def explore (engine : Engine σ ε) (config : Config) (frame : Frame σ) (record : Record σ) :
    Walk σ × Option (Stop ε) :=
  run engine config (engine.budget frame.state) (start frame record)

def build (engine : Engine σ ε) (config : Config) (state : σ) : Except (Stop ε) (Record σ) :=
  match explore engine config ⟨[], state, config.root⟩ (.start state config.root) with
  | (walk, none) => .ok walk.record
  | (_, some stop) => .error stop

end Walk

end Playthrough
