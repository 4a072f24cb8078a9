import Playthrough.Text.Basic

/-!
# Engines

An engine answers an attempted interaction with the state that follows, and with the
rule that fired, if one did.
-/

namespace Playthrough

structure Outcome (σ : Type) where
  next : σ
  rule : Option Text
  deriving DecidableEq, Repr

/-- An attempt may fail with a fault of type `ε`.  The budget of a state is a number of
turns after which a walk that starts there is cut off. -/
structure Engine (σ ε : Type) where
  attempt : Text → σ → Except ε (Outcome σ)
  budget : σ → Nat

end Playthrough
