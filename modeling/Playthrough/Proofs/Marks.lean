import Playthrough.Proofs.Arrival

/-!
# Marked states

By which rules direct runs arrive can be checked on a list of states, each marked with the
two rules that fire last on the way to it.  The list has to hold what follows from its
states, save for endings and for what changes nothing.
-/

namespace Playthrough.Engine

variable {σ ε : Type}

def markNext (root : Text) (mark : Option (Text × Text)) (rule : Option Text) :
    Option (Text × Text) :=
  (rule.map fun rule => ((mark.map Prod.snd).getD root, rule)).or mark

theorem arrival_snoc_eq_markNext (root : Text) (taken : List (Interaction σ))
    (last : Interaction σ) :
    arrival root (taken ++ [last]) = markNext root (arrival root taken) last.outcome.rule := by
  rw [arrival_snoc, lastFired_eq_arrival]
  rfl

variable [Observable σ]

/-- What follows from a marked state is marked with the rules that fired last by then. -/
def Marks (engine : Engine σ ε) (root : Text) (marks : List (σ × Option (Text × Text))) :
    Prop :=
  ∀ mark ∈ marks, ∀ entity ∈ interactables mark.1,
    ∀ outcome ∈ (engine.attempt entity mark.1).toOption,
      outcome.IsEnding ∨ ObservablyEqual mark.1 outcome.next ∨
        (outcome.next, markNext root mark.2 outcome.rule) ∈ marks

instance [DecidableEq σ] (engine : Engine σ ε) (root : Text)
    (marks : List (σ × Option (Text × Text))) : Decidable (engine.Marks root marks) :=
  inferInstanceAs (Decidable (∀ mark ∈ marks, ∀ entity ∈ interactables mark.1,
    ∀ outcome ∈ (engine.attempt entity mark.1).toOption,
      outcome.IsEnding ∨ ObservablyEqual mark.1 outcome.next ∨
        (outcome.next, markNext root mark.2 outcome.rule) ∈ marks))

/-- The pairs of rules that fire one after the other at marked states. -/
def markedPairs (engine : Engine σ ε) (root : Text)
    (marks : List (σ × Option (Text × Text))) : List (Text × Text) :=
  marks.flatMap fun mark => (interactables mark.1).filterMap fun entity =>
    (engine.attempt entity mark.1).toOption.bind fun outcome =>
      outcome.rule.map fun rule => ((mark.2.map Prod.snd).getD root, rule)

namespace Marks

variable {engine : Engine σ ε} {root : Text} {marks : List (σ × Option (Text × Text))}
  {start : σ}

theorem mem_of_direct (h : engine.Marks root marks) (hstart : (start, none) ∈ marks)
    {taken : List (Interaction σ)} {state : σ} (hdirect : engine.Direct start taken state) :
    (state, arrival root taken) ∈ marks := by
  obtain ⟨hrun, hunfinished, hdistinct⟩ := hdirect
  induction hrun with
  | here => exact hstart
  | @step taken last hrun hanswers ih =>
      obtain ⟨hbefore, hopen⟩ := unfinished_snoc.1 hunfinished
      rw [passed_snoc] at hdistinct
      obtain ⟨hearlier, -, hnew⟩ := List.pairwise_append.1 hdistinct
      have hmoved := hnew _ hrun.state_mem_passed _ (List.mem_singleton_self _)
      have houtcome : last.outcome ∈ (engine.attempt last.entity last.state).toOption := by
        rw [hanswers.2]
        rfl
      have hnext := h _ (ih hbefore hearlier) _ hanswers.1 _ houtcome
      rw [arrival_snoc_eq_markNext]
      exact (hnext.resolve_left hopen).resolve_left hmoved

theorem oneWay (h : engine.Marks root marks) (hstart : (start, none) ∈ marks)
    (hdistinct : (marks.map fun mark => view mark.1).Nodup) : engine.OneWay root start := by
  intro taken state other reached hfirst hsecond hequal
  have hsame := List.inj_on_of_nodup_map hdistinct (h.mem_of_direct hstart hfirst)
    (h.mem_of_direct hstart hsecond) hequal
  exact congrArg Prod.snd hsame

theorem mem_markedPairs (h : engine.Marks root marks) (hstart : (start, none) ∈ marks)
    {pair : Text × Text} (hpair : engine.Occurs root start pair) :
    pair ∈ engine.markedPairs root marks := by
  obtain ⟨taken, last, hfires⟩ := hpair
  refine List.mem_flatMap.2 ⟨_, h.mem_of_direct hstart hfires.direct, ?_⟩
  refine List.mem_filterMap.2 ⟨last.entity, hfires.answers.1, ?_⟩
  rw [hfires.answers.2, ← lastFired_eq_arrival, hfires.source_eq]
  change last.outcome.rule.map _ = _
  rw [hfires.rule_eq]
  rfl

theorem anchored (h : engine.Marks root marks) (hstart : (start, none) ∈ marks)
    (honce : ∀ pair ∈ engine.markedPairs root marks, ∀ other ∈ engine.markedPairs root marks,
      other.2 = pair.2 → other = pair) : engine.Anchored root start := by
  intro pair other hpair _ hother htarget
  exact honce pair (h.mem_markedPairs hstart hpair) other (h.mem_markedPairs hstart hother)
    htarget

end Marks

end Playthrough.Engine
