import Mathlib.Data.Finset.Card
import Playthrough.Proofs.Turn

/-!
# How many turns a walk takes

Each turn either uses up one pending interactable, or leaves a frame, or enters a view
that was not seen before.  Where only finitely many views can be met, the turns that
remain are counted by the stack and by the unseen views, and enough fuel is never spent.
-/

namespace Playthrough

variable {σ ε : Type} [Observable σ]

/-- The engine keeps to a domain of states with finitely many views, each of which
offers boundedly much. -/
structure Engine.Confined (engine : Engine σ ε) (domain : σ → Prop)
    (sights : Finset View) (offers : Nat) : Prop where
  view_mem : ∀ state, domain state → view state ∈ sights
  length_le : ∀ state, domain state → (interactables state).length ≤ offers
  kept : ∀ state entity outcome, domain state →
    engine.attempt entity state = .ok outcome → domain outcome.next

namespace Walk

def stackTurns : List (OpenFrame σ) → Nat
  | [] => 0
  | top :: below => top.pending.length + 1 + stackTurns below

def unseen (sights : Finset View) (record : Record σ) : Finset View :=
  sights \ record.visited.views.toFinset

def turnsLeft (sights : Finset View) (offers : Nat) (walk : Walk σ) : Nat :=
  stackTurns walk.stack + (unseen sights walk.record).card * (offers + 1)

variable {engine : Engine σ ε} {config : Config} {domain : σ → Prop}
  {sights : Finset View} {offers : Nat}

theorem mem_unseen {record : Record σ} {state : σ} :
    view state ∈ unseen sights record ↔
      view state ∈ sights ∧ state ∉ record.visited := by
  unfold unseen
  rw [Finset.mem_sdiff, List.mem_toFinset]
  rfl

theorem unseen_enter {record : Record σ} {frame : Frame σ} {entity : Text}
    {outcome : Outcome σ} {step : Step σ}
    (judged : Step.Judged config record frame entity outcome step) :
    unseen sights (step.enter config record) =
      match step.child? with
      | some _ => (unseen sights record).erase (view outcome.next)
      | none => unseen sights record := by
  unfold unseen
  rw [(step.enter config record).visited.views_eq, judged.states_enter,
    record.visited.views_eq]
  cases hchild : step.child? with
  | none => simp
  | some child =>
      rw [judged.child_eq_after hchild]
      ext seen
      simp [Frame.state_after]
      tauto

theorem turnsLeft_advance {frame : Frame σ} {entity : Text} {pending : List Text}
    {below : List (OpenFrame σ)} {record : Record σ} {history : List (Step σ × Record σ)}
    {outcome : Outcome σ} {step : Step σ} (h : engine.Confined domain sights offers)
    (hframe : domain frame.state) (answer : engine.attempt entity frame.state = .ok outcome)
    (judged : Step.Judged config record frame entity outcome step) :
    turnsLeft sights offers
        (advance config step ⟨⟨frame, pending⟩ :: below, record, history⟩) <
      turnsLeft sights offers ⟨⟨frame, entity :: pending⟩ :: below, record, history⟩ := by
  have hnext := h.kept _ _ _ hframe answer
  have hunseen : unseen sights (step.enter config record) = _ := unseen_enter judged
  cases hchild : step.child? with
  | none =>
      rw [hchild] at hunseen
      simp only [turnsLeft, advance, hchild, hunseen, Option.map_none, Option.toList_none,
        List.nil_append, stackTurns, List.length_cons]
      omega
  | some child =>
      rw [hchild] at hunseen
      have hmem := mem_unseen.2 ⟨h.view_mem _ hnext, judged.not_mem_visited_of_child hchild⟩
      have hcard := Finset.card_erase_add_one hmem
      have hpending : (openFrame child).pending.length ≤ offers := by
        rw [judged.child_eq_after hchild]
        unfold openFrame
        rw [Frame.state_after]
        exact h.length_le _ hnext
      simp only [turnsLeft, advance, hchild, hunseen, Option.map_some, Option.toList_some,
        List.singleton_append, stackTurns, List.length_cons]
      rw [← hcard, Nat.add_mul]
      omega

def Stays (domain : σ → Prop) (walk : Walk σ) : Prop :=
  ∀ top ∈ walk.stack, domain top.frame.state

theorem Turn.stays {walk after : Walk σ} (turn : Turn engine config walk after)
    (h : engine.Confined domain sights offers) (hwalk : Stays domain walk) :
    Stays domain after := by
  cases turn with
  | leave => exact fun top htop => hwalk top (List.mem_cons_of_mem _ htop)
  | @attempt frame entity pending below record history outcome step answer judged =>
      have hframe : domain frame.state := hwalk _ List.mem_cons_self
      intro top htop
      rcases mem_stack_advance.1 htop with ⟨child, hchild, rfl⟩ | hold
      · change domain child.state
        rw [judged.child_eq_after hchild, Frame.state_after]
        exact h.kept _ _ _ hframe answer
      · rcases List.mem_cons.1 hold with rfl | hbelow
        · exact hframe
        · exact hwalk top (List.mem_cons_of_mem _ hbelow)

theorem Turn.turnsLeft_lt {walk after : Walk σ} (turn : Turn engine config walk after)
    (h : engine.Confined domain sights offers) (hwalk : Stays domain walk) :
    turnsLeft sights offers after < turnsLeft sights offers walk := by
  cases turn with
  | leave =>
      simp only [turnsLeft, stackTurns]
      omega
  | attempt answer judged => exact turnsLeft_advance h (hwalk _ List.mem_cons_self) answer judged

theorem run_ne_exhausted (h : engine.Confined domain sights offers) {fuel : Nat}
    {walk : Walk σ} (hwalk : Stays domain walk)
    (hfuel : turnsLeft sights offers walk ≤ fuel) :
    (run engine config fuel walk).2 ≠ some .exhausted := by
  induction fuel generalizing walk with
  | zero =>
      obtain ⟨stack, record, history⟩ := walk
      cases stack with
      | nil => simp [run]
      | cons top below => simp [turnsLeft, stackTurns] at hfuel
  | succ fuel ih =>
      -- a turn that is taken lowers the bound and the fuel together
      have htaken : ∀ after, Turn engine config walk after →
          (run engine config fuel after).2 ≠ some .exhausted := by
        intro after turn
        refine ih (turn.stays h hwalk) ?_
        exact Nat.le_of_lt_succ (Nat.lt_of_lt_of_le (turn.turnsLeft_lt h hwalk) hfuel)
      obtain ⟨stack, record, history⟩ := walk
      cases stack with
      | nil => simp [run]
      | cons top below =>
          obtain ⟨frame, pending⟩ := top
          cases pending with
          | nil => exact htaken _ .leave
          | cons entity pending =>
              simp only [run]
              cases hstep : Step.classify engine config record frame entity with
              | error fault => simp
              | ok step =>
                  obtain ⟨outcome, answer, judged⟩ := Step.classify_eq_ok hstep
                  exact htaken _ (.attempt answer judged)

theorem turnsLeft_start_le (h : engine.Confined domain sights offers) {frame : Frame σ}
    (hframe : domain frame.state) (record : Record σ) :
    turnsLeft sights offers (start frame record) ≤ (sights.card + 1) * (offers + 1) := by
  have hlength := h.length_le _ hframe
  have hcard : (unseen sights record).card ≤ sights.card :=
    Finset.card_le_card Finset.sdiff_subset
  have hmul := Nat.mul_le_mul_right (offers + 1) hcard
  simp only [turnsLeft, start, stackTurns, openFrame, Nat.add_mul]
  omega

theorem stays_start {frame : Frame σ} (hframe : domain frame.state) (record : Record σ) :
    Stays domain (start frame record) := by
  intro top htop
  rw [List.mem_singleton.1 htop]
  exact hframe

theorem explore_ne_exhausted (h : engine.Confined domain sights offers)
    {frame : Frame σ} {record : Record σ} (hframe : domain frame.state)
    (hbudget : (sights.card + 1) * (offers + 1) ≤ engine.budget frame.state) :
    (explore engine config frame record).2 ≠ some .exhausted :=
  run_ne_exhausted h (stays_start hframe record)
    (Nat.le_trans (turnsLeft_start_le h hframe record) hbudget)

theorem length_turns_le (h : engine.Confined domain sights offers) {walks : Nat → Walk σ}
    (hstart : Stays domain (walks 0)) {count : Nat}
    (hturns : ∀ n < count, Turn engine config (walks n) (walks (n + 1))) :
    count ≤ turnsLeft sights offers (walks 0) := by
  have hleft : ∀ n ≤ count, Stays domain (walks n) ∧
      turnsLeft sights offers (walks n) + n ≤ turnsLeft sights offers (walks 0) := by
    intro n
    induction n with
    | zero => exact fun _ => ⟨hstart, Nat.le_refl _⟩
    | succ n ih =>
        intro hn
        obtain ⟨hstays, hbound⟩ := ih (Nat.le_of_lt hn)
        have turn := hturns n hn
        have hlt := turn.turnsLeft_lt h hstays
        exact ⟨turn.stays h hstays, by omega⟩
  have hcount := (hleft count (Nat.le_refl _)).2
  omega

end Walk

end Playthrough
