import Playthrough.View

/-!
# Visited states

The states that a walk has met, in order, no two of them observably equal.  Each is
kept beside its view, so that asking for a state compares views only.
-/

namespace Playthrough

structure Visited (σ : Type) [Observable σ] where
  states : List σ
  views : List View
  views_eq : views = states.map view
  nodup : views.Nodup

namespace Visited

variable {σ : Type} [Observable σ]

def empty : Visited σ := ⟨[], [], rfl, List.nodup_nil⟩

instance : EmptyCollection (Visited σ) := ⟨empty⟩

/-- A state counts as visited if an observably equal one has been recorded. -/
instance : Membership σ (Visited σ) := ⟨fun visited state => view state ∈ visited.views⟩

instance (state : σ) (visited : Visited σ) : Decidable (state ∈ visited) :=
  inferInstanceAs (Decidable (view state ∈ visited.views))

theorem mem_iff {state : σ} {visited : Visited σ} :
    state ∈ visited ↔ ∃ other ∈ visited.states, ObservablyEqual other state := by
  change view state ∈ visited.views ↔ _
  rw [visited.views_eq, List.mem_map]
  rfl

@[simp] theorem not_mem_empty {state : σ} : state ∉ (∅ : Visited σ) := List.not_mem_nil

theorem pairwise_states (visited : Visited σ) :
    visited.states.Pairwise fun first second => ¬ ObservablyEqual first second := by
  have hnodup := visited.nodup
  rw [visited.views_eq] at hnodup
  exact List.pairwise_map.1 hnodup

def size (visited : Visited σ) : Nat := visited.states.length

def add (state : σ) (visited : Visited σ) : Visited σ :=
  if h : state ∈ visited then visited
  else
    { states := visited.states ++ [state]
      views := visited.views ++ [view state]
      views_eq := by rw [visited.views_eq, List.map_append]; rfl
      nodup := by
        refine List.nodup_append.2 ⟨visited.nodup, by simp, fun a ha b hb => ?_⟩
        rw [List.mem_singleton.1 hb]
        exact fun heq => h (show view state ∈ visited.views from heq ▸ ha) }

theorem add_of_mem {state : σ} {visited : Visited σ} (h : state ∈ visited) :
    visited.add state = visited :=
  dif_pos h

theorem states_add (state : σ) (visited : Visited σ) :
    (visited.add state).states =
      if state ∈ visited then visited.states else visited.states ++ [state] := by
  unfold add
  split <;> simp [*]

theorem views_add (state : σ) (visited : Visited σ) :
    (visited.add state).views =
      if state ∈ visited then visited.views else visited.views ++ [view state] := by
  unfold add
  split <;> simp [*]

@[simp] theorem mem_add {state other : σ} {visited : Visited σ} :
    other ∈ visited.add state ↔ ObservablyEqual state other ∨ other ∈ visited := by
  rw [mem_iff, states_add]
  split
  · next h =>
      rw [← mem_iff]
      obtain ⟨known, hknown, heq⟩ := mem_iff.1 h
      exact ⟨Or.inr, fun hor => hor.elim
        (fun hs => mem_iff.2 ⟨known, hknown, heq.trans hs⟩) id⟩
  · rw [mem_iff]
    simp only [List.mem_append, List.mem_singleton]
    constructor
    · rintro ⟨known, hknown | rfl, heq⟩
      · exact .inr ⟨known, hknown, heq⟩
      · exact .inl heq
    · rintro (heq | ⟨known, hknown, heq⟩)
      · exact ⟨state, .inr rfl, heq⟩
      · exact ⟨known, .inl hknown, heq⟩

/-! ## Views decide -/

section

variable {τ : Type} [Observable τ] {visited : Visited σ} {twin : Visited τ}

theorem size_congr (hviews : twin.views = visited.views) : twin.size = visited.size := by
  have hlength := congrArg List.length hviews
  simpa [views_eq, size] using hlength

theorem mem_congr (hviews : twin.views = visited.views) {state : σ} {other : τ}
    (hview : view other = view state) : other ∈ twin ↔ state ∈ visited := by
  change view other ∈ twin.views ↔ view state ∈ visited.views
  rw [hviews, hview]

theorem views_add_congr (hviews : twin.views = visited.views) {state : σ} {other : τ}
    (hview : view other = view state) : (twin.add other).views = (visited.add state).views := by
  rw [views_add, views_add, hviews, hview]
  simp only [mem_congr hviews hview]

end

end Visited

end Playthrough
