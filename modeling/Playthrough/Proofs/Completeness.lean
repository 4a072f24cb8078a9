import Mathlib.Data.List.Nodup
import Playthrough.Proofs.Naming
import Playthrough.Proofs.Saturation

/-!
# Completeness up to what is seen

A walk goes on from one state of each view.  What it finds there it finds for every
state with that view which the engine answers alike.
-/

namespace Playthrough

variable {σ ε : Type} [Observable σ]

theorem ObservablyEqual.interactables_eq {state other : σ}
    (h : ObservablyEqual state other) : interactables state = interactables other :=
  congrArg View.interactables h

/-- The same rule fires, or none, and what follows looks the same. -/
def Outcome.Alike (outcome other : Outcome σ) : Prop :=
  other.rule = outcome.rule ∧ ObservablyEqual outcome.next other.next

theorem Outcome.Alike.isEnding_iff {outcome other : Outcome σ} (h : outcome.Alike other) :
    other.IsEnding ↔ outcome.IsEnding := by
  have hnext : view outcome.next = view other.next := h.2
  unfold IsEnding
  rw [h.1, hnext]

namespace Engine

/-- Reachable states that look the same are answered alike. -/
def Congruent (engine : Engine σ ε) (start : σ) : Prop :=
  ∀ state other, engine.Reachable start state → engine.Reachable start other →
    ObservablyEqual state other → ∀ entity ∈ interactables state, ∀ outcome,
      engine.attempt entity state = .ok outcome →
      ∃ answer, engine.attempt entity other = .ok answer ∧ outcome.Alike answer

/-- What is tried is answered alike wherever it could be tried in sight of the same. -/
def Evident (engine : Engine σ ε) (start : σ) (interaction : Interaction σ) : Prop :=
  ∀ other, engine.Reachable start other → ObservablyEqual interaction.state other →
    ∃ answer, engine.attempt interaction.entity other = .ok answer ∧
      interaction.outcome.Alike answer

theorem Congruent.evident {engine : Engine σ ε} {start : σ} (h : engine.Congruent start)
    {interaction : Interaction σ} (hreachable : engine.Reachable start interaction.state)
    (hanswers : engine.Answers interaction) : engine.Evident start interaction := by
  intro other hother hequal
  exact h _ other hreachable hother hequal _ hanswers.1 _ hanswers.2

theorem Congruent.evident_of_run {engine : Engine σ ε} {start : σ}
    (h : engine.Congruent start) {taken : List (Interaction σ)} {state : σ}
    (hrun : engine.Run start taken state) :
    ∀ interaction ∈ taken, engine.Evident start interaction := by
  induction hrun with
  | here => simp
  | @step taken last hrun hanswers ih =>
      intro interaction hinteraction
      rcases List.mem_append.1 hinteraction with hold | hnew
      · exact ih interaction hold
      · rw [List.mem_singleton.1 hnew]
        exact h.evident ⟨taken, hrun⟩ hanswers

theorem Closed.congruent {engine : Engine σ ε} {states : List σ} {start : σ}
    (h : engine.Closed states) (hstart : start ∈ states)
    (hdistinct : (states.map view).Nodup) : engine.Congruent start := by
  intro state other hstate hother hequal entity hentity outcome hattempt
  have hsame : state = other := List.inj_on_of_nodup_map hdistinct
    (h.mem_of_reachable hstart hstate) (h.mem_of_reachable hstart hother) hequal
  exact ⟨outcome, hsame ▸ hattempt, rfl, rfl⟩

end Engine

namespace Walk

variable {engine : Engine σ ε} {config : Config} {start : σ} {walk : Walk σ}

/-! ## Transport to the recorded states -/

theorem Saturating.exists_alike (h : Saturating engine start walk) (hstack : walk.stack = [])
    {interaction : Interaction σ} (hvisited : interaction.state ∈ walk.record.visited)
    (hanswers : engine.Answers interaction) (hevident : engine.Evident start interaction) :
    ∃ tried ∈ walk.interactions, ObservablyEqual tried.state interaction.state ∧
      interaction.outcome.Alike tried.outcome := by
  obtain ⟨state, hstate, hequal⟩ := Visited.mem_iff.1 hvisited
  have hentity : interaction.entity ∈ interactables state := by
    rw [hequal.interactables_eq]
    exact hanswers.1
  obtain ⟨outcome, htried⟩ := h.exists_tried hstack hstate hentity
  obtain ⟨taken, hrun, hunfinished⟩ := h.discovered.exists_run state hstate
  obtain ⟨answer, hanswer, halike⟩ := hevident state ⟨taken, hrun⟩ hequal.symm
  have hattempt := (h.answered _ htried).2
  simp only [hanswer, Except.ok.injEq] at hattempt
  subst hattempt
  exact ⟨_, htried, hequal, halike⟩

theorem Saturating.settles_of_evident (h : Saturating engine start walk)
    (hstack : walk.stack = []) {interaction : Interaction σ}
    (hvisited : interaction.state ∈ walk.record.visited)
    (hanswers : engine.Answers interaction) (hevident : engine.Evident start interaction) :
    walk.record.Settles interaction := by
  obtain ⟨tried, htried, -, halike⟩ := h.exists_alike hstack hvisited hanswers hevident
  obtain ⟨hcompletes, hvisits⟩ := h.settled tried htried
  constructor
  · intro rule hrule hending
    exact hcompletes rule (halike.1.trans hrule) (halike.isEnding_iff.2 hending)
  · intro hopen
    obtain ⟨state, hstate, hequal⟩ :=
      Visited.mem_iff.1 (hvisits fun hending => hopen (halike.isEnding_iff.1 hending))
    exact Visited.mem_iff.2 ⟨state, hstate, hequal.trans halike.2.symm⟩

theorem Saturating.visited_of_run (h : Saturating engine start walk)
    (hstack : walk.stack = []) {taken : List (Interaction σ)} {state : σ}
    (hrun : engine.Run start taken state) (hunfinished : Unfinished taken)
    (hevident : ∀ interaction ∈ taken, engine.Evident start interaction) :
    state ∈ walk.record.visited := by
  induction hrun with
  | here =>
      have hhead := List.mem_of_mem_head? (Option.mem_def.2 h.discovered.head?_eq)
      exact Visited.mem_iff.2 ⟨start, hhead, rfl⟩
  | @step taken last hrun hanswers ih =>
      obtain ⟨hbefore, hopen⟩ := unfinished_snoc.1 hunfinished
      have hvisited := ih hbefore fun interaction hinteraction =>
        hevident interaction (List.mem_append_left _ hinteraction)
      have hlast := hevident last (by simp)
      exact (h.settles_of_evident hstack hvisited hanswers hlast).2 hopen

theorem Saturating.settles_of_run (h : Saturating engine start walk)
    (hstack : walk.stack = []) {taken : List (Interaction σ)} {last : Interaction σ}
    {state : σ} (hrun : engine.Run start (taken ++ [last]) state)
    (hunfinished : Unfinished taken)
    (hevident : ∀ interaction ∈ taken ++ [last], engine.Evident start interaction) :
    walk.record.Settles last := by
  obtain ⟨hbefore, hanswers, -⟩ := Engine.run_snoc_iff.1 hrun
  have hvisited := h.visited_of_run hstack hbefore hunfinished fun interaction hinteraction =>
    hevident interaction (List.mem_append_left _ hinteraction)
  exact h.settles_of_evident hstack hvisited hanswers (hevident last (by simp))

/-! ## What the record holds -/

theorem Saturating.mem_visited_iff (h : Saturating engine start walk)
    (hstack : walk.stack = []) (hcongruent : engine.Congruent start) (state : σ) :
    state ∈ walk.record.visited ↔
      ∃ taken reached, engine.Run start taken reached ∧ Unfinished taken ∧
        ObservablyEqual reached state := by
  constructor
  · intro hvisited
    obtain ⟨reached, hreached, hequal⟩ := Visited.mem_iff.1 hvisited
    obtain ⟨taken, hrun, hunfinished⟩ := h.discovered.exists_run reached hreached
    exact ⟨taken, reached, hrun, hunfinished, hequal⟩
  · rintro ⟨taken, reached, hrun, hunfinished, hequal⟩
    have hvisited := h.visited_of_run hstack hrun hunfinished (hcongruent.evident_of_run hrun)
    obtain ⟨other, hother, hequal'⟩ := Visited.mem_iff.1 hvisited
    exact Visited.mem_iff.2 ⟨other, hother, hequal'.trans hequal⟩

theorem Saturating.mem_nodes_iff (h : Saturating engine start walk)
    (hstack : walk.stack = []) (hnaming : Naming config walk)
    (hcongruent : engine.Congruent start) (hflag : config.includeNonProgressing = true)
    (node : Text) :
    node ∈ walk.record.nodes ↔ node = config.root ∨
      ∃ taken last state, engine.Run start (taken ++ [last]) state ∧ Unfinished taken ∧
        last.outcome.rule = some node := by
  constructor
  · intro hnode
    rcases hnaming.fired node hnode with hroot | ⟨last, htried, hrule⟩
    · exact .inl hroot
    · have hanswers := h.answered last htried
      have hoffered := (h.perm_offered hstack).subset (List.mem_map_of_mem htried)
      obtain ⟨taken, hrun, hunfinished⟩ :=
        h.discovered.exists_run last.state (mem_offered.1 hoffered).1
      exact .inr ⟨taken, last, _, hrun.step hanswers, hunfinished, hrule⟩
  · rintro (rfl | ⟨taken, last, state, hrun, hunfinished, hrule⟩)
    · exact hnaming.root_mem
    · obtain ⟨hbefore, hanswers, -⟩ := Engine.run_snoc_iff.1 hrun
      have hevident := hcongruent.evident_of_run hrun
      have hvisited := h.visited_of_run hstack hbefore hunfinished
        (hcongruent.evident_of_run hbefore)
      obtain ⟨tried, htried, -, halike⟩ :=
        h.exists_alike hstack hvisited hanswers (hevident last (by simp))
      exact hnaming.flavored hflag tried htried node (halike.1.trans hrule)

/-- Up to looks, a record has whatever unfinished runs can reach, every ending that comes
next, and every rule that fires. -/
structure Covers (engine : Engine σ ε) (config : Config) (start : σ) (record : Record σ) :
    Prop where
  reached : ∀ state, state ∈ record.visited ↔
    ∃ taken reached, engine.Run start taken reached ∧ Unfinished taken ∧
      ObservablyEqual reached state
  ended : ∀ taken last state rule, engine.Run start (taken ++ [last]) state →
    Unfinished taken → last.outcome.rule = some rule → last.outcome.IsEnding →
    record.Completes rule
  named : config.includeNonProgressing = true → ∀ node, node ∈ record.nodes ↔
    node = config.root ∨
      ∃ taken last state, engine.Run start (taken ++ [last]) state ∧ Unfinished taken ∧
        last.outcome.rule = some node

/-- If states that look the same are answered alike, a walk finds everything up to looks. -/
theorem build_covers (engine : Engine σ ε) (config : Config) (start : σ)
    (record : Record σ) (h : build engine config start = .ok record)
    (hcongruent : engine.Congruent start) : Covers engine config start record := by
  obtain ⟨walk, hfinished, rfl⟩ := build_finished h
  have hsaturating := hfinished.saturating
  have hstack := hfinished.stack_eq
  constructor
  · exact hsaturating.mem_visited_iff hstack hcongruent
  · intro taken last state rule hrun hunfinished hrule hending
    have hsettles := hsaturating.settles_of_run hstack hrun hunfinished
      (hcongruent.evident_of_run hrun)
    exact (hsettles.1 rule hrule hending).2
  · intro hflag
    exact hsaturating.mem_nodes_iff hstack hfinished.naming hcongruent hflag

end Walk

/-! ## An engine that answers by looks -/

namespace Story

def umbrellaDry : World := { umbrellaTaken with location := "Porch", ending := some "Dry" }

theorem umbrella_congruent :
    (Rule.engine umbrella.rules).Congruent umbrella.manifest.startWorld := by
  have hclosed : (Rule.engine umbrella.rules).Closed
      [umbrella.manifest.startWorld, umbrellaTaken, umbrellaDry] := by decide +kernel
  exact hclosed.congruent (by decide) (by decide)

end Story

theorem Walk.umbrella_covers :
    ∃ record, build (Rule.engine Story.umbrella.rules) { includeNonProgressing := true }
        Story.umbrella.manifest.startWorld = .ok record ∧
      (Rule.engine Story.umbrella.rules).Congruent Story.umbrella.manifest.startWorld ∧
      Covers (Rule.engine Story.umbrella.rules) { includeNonProgressing := true }
        Story.umbrella.manifest.startWorld record ∧
      record.visited.states = [Story.umbrella.manifest.startWorld, Story.umbrellaTaken] ∧
      record.nodes = ["Begining", "TakeUmbrella", "GoOut"] ∧
      record.completed = [umbrellaPath] := by
  obtain ⟨record, hbuild, hstates, hnodes, hcompleted⟩ : ∃ record,
      build (Rule.engine Story.umbrella.rules) { includeNonProgressing := true }
        Story.umbrella.manifest.startWorld = .ok record ∧
      record.visited.states = [Story.umbrella.manifest.startWorld, Story.umbrellaTaken] ∧
      record.nodes = ["Begining", "TakeUmbrella", "GoOut"] ∧
      record.completed = [umbrellaPath] := ⟨_, rfl, by decide, by decide, by decide⟩
  exact ⟨record, hbuild, Story.umbrella_congruent,
    build_covers _ _ _ record hbuild Story.umbrella_congruent, hstates, hnodes, hcompleted⟩

end Playthrough
