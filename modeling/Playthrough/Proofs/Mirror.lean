import Playthrough.Proofs.Arrival

/-!
# Mirrored engines

An engine mirrors another if it answers the image of every state with the image of the
answer.  The interactables of an image are the old ones under new names, in any order.  Then the
runs of the one are the images of the runs of the other, with the same rules fired, and
walks by the two find the same up to order.
-/

namespace Playthrough

variable {σ τ ε ζ : Type}

def Outcome.image (change : σ → τ) (outcome : Outcome σ) : Outcome τ :=
  ⟨change outcome.next, outcome.rule⟩

def Interaction.image (change : σ → τ) (names : Text → Text) (interaction : Interaction σ) :
    Interaction τ :=
  ⟨change interaction.state, names interaction.entity, interaction.outcome.image change⟩

variable {change : σ → τ} {names : Text → Text}

@[simp] theorem fired_map_image (taken : List (Interaction σ)) :
    fired (taken.map (Interaction.image change names)) = fired taken := by
  unfold fired
  rw [List.filterMap_map]
  rfl

theorem passed_map_image (start : σ) (taken : List (Interaction σ)) :
    passed (change start) (taken.map (Interaction.image change names)) =
      (passed start taken).map change := by
  unfold passed
  rw [List.map_cons, List.map_map, List.map_map]
  rfl

theorem lastFired_map_image (root : Text) (taken : List (Interaction σ)) :
    lastFired root (taken.map (Interaction.image change names)) = lastFired root taken := by
  unfold lastFired
  rw [fired_map_image]

theorem arrival_map_image (root : Text) (taken : List (Interaction σ)) :
    arrival root (taken.map (Interaction.image change names)) = arrival root taken := by
  unfold arrival
  rw [fired_map_image]

variable [Observable σ] [Observable τ]

structure Engine.Mirrors (engine : Engine σ ε) (other : Engine τ ζ) (change : σ → τ)
    (names : Text → Text) : Prop where
  offers : ∀ state entity, entity ∈ interactables (change state) ↔
    ∃ old ∈ interactables state, names old = entity
  answers : ∀ state entity, ∃ outcome, engine.attempt entity state = .ok outcome ∧
    other.attempt (names entity) (change state) = .ok (outcome.image change)
  equal_iff : ∀ first second, ObservablyEqual (change first) (change second) ↔
    ObservablyEqual first second
  isComplete_eq : ∀ state, (view (change state)).isComplete = (view state).isComplete

namespace Engine.Mirrors

variable {engine : Engine σ ε} {other : Engine τ ζ} (h : engine.Mirrors other change names)
  {root : Text} {start : σ} {pair : Text × Text}
include h

/-! ## Runs -/

theorem isEnding_image_iff {outcome : Outcome σ} :
    (outcome.image change).IsEnding ↔ outcome.IsEnding := by
  unfold Outcome.IsEnding
  rw [Outcome.image, h.isComplete_eq]

theorem unfinished_map_image_iff {taken : List (Interaction σ)} :
    Unfinished (taken.map (Interaction.image change names)) ↔ Unfinished taken := by
  unfold Unfinished
  rw [List.forall_mem_map]
  exact forall₂_congr fun interaction _ => not_congr h.isEnding_image_iff

theorem answers_image {interaction : Interaction σ} (hanswers : engine.Answers interaction) :
    other.Answers (interaction.image change names) := by
  obtain ⟨outcome, hattempt, hother⟩ := h.answers interaction.state interaction.entity
  have hsame : interaction.outcome = outcome := by
    simpa [hanswers.2] using hattempt
  refine ⟨(h.offers _ _).2 ⟨_, hanswers.1, rfl⟩, ?_⟩
  rw [← hsame] at hother
  exact hother

theorem exists_answers {state : σ} {mirrored : Interaction τ}
    (hanswers : other.Answers mirrored) (hstate : mirrored.state = change state) :
    ∃ interaction, engine.Answers interaction ∧ interaction.state = state ∧
      mirrored = interaction.image change names := by
  obtain ⟨image, name, answer⟩ := mirrored
  obtain rfl : image = change state := hstate
  obtain ⟨entity, hentity, rfl⟩ := (h.offers _ _).1 hanswers.1
  obtain ⟨outcome, hattempt, hother⟩ := h.answers state entity
  obtain rfl : answer = outcome.image change := by
    simpa [hother] using hanswers.2.symm
  exact ⟨⟨state, entity, outcome⟩, ⟨hentity, hattempt⟩, rfl, rfl⟩

theorem run_image {state : σ} {taken : List (Interaction σ)}
    (hrun : engine.Run start taken state) :
    other.Run (change start) (taken.map (Interaction.image change names)) (change state) := by
  induction hrun with
  | here => exact .here
  | @step taken last _ hanswers ih =>
      rw [List.map_append, List.map_singleton]
      exact .step ih (h.answers_image hanswers)

theorem exists_run {reached : τ} {mirrored : List (Interaction τ)}
    (hrun : other.Run (change start) mirrored reached) :
    ∃ taken state, engine.Run start taken state ∧
      mirrored = taken.map (Interaction.image change names) ∧ reached = change state := by
  induction hrun with
  | here => exact ⟨[], start, .here, rfl, rfl⟩
  | @step mirrored last _ hanswers ih =>
      obtain ⟨taken, state, hbefore, rfl, hstate⟩ := ih
      obtain ⟨interaction, hold, rfl, rfl⟩ := h.exists_answers hanswers hstate
      exact ⟨taken ++ [interaction], _, hbefore.step hold, by simp, rfl⟩

theorem exists_run_snoc_iff {P : Interaction τ → Prop} :
    (∃ taken last state, other.Run (change start) (taken ++ [last]) state ∧
      Unfinished taken ∧ P last) ↔
    ∃ taken last state, engine.Run start (taken ++ [last]) state ∧ Unfinished taken ∧
      P (last.image change names) := by
  constructor
  · rintro ⟨_, _, _, hrun, hunfinished, hlast⟩
    obtain ⟨hbefore, hanswers, -⟩ := run_snoc_iff.1 hrun
    obtain ⟨taken, state, hold, rfl, hstate⟩ := h.exists_run hbefore
    obtain ⟨last, hnext, rfl, rfl⟩ := h.exists_answers hanswers hstate
    exact ⟨taken, last, _, hold.step hnext, h.unfinished_map_image_iff.1 hunfinished, hlast⟩
  · rintro ⟨taken, last, state, hrun, hunfinished, hlast⟩
    have himage := h.run_image hrun
    rw [List.map_append, List.map_singleton] at himage
    exact ⟨_, _, _, himage, h.unfinished_map_image_iff.2 hunfinished, hlast⟩

theorem congruent (hcongruent : engine.Congruent start) : other.Congruent (change start) := by
  rintro image alike ⟨_, himage⟩ ⟨_, halike⟩ hequal name hname answer hanswer
  obtain ⟨taken, first, hfirst, -, rfl⟩ := h.exists_run himage
  obtain ⟨later, second, hsecond, -, rfl⟩ := h.exists_run halike
  rw [h.equal_iff] at hequal
  obtain ⟨entity, hentity, rfl⟩ := (h.offers first name).1 hname
  obtain ⟨outcome, hattempt, hother⟩ := h.answers first entity
  obtain rfl : answer = outcome.image change := by
    simpa [hother] using hanswer.symm
  obtain ⟨reply, hreply, hrule, hnext⟩ :=
    hcongruent first second ⟨taken, hfirst⟩ ⟨later, hsecond⟩ hequal entity hentity _ hattempt
  have hanswers : engine.Answers ⟨second, entity, reply⟩ :=
    ⟨hequal.interactables_eq ▸ hentity, hreply⟩
  exact ⟨reply.image change, (h.answers_image hanswers).2, hrule, (h.equal_iff _ _).2 hnext⟩

/-! ## Direct runs -/

theorem direct_map_image_iff {state : σ} {taken : List (Interaction σ)}
    (hrun : engine.Run start taken state) :
    other.Direct (change start) (taken.map (Interaction.image change names)) (change state) ↔
      engine.Direct start taken state := by
  have hdistinct : (passed (change start) (taken.map (Interaction.image change names))).Pairwise
        (fun first second => ¬ ObservablyEqual first second) ↔
      (passed start taken).Pairwise fun first second => ¬ ObservablyEqual first second := by
    rw [passed_map_image, List.pairwise_map]
    simp only [h.equal_iff]
  constructor
  · intro hdirect
    exact ⟨hrun, h.unfinished_map_image_iff.1 hdirect.unfinished, hdistinct.1 hdirect.distinct⟩
  · intro hdirect
    exact ⟨h.run_image hrun, h.unfinished_map_image_iff.2 hdirect.unfinished,
      hdistinct.2 hdirect.distinct⟩

theorem exists_direct {reached : τ} {mirrored : List (Interaction τ)}
    (hdirect : other.Direct (change start) mirrored reached) :
    ∃ taken state, engine.Direct start taken state ∧
      mirrored = taken.map (Interaction.image change names) ∧ reached = change state := by
  obtain ⟨taken, state, hrun, rfl, rfl⟩ := h.exists_run hdirect.run
  exact ⟨taken, state, (h.direct_map_image_iff hrun).1 hdirect, rfl, rfl⟩

theorem fires_image {taken : List (Interaction σ)} {last : Interaction σ}
    (hfires : engine.Fires root start pair taken last) :
    other.Fires root (change start) pair (taken.map (Interaction.image change names))
      (last.image change names) where
  direct := (h.direct_map_image_iff hfires.direct.run).2 hfires.direct
  answers := h.answers_image hfires.answers
  source_eq := (lastFired_map_image root taken).trans hfires.source_eq
  rule_eq := hfires.rule_eq

theorem exists_fires {mirrored : List (Interaction τ)} {final : Interaction τ}
    (hfires : other.Fires root (change start) pair mirrored final) :
    ∃ taken last, engine.Fires root start pair taken last ∧
      mirrored = taken.map (Interaction.image change names) ∧
      final = last.image change names := by
  obtain ⟨taken, state, hdirect, rfl, hstate⟩ := h.exists_direct hfires.direct
  obtain ⟨last, hanswers, rfl, rfl⟩ := h.exists_answers hfires.answers hstate
  have hsource := hfires.source_eq
  rw [lastFired_map_image] at hsource
  exact ⟨taken, last, ⟨hdirect, hanswers, hsource, hfires.rule_eq⟩, rfl, rfl⟩

theorem advances_image_iff {taken : List (Interaction σ)} {last : Interaction σ} :
    Advances (change start) (taken.map (Interaction.image change names))
        (last.image change names) ↔ Advances start taken last := by
  unfold Advances
  rw [passed_map_image, List.forall_mem_map]
  exact or_congr h.isEnding_image_iff
    (forall₂_congr fun state _ => not_congr (h.equal_iff state last.outcome.next))

theorem occurs_iff : other.Occurs root (change start) pair ↔ engine.Occurs root start pair := by
  constructor
  · rintro ⟨_, _, hfires⟩
    obtain ⟨taken, last, hold, -, -⟩ := h.exists_fires hfires
    exact ⟨taken, last, hold⟩
  · rintro ⟨taken, last, hfires⟩
    exact ⟨_, _, h.fires_image hfires⟩

theorem draws_iff : other.Draws root (change start) pair ↔ engine.Draws root start pair := by
  constructor
  · rintro ⟨_, _, hfires, hadvances⟩
    obtain ⟨taken, last, hold, rfl, rfl⟩ := h.exists_fires hfires
    exact ⟨taken, last, hold, h.advances_image_iff.1 hadvances⟩
  · rintro ⟨taken, last, hfires, hadvances⟩
    exact ⟨_, _, h.fires_image hfires, h.advances_image_iff.2 hadvances⟩

theorem forces (hforces : engine.Forces root start pair) :
    other.Forces root (change start) pair := by
  obtain ⟨taken, last, hfires, hadvances, hended, hmet⟩ := hforces
  refine ⟨_, _, h.fires_image hfires, h.advances_image_iff.2 hadvances, ?_, ?_⟩
  · intro hending _ _ hdirect hequal
    obtain ⟨later, state, hold, rfl, rfl⟩ := h.exists_direct hdirect
    rw [lastFired_map_image]
    exact hended (h.isEnding_image_iff.1 hending) later state hold ((h.equal_iff _ _).1 hequal)
  · intro hopen _ _ hdirect hequal
    obtain ⟨later, state, hold, rfl, rfl⟩ := h.exists_direct hdirect
    rw [arrival_map_image]
    exact hmet (fun hending => hopen (h.isEnding_image_iff.2 hending)) later state hold
      ((h.equal_iff _ _).1 hequal)

theorem oneWay (hway : engine.OneWay root start) : other.OneWay root (change start) := by
  intro _ _ _ _ hfirst hsecond hequal
  obtain ⟨taken, state, hold, rfl, rfl⟩ := h.exists_direct hfirst
  obtain ⟨later, reached, hlater, rfl, rfl⟩ := h.exists_direct hsecond
  rw [arrival_map_image, arrival_map_image]
  exact hway _ _ _ _ hold hlater ((h.equal_iff _ _).1 hequal)

theorem anchored (hanchored : engine.Anchored root start) :
    other.Anchored root (change start) := by
  intro pair next hpair hdraws hnext htarget
  rw [h.occurs_iff] at hpair hnext
  rw [h.draws_iff] at hdraws
  exact hanchored pair next hpair hdraws hnext htarget

end Engine.Mirrors

/-! ## What walks by both find -/

theorem Visited.size_eq {visited : Visited σ} {other : Visited τ}
    (hequal : ∀ first second, ObservablyEqual (change first) (change second) ↔
      ObservablyEqual first second)
    (hmem : ∀ state, change state ∈ other ↔ state ∈ visited)
    (honto : ∀ reached ∈ other.states, ∃ state, ObservablyEqual (change state) reached) :
    other.size = visited.size := by
  have hnodup : ((visited.states.map change).map view).Nodup := by
    have hdistinct := visited.nodup
    rw [visited.views_eq] at hdistinct
    rw [List.map_map]
    refine List.pairwise_map.2 ((List.pairwise_map.1 hdistinct).imp fun hne heq => hne ?_)
    exact (hequal _ _).1 heq
  have hperm : other.views.Perm ((visited.states.map change).map view) := by
    refine (List.perm_ext_iff_of_nodup other.nodup hnodup).2 fun seen => ?_
    constructor
    · intro hseen
      rw [other.views_eq] at hseen
      obtain ⟨reached, hreached, rfl⟩ := List.mem_map.1 hseen
      obtain ⟨state, hstate⟩ := honto reached hreached
      have hvisited := (hmem state).1 (Visited.mem_iff.2 ⟨reached, hreached, hstate.symm⟩)
      obtain ⟨known, hknown, hsame⟩ := Visited.mem_iff.1 hvisited
      refine List.mem_map.2 ⟨change known, List.mem_map_of_mem hknown, ?_⟩
      exact ((hequal known state).2 hsame).trans hstate
    · intro hseen
      simp only [List.mem_map, exists_exists_and_eq_and] at hseen
      obtain ⟨state, hstate, rfl⟩ := hseen
      exact (hmem state).2 (Visited.mem_iff.2 ⟨state, hstate, rfl⟩)
  have hlength := hperm.length_eq
  simpa [other.views_eq, Visited.size] using hlength

namespace Walk

variable {engine : Engine σ ε} {other : Engine τ ζ} {config : Config} {start : σ}
  {walk : Walk σ} {mirrored : Walk τ}

/-- The rules at the end of completed paths are those that end an unfinished run. -/
theorem Finished.completes_iff (h : Finished engine config start walk)
    (hcongruent : engine.Congruent start) {rule : Text} :
    walk.record.Completes rule ↔
      ∃ taken last state, engine.Run start (taken ++ [last]) state ∧ Unfinished taken ∧
        last.outcome.rule = some rule ∧ last.outcome.IsEnding := by
  constructor
  · rintro ⟨path, hpath, edge, hlast, rfl⟩
    obtain ⟨taken, last, state, hrun, -, hrule, hending, hunfinished⟩ :=
      (h.turns.retelling.completed path hpath).run
    rw [hlast] at hrule
    exact ⟨taken, last, state, hrun, hunfinished, hrule, hending⟩
  · rintro ⟨taken, last, state, hrun, hunfinished, hrule, hending⟩
    have hsettles := h.saturating.settles_of_run h.stack_eq hrun hunfinished
      (hcongruent.evident_of_run hrun)
    exact (hsettles.1 rule hrule hending).2

section

variable (h : engine.Mirrors other change names) (hwalk : Finished engine config start walk)
  (hmirrored : Finished other config (change start) mirrored)
  (hcongruent : engine.Congruent start)
include h hwalk hmirrored hcongruent

theorem size_visited_eq_of_mirrors :
    mirrored.record.visited.size = walk.record.visited.size := by
  have hvisited := hwalk.saturating.mem_visited_iff hwalk.stack_eq hcongruent
  have hother := hmirrored.saturating.mem_visited_iff hmirrored.stack_eq
    (h.congruent hcongruent)
  refine Visited.size_eq h.equal_iff (fun state => ?_) fun reached hreached => ?_
  · rw [hvisited, hother]
    constructor
    · rintro ⟨_, _, hrun, hunfinished, hequal⟩
      obtain ⟨taken, reached, hold, rfl, rfl⟩ := h.exists_run hrun
      exact ⟨taken, reached, hold, h.unfinished_map_image_iff.1 hunfinished,
        (h.equal_iff _ _).1 hequal⟩
    · rintro ⟨taken, reached, hrun, hunfinished, hequal⟩
      exact ⟨_, _, h.run_image hrun, h.unfinished_map_image_iff.2 hunfinished,
        (h.equal_iff _ _).2 hequal⟩
  · obtain ⟨_, _, hrun, -, hequal⟩ :=
      (hother reached).1 (Visited.mem_iff.2 ⟨reached, hreached, rfl⟩)
    obtain ⟨-, state, -, -, rfl⟩ := h.exists_run hrun
    exact ⟨state, hequal⟩

theorem completes_iff_of_mirrors {rule : Text} :
    mirrored.record.Completes rule ↔ walk.record.Completes rule := by
  rw [hwalk.completes_iff hcongruent, hmirrored.completes_iff (h.congruent hcongruent),
    h.exists_run_snoc_iff]
  simp only [Interaction.image, h.isEnding_image_iff]
  rfl

theorem mem_nodes_iff_of_mirrors (hflag : config.includeNonProgressing = true)
    {node : Text} : node ∈ mirrored.record.nodes ↔ node ∈ walk.record.nodes := by
  rw [hwalk.saturating.mem_nodes_iff hwalk.stack_eq hwalk.naming hcongruent hflag,
    hmirrored.saturating.mem_nodes_iff hmirrored.stack_eq hmirrored.naming
      (h.congruent hcongruent) hflag, h.exists_run_snoc_iff]
  rfl

theorem mem_keys_iff_of_mirrors (hway : engine.OneWay config.root start)
    (hquiet : config.includeNonProgressing = true →
      engine.Anchored config.root start ∧
      ∀ pair, engine.Occurs config.root start pair → pair.2 ≠ config.root)
    {pair : Text × Text} :
    pair ∈ mirrored.record.edges.map Edge.key ↔ pair ∈ walk.record.edges.map Edge.key := by
  have hother := h.congruent hcongruent
  cases hflag : config.includeNonProgressing with
  | false =>
      rw [hwalk.mem_keys_iff_draws hcongruent hway hflag,
        hmirrored.mem_keys_iff_draws hother (h.oneWay hway) hflag, h.draws_iff]
  | true =>
      obtain ⟨hanchored, hroot⟩ := hquiet hflag
      have hroot' : ∀ pair, other.Occurs config.root (change start) pair →
          pair.2 ≠ config.root := fun pair hpair => hroot pair (h.occurs_iff.1 hpair)
      rw [hwalk.mem_keys_iff_occurs hcongruent hway hanchored hroot hflag,
        hmirrored.mem_keys_iff_occurs hother (h.oneWay hway) (h.anchored hanchored) hroot'
          hflag, h.occurs_iff]

end

end Walk

end Playthrough
