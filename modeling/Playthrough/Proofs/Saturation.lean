import Playthrough.Engine.Rules
import Playthrough.Proofs.Turn
import Playthrough.Story.Basic

/-!
# Saturation

A walk that comes to its end has tried every interactable of every state that it
recorded, each of them once, and has found nothing else.  On the way, what was tried
and what is still pending on the stack make up what the recorded states offer.
-/

namespace Playthrough

variable {σ ε : Type} [Observable σ]

def offered (states : List σ) : List (σ × Text) :=
  states.flatMap fun state => (interactables state).map fun entity => (state, entity)

@[simp] theorem mem_offered {states : List σ} {state : σ} {entity : Text} :
    (state, entity) ∈ offered states ↔ state ∈ states ∧ entity ∈ interactables state := by
  simp [offered]

@[simp] theorem offered_append (first second : List σ) :
    offered (first ++ second) = offered first ++ offered second :=
  List.flatMap_append

omit [Observable σ] in
def Interaction.attempted (interaction : Interaction σ) : σ × Text :=
  (interaction.state, interaction.entity)

def untried (stack : List (OpenFrame σ)) : List (σ × Text) :=
  stack.flatMap fun top => top.pending.map fun entity => (top.frame.state, entity)

/-- An interaction has left its trace: an ending completes a playthrough, and anything
else leads to a recorded state. -/
def Record.Settles (record : Record σ) (interaction : Interaction σ) : Prop :=
  (∀ rule, interaction.outcome.rule = some rule → interaction.outcome.IsEnding →
    rule ∈ record.nodes ∧ record.Completes rule) ∧
  (¬ interaction.outcome.IsEnding → interaction.outcome.next ∈ record.visited)

theorem Record.Grows.settles {before after : Record σ} (h : before.Grows after)
    {interaction : Interaction σ} (hsettles : before.Settles interaction) :
    after.Settles interaction := by
  constructor
  · intro rule hrule hending
    obtain ⟨hnode, hcompletes⟩ := hsettles.1 rule hrule hending
    exact ⟨h.nodes.subset hnode, h.completes hcompletes⟩
  · intro hopen
    exact h.mem_visited (hsettles.2 hopen)

/-- The orders in which states can be met: each state but the start comes from an
earlier one, by an interaction that ends nothing. -/
inductive Discovery (engine : Engine σ ε) (start : σ) : List σ → Prop
  | start : Discovery engine start [start]
  | next {seen : List σ} {interaction : Interaction σ} :
      Discovery engine start seen → interaction.state ∈ seen →
      engine.Answers interaction → ¬ interaction.outcome.IsEnding →
      Discovery engine start (seen ++ [interaction.outcome.next])

namespace Discovery

variable {engine : Engine σ ε} {start : σ}

theorem head?_eq {seen : List σ} (h : Discovery engine start seen) :
    seen.head? = some start := by
  induction h with
  | start => rfl
  | next _ _ _ _ ih => simp [ih]

theorem exists_earlier {seen : List σ} (h : Discovery engine start seen)
    {before after : List σ} {state : σ} (hseen : seen = before ++ state :: after)
    (hbefore : before ≠ []) :
    ∃ interaction, interaction.state ∈ before ∧ engine.Answers interaction ∧
      interaction.outcome.next = state := by
  induction h generalizing after with
  | start =>
      cases before with
      | nil => exact absurd rfl hbefore
      | cons first rest => simp at hseen
  | @next seen interaction _ hstate hanswers _ ih =>
      rcases List.eq_nil_or_concat after with rfl | ⟨rest, last, rfl⟩
      · obtain ⟨rfl, heq⟩ := List.append_inj' hseen rfl
        cases heq
        exact ⟨interaction, hstate, hanswers, rfl⟩
      · rw [List.concat_eq_append, ← List.cons_append, ← List.append_assoc] at hseen
        exact ih (List.append_inj' hseen rfl).1

theorem exists_run {seen : List σ} (h : Discovery engine start seen) :
    ∀ state ∈ seen, ∃ taken, engine.Run start taken state ∧ Unfinished taken := by
  induction h with
  | start =>
      intro state hstate
      rw [List.mem_singleton.1 hstate]
      exact ⟨[], .here, unfinished_nil⟩
  | @next seen interaction _ hearlier hanswers hopen ih =>
      intro state hstate
      rcases List.mem_append.1 hstate with hold | hnew
      · exact ih state hold
      · obtain ⟨taken, hrun, hunfinished⟩ := ih interaction.state hearlier
        rw [List.mem_singleton.1 hnew]
        exact ⟨taken ++ [interaction], .step hrun hanswers,
          unfinished_snoc.2 ⟨hunfinished, hopen⟩⟩

end Discovery

namespace Walk

/-! ## The invariant -/

structure Saturating (engine : Engine σ ε) (start : σ) (walk : Walk σ) : Prop where
  discovered : Discovery engine start walk.record.visited.states
  balanced : (walk.interactions.map Interaction.attempted ++ untried walk.stack).Perm
    (offered walk.record.visited.states)
  answered : ∀ interaction ∈ walk.interactions, engine.Answers interaction
  settled : ∀ interaction ∈ walk.interactions, walk.record.Settles interaction
  counted : walk.record.completed.length =
    walk.interactions.countP fun interaction => interaction.outcome.IsEnding

variable {engine : Engine σ ε} {config : Config} {start : σ}

theorem saturating_fresh : Saturating engine start (fresh config start) where
  discovered := by
    rw [states_fresh]
    exact .start
  balanced := by
    rw [states_fresh]
    simp [fresh, Walk.start, openFrame, interactions, untried, offered]
  answered := by simp [fresh, Walk.start, interactions]
  settled := by simp [fresh, Walk.start, interactions]
  counted := by simp [fresh, Walk.start, interactions, Record.start]

theorem untried_advance (config : Config) (step : Step σ) (walk : Walk σ) :
    untried (advance config step walk).stack =
      offered (step.child?.map Frame.state).toList ++ untried walk.stack := by
  cases hchild : step.child? with
  | none => simp [advance, hchild, offered]
  | some child => simp [advance, hchild, offered, untried, openFrame]

section

variable {frame : Frame σ} {entity : Text} {pending : List Text}
  {below : List (OpenFrame σ)} {record : Record σ} {history : List (Step σ × Record σ)}
  {outcome : Outcome σ} {step : Step σ}

theorem Saturating.answers_top
    (h : Saturating engine start ⟨⟨frame, entity :: pending⟩ :: below, record, history⟩)
    (answer : engine.attempt entity frame.state = .ok outcome) :
    frame.state ∈ record.visited.states ∧
      engine.Answers ⟨frame.state, entity, outcome⟩ := by
  have hoffered : (frame.state, entity) ∈ offered record.visited.states :=
    h.balanced.subset (by simp [untried])
  obtain ⟨hstate, hentity⟩ := mem_offered.1 hoffered
  exact ⟨hstate, hentity, answer⟩

theorem Saturating.discovered_enter
    (h : Saturating engine start ⟨⟨frame, entity :: pending⟩ :: below, record, history⟩)
    (answer : engine.attempt entity frame.state = .ok outcome)
    (judged : Step.Judged config record frame entity outcome step) :
    Discovery engine start (step.enter config record).visited.states := by
  obtain ⟨hstate, hanswers⟩ := h.answers_top answer
  rw [judged.states_enter]
  cases hchild : step.child? with
  | none => simpa using h.discovered
  | some child =>
      have hnext := h.discovered.next hstate hanswers (judged.not_isEnding_of_child hchild)
      simpa [judged.child_eq_after hchild, Frame.state_after] using hnext

theorem Saturating.balanced_advance
    (h : Saturating engine start ⟨⟨frame, entity :: pending⟩ :: below, record, history⟩)
    (judged : Step.Judged config record frame entity outcome step) :
    let after := advance config step ⟨⟨frame, pending⟩ :: below, record, history⟩
    (after.interactions.map Interaction.attempted ++ untried after.stack).Perm
      (offered after.record.visited.states) := by
  intro after
  have htop : untried (⟨frame, entity :: pending⟩ :: below) =
      (frame.state, entity) :: untried (⟨frame, pending⟩ :: below) := by simp [untried]
  have hbalanced := h.balanced
  rw [htop] at hbalanced
  change (after.interactions.map _ ++ untried after.stack).Perm
    (offered (step.enter config record).visited.states)
  rw [judged.states_enter, offered_append, interactions_advance, untried_advance,
    judged.interaction_eq]
  -- the child's interactables stand in front of the stack, and at the end of what is offered
  refine List.Perm.trans ?_ (hbalanced.append_right _)
  simp only [List.map_append, List.map_cons, List.map_nil, List.append_assoc,
    List.cons_append, List.nil_append]
  exact .append_left _ (.cons _ List.perm_append_comm)

theorem Saturating.settled_advance
    (h : Saturating engine start ⟨⟨frame, entity :: pending⟩ :: below, record, history⟩)
    (judged : Step.Judged config record frame entity outcome step) :
    let after := advance config step ⟨⟨frame, pending⟩ :: below, record, history⟩
    ∀ interaction ∈ after.interactions, after.record.Settles interaction := by
  intro after interaction hinteraction
  rcases (mem_interactions_advance judged).1 hinteraction with hold | rfl
  · exact (step.grows_enter config record).settles (h.settled interaction hold)
  · constructor
    · intro rule hrule hending
      exact judged.completes_enter hending hrule
    · intro hopen
      exact judged.next_mem_visited hopen

theorem Saturating.counted_advance
    (h : Saturating engine start ⟨⟨frame, entity :: pending⟩ :: below, record, history⟩)
    (judged : Step.Judged config record frame entity outcome step) :
    let after := advance config step ⟨⟨frame, pending⟩ :: below, record, history⟩
    after.record.completed.length =
      after.interactions.countP fun interaction => interaction.outcome.IsEnding := by
  intro after
  rw [interactions_advance, judged.interaction_eq, List.countP_append]
  change (step.enter config record).completed.length = _
  rw [judged.length_completed_enter]
  have hcounted := h.counted
  simp only [List.countP_singleton, decide_eq_true_eq]
  exact congrArg (· + _) hcounted

end

theorem Turn.saturating {walk after : Walk σ} (turn : Turn engine config walk after)
    (h : Saturating engine start walk) : Saturating engine start after := by
  cases turn with
  | leave => exact ⟨h.discovered, h.balanced, h.answered, h.settled, h.counted⟩
  | @attempt frame entity pending below record history outcome step answer judged =>
      refine ⟨h.discovered_enter answer judged, h.balanced_advance judged, ?_,
        h.settled_advance judged, h.counted_advance judged⟩
      intro interaction hinteraction
      rcases (mem_interactions_advance judged).1 hinteraction with hold | rfl
      · exact h.answered interaction hold
      · exact (h.answers_top answer).2

/-! ## Walks that have ended -/

theorem Turns.saturating {walk : Walk σ}
    (turns : Turns engine config (fresh config start) walk) : Saturating engine start walk :=
  turns.keeps (fun _ _ turn => turn.saturating) saturating_fresh

theorem Finished.saturating {walk : Walk σ} (h : Finished engine config start walk) :
    Saturating engine start walk :=
  h.turns.saturating

theorem Saturating.perm_offered {walk : Walk σ} (h : Saturating engine start walk)
    (hstack : walk.stack = []) :
    (walk.interactions.map Interaction.attempted).Perm
      (offered walk.record.visited.states) := by
  have hbalanced := h.balanced
  rw [hstack] at hbalanced
  simpa [untried] using hbalanced

theorem Saturating.exists_tried {walk : Walk σ} (h : Saturating engine start walk)
    (hstack : walk.stack = []) {state : σ} {entity : Text}
    (hstate : state ∈ walk.record.visited.states) (hentity : entity ∈ interactables state) :
    ∃ outcome, ⟨state, entity, outcome⟩ ∈ walk.interactions := by
  have hoffered : (state, entity) ∈ offered walk.record.visited.states :=
    mem_offered.2 ⟨hstate, hentity⟩
  obtain ⟨interaction, htried, heq⟩ :=
    List.mem_map.1 ((h.perm_offered hstack).symm.subset hoffered)
  obtain ⟨first, second, outcome⟩ := interaction
  cases heq
  exact ⟨outcome, htried⟩

end Walk

def Engine.endsAt (engine : Engine σ ε) (pair : σ × Text) : Bool :=
  match engine.attempt pair.2 pair.1 with
  | .ok outcome => decide outcome.IsEnding
  | .error _ => false

namespace Walk

variable {engine : Engine σ ε} {start : σ}

theorem Saturating.countP_endsAt {walk : Walk σ} (h : Saturating engine start walk)
    (hstack : walk.stack = []) :
    (offered walk.record.visited.states).countP engine.endsAt =
      walk.record.completed.length := by
  rw [← (h.perm_offered hstack).countP_eq, List.countP_map, h.counted]
  refine List.countP_congr fun interaction hinteraction => ?_
  have hattempt := (h.answered interaction hinteraction).2
  simp [Engine.endsAt, Interaction.attempted, hattempt]

/-- Each state that a walk recorded was expanded exactly once, and that is all that was
tried. -/
structure Exhausts (engine : Engine σ ε) (start : σ) (walk : Walk σ) : Prop where
  starts : walk.record.visited.states.head? = some start
  distinct : walk.record.visited.states.Pairwise fun a b => ¬ ObservablyEqual a b
  tried : (walk.interactions.map Interaction.attempted).Perm
    (offered walk.record.visited.states)
  met : ∀ before state after, walk.record.visited.states = before ++ state :: after →
    before ≠ [] → ∃ interaction, interaction.state ∈ before ∧ engine.Answers interaction ∧
      interaction.outcome.next = state
  settled : ∀ state ∈ walk.record.visited.states, ∀ entity ∈ interactables state,
    ∃ outcome, engine.attempt entity state = .ok outcome ∧
      walk.record.Settles ⟨state, entity, outcome⟩
  completed : walk.record.completed.length =
    (offered walk.record.visited.states).countP engine.endsAt

theorem build_exhausts (engine : Engine σ ε) (config : Config) (start : σ)
    (record : Record σ) (h : build engine config start = .ok record) :
    ∃ walk, explore engine config ⟨[], start, config.root⟩ (.start start config.root) =
        (walk, none) ∧
      walk.record = record ∧ walk.Exhausts engine start := by
  obtain ⟨walk, hfinished, hrecord⟩ := build_finished h
  have hsaturating := hfinished.saturating
  have hstack := hfinished.stack_eq
  refine ⟨walk, hfinished.explored, hrecord, ?_⟩
  constructor
  · exact hsaturating.discovered.head?_eq
  · have hnodup := walk.record.visited.nodup
    rw [walk.record.visited.views_eq] at hnodup
    exact List.pairwise_map.1 hnodup
  · exact hsaturating.perm_offered hstack
  · intro before state after hstates hbefore
    exact hsaturating.discovered.exists_earlier hstates hbefore
  · intro state hstate entity hentity
    obtain ⟨outcome, htried⟩ := hsaturating.exists_tried hstack hstate hentity
    exact ⟨outcome, (hsaturating.answered _ htried).2, hsaturating.settled _ htried⟩
  · exact (hsaturating.countP_endsAt hstack).symm

end Walk

/-- With the umbrella taken there is a way out. -/
def Story.umbrella : Story where
  title := "Umbrella"
  manifest :=
    { items := ["Umbrella"]
      locations := ["Home", "Porch"]
      characters := []
      startLocation := "Home"
      itemPlacement := .ofList [("Umbrella", "Home")]
      characterPlacement := ∅
      startScene := "start" }
  rules := [
    { summary := "TakeUmbrella"
      trigger := "Umbrella"
      preconditions := [⟨.itemNotInInventory, "Umbrella", none⟩]
      effects := [⟨.moveItemToInventory, "Umbrella", none⟩, ⟨.discoverLocation, "Porch", none⟩]
      priority := 0 },
    { summary := "GoOut"
      trigger := "Porch"
      preconditions := [⟨.itemInInventory, "Umbrella", none⟩]
      effects := [⟨.movePlayerTo, "Porch", none⟩, ⟨.setEnding, "Dry", none⟩]
      priority := 0 }]

/-- The umbrella is carried, and the porch is in sight. -/
def Story.umbrellaTaken : World :=
  { umbrella.manifest.startWorld with
    items := .ofList [("Umbrella", inventoryPlace)]
    discovered := .ofList ["Home", "Porch"] }

namespace Walk

def umbrellaPath : List Edge :=
  [⟨"Begining", "TakeUmbrella", "black"⟩, ⟨"TakeUmbrella", "GoOut", "black"⟩]

/-- The way out is found before the walk comes back to what else there is at home. -/
def umbrellaTried : List (World × Text) := [
  (Story.umbrella.manifest.startWorld, "Umbrella"), (Story.umbrellaTaken, "Umbrella"),
  (Story.umbrellaTaken, "Home"), (Story.umbrellaTaken, "Porch"),
  (Story.umbrella.manifest.startWorld, "Home")]

theorem umbrella_exhausts :
    ∃ (record : Record World) (walk : Walk World),
      build (Rule.engine Story.umbrella.rules) {} Story.umbrella.manifest.startWorld =
        .ok record ∧ walk.record = record ∧
      walk.Exhausts (Rule.engine Story.umbrella.rules)
        Story.umbrella.manifest.startWorld ∧
      record.visited.states = [Story.umbrella.manifest.startWorld, Story.umbrellaTaken] ∧
      walk.interactions.map Interaction.attempted = umbrellaTried ∧
      record.completed = [umbrellaPath] := by
  obtain ⟨record, hbuild, hstates, hcompleted⟩ : ∃ record,
      build (Rule.engine Story.umbrella.rules) {} Story.umbrella.manifest.startWorld =
        .ok record ∧
      record.visited.states = [Story.umbrella.manifest.startWorld, Story.umbrellaTaken] ∧
      record.completed = [umbrellaPath] := ⟨_, rfl, by decide, by decide⟩
  obtain ⟨walk, hexplored, hrecord, hexhausts⟩ := build_exhausts _ _ _ record hbuild
  have htried : walk.interactions.map Interaction.attempted = umbrellaTried := by
    rw [← (finished_of_explore hexplored).fst_explore]
    decide
  exact ⟨record, walk, hbuild, hrecord, hexhausts, hstates, htried, hcompleted⟩

end Walk

end Playthrough
