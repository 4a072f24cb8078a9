import Playthrough.Proofs.Acceptance
import Playthrough.Proofs.Completeness
import Playthrough.Proofs.Scope
import Playthrough.Story.Graph

/-!
# Endings of stories

The graph of an accepted story is always built.  It has the ending of every run whose
interactions are answered alike wherever the same is seen.  Other endings can be missed:
what lies out of sight does not count for a walk.
-/

namespace Playthrough

namespace Rule

/-! ## Walks by rules -/

theorem exists_build {rules : List Rule}
    (h : ∀ entity world, ∃ outcome, (engine rules).attempt entity world = .ok outcome)
    (config : Config) (start : World) :
    ∃ record, Walk.build (engine rules) config start = .ok record := by
  unfold Walk.build
  cases hexplore : Walk.explore (engine rules) config ⟨[], start, config.root⟩
      (.start start config.root) with
  | mk walk stop =>
      cases stop with
      | none => exact ⟨walk.record, rfl⟩
      | some stop =>
          cases stop with
          | broken fault =>
              obtain ⟨entity, world, hfault⟩ :=
                (Walk.breaks_of_run (congrArg Prod.snd hexplore)).exists_attempt
              obtain ⟨outcome, hok⟩ := h entity world
              rw [hok] at hfault
              cases hfault
          | exhausted =>
              have hspent := congrArg Prod.snd hexplore
              exact absurd hspent (explore_not_exhausted rules config _ _)

theorem ending_eq_none_of_fired {rules : List Rule} {entity rule : Text} {world : World}
    {outcome : Outcome World} (h : (engine rules).attempt entity world = .ok outcome)
    (hrule : outcome.rule = some rule) : world.ending = none :=
  (attempt_fired h hrule).1

theorem ending_eq_none_of_next {rules : List Rule} {entity : Text} {world : World}
    {outcome : Outcome World} (h : (engine rules).attempt entity world = .ok outcome)
    (hnext : outcome.next.ending = none) : world.ending = none := by
  rcases attempt_cases h with ⟨hended, rfl⟩ | ⟨hopen, -⟩ | ⟨hopen, -⟩
  · exact absurd hnext hended
  · exact hopen
  · exact hopen

/-- Endings stay.  So no ending has been set on the way to a world without one. -/
theorem unfinished_of_run {rules : List Rule} {start world : World}
    {taken : List (Interaction World)} (hrun : (engine rules).Run start taken world)
    (hopen : world.ending = none) : Unfinished taken := by
  induction hrun with
  | here => exact unfinished_nil
  | @step taken last _ hanswers ih =>
      refine unfinished_snoc.2 ⟨ih (ending_eq_none_of_next hanswers.2 hopen), ?_⟩
      rintro ⟨-, hcomplete⟩
      obtain ⟨ending, hending, -⟩ := View.isComplete_iff.1 hcomplete
      change last.outcome.next.ending = some ending at hending
      rw [hopen] at hending
      cases hending

end Rule

theorem Story.graph_eq_ok {story : Story} {config : Config} {record : Record World}
    (h : Walk.build (Rule.engine story.rules) config story.manifest.startWorld = .ok record) :
    story.graph config = .ok (.ofRecord config record) := by
  unfold Story.graph Graph.build
  rw [h]
  rfl

theorem Story.Consistent.exists_graph {story : Story} {root : Text}
    (h : story.Consistent root) (config : Config) : ∃ graph, story.graph config = .ok graph := by
  obtain ⟨record, hbuild⟩ :=
    Rule.exists_build h.exists_attempt config story.manifest.startWorld
  exact ⟨_, graph_eq_ok hbuild⟩

/-! ## What a graph shows of the endings -/

structure Graph.Finds (graph : Graph) (rule : Text) : Prop where
  node : rule ∈ graph.nodes
  completed : ∃ path ∈ graph.completedPaths, ∃ edge,
    path.getLast? = some edge ∧ edge.target = rule

/-- The last interaction of a run fires a rule into a named ending. -/
structure Story.Ends (story : Story) (taken : List (Interaction World))
    (last : Interaction World) (rule : Text) : Prop where
  run : (Rule.engine story.rules).Run story.manifest.startWorld (taken ++ [last])
    last.outcome.next
  fires : last.outcome.rule = some rule
  ends : ∃ ending, last.outcome.next.ending = some ending ∧ ending ≠ ""

theorem Story.Ends.isEnding {story : Story} {taken : List (Interaction World)}
    {last : Interaction World} {rule : Text} (h : story.Ends taken last rule) :
    last.outcome.IsEnding := by
  refine ⟨?_, View.isComplete_iff.2 h.ends⟩
  rw [h.fires]
  rfl

theorem Story.Ends.unfinished {story : Story} {taken : List (Interaction World)}
    {last : Interaction World} {rule : Text} (h : story.Ends taken last rule) :
    Unfinished taken := by
  obtain ⟨hbefore, hanswers, -⟩ := Engine.run_snoc_iff.1 h.run
  exact Rule.unfinished_of_run hbefore (Rule.ending_eq_none_of_fired hanswers.2 h.fires)

theorem Story.Ends.finds {story : Story} {config : Config} {record : Record World}
    (hbuild : Walk.build (Rule.engine story.rules) config story.manifest.startWorld =
      .ok record)
    {taken : List (Interaction World)} {last : Interaction World} {rule : Text}
    (h : story.Ends taken last rule)
    (hevident : ∀ interaction ∈ taken ++ [last],
      (Rule.engine story.rules).Evident story.manifest.startWorld interaction) :
    (Graph.ofRecord config record).Finds rule := by
  obtain ⟨walk, hfinished, rfl⟩ := Walk.build_finished hbuild
  have hsettles := hfinished.saturating.settles_of_run hfinished.stack_eq h.run h.unfinished
    hevident
  obtain ⟨hnode, hcompletes⟩ := hsettles.1 rule h.fires h.isEnding
  exact ⟨hnode, hcompletes⟩

/-- An accepted story has a graph, and the graph has the ending of every run that what
is seen alone decides. -/
theorem Story.exists_graph_finds (config : Config) (document : Json) (story : Story)
    (hload : load document config.root = .ok story) :
    ∃ graph, story.graph config = .ok graph ∧
      ∀ taken last rule, story.Ends taken last rule →
        (∀ interaction ∈ taken ++ [last],
          (Rule.engine story.rules).Evident story.manifest.startWorld interaction) →
        graph.Finds rule := by
  have hconsistent := consistent_of_load hload
  obtain ⟨record, hbuild⟩ :=
    Rule.exists_build hconsistent.exists_attempt config story.manifest.startWorld
  refine ⟨Graph.ofRecord config record, ?_, ?_⟩
  · unfold Story.graph Graph.build
    rw [hbuild]
    rfl
  · intro taken last rule hends hevident
    exact hends.finds hbuild hevident

namespace Story

def umbrellaTake : Interaction World :=
  ⟨umbrella.manifest.startWorld, "Umbrella", ⟨umbrellaTaken, some "TakeUmbrella"⟩⟩

def umbrellaGo : Interaction World :=
  ⟨umbrellaTaken, "Porch", ⟨umbrellaDry, some "GoOut"⟩⟩

theorem umbrella_ends : umbrella.Ends [umbrellaTake] umbrellaGo "GoOut" where
  run := by
    have htake : (Rule.engine umbrella.rules).Run umbrella.manifest.startWorld
        ([] ++ [umbrellaTake]) umbrellaTaken := .step .here ⟨by decide, rfl⟩
    exact .step htake ⟨by decide, rfl⟩
  fires := rfl
  ends := ⟨"Dry", rfl, by decide⟩

theorem umbrella_evident : ∀ interaction ∈ [umbrellaTake] ++ [umbrellaGo],
    (Rule.engine umbrella.rules).Evident umbrella.manifest.startWorld interaction :=
  umbrella_congruent.evident_of_run umbrella_ends.run

theorem load_umbrella : load umbrella.toJson "Begining" = .ok umbrella := by decide +kernel

theorem umbrella_finds :
    load umbrella.toJson "Begining" = .ok umbrella ∧
    umbrella.Ends [umbrellaTake] umbrellaGo "GoOut" ∧
    (∀ interaction ∈ [umbrellaTake] ++ [umbrellaGo],
      (Rule.engine umbrella.rules).Evident umbrella.manifest.startWorld interaction) ∧
    ∃ graph, umbrella.graph {} = .ok graph ∧ graph.Finds "GoOut" := by
  obtain ⟨graph, hgraph, hfinds⟩ := exists_graph_finds {} umbrella.toJson umbrella load_umbrella
  exact ⟨load_umbrella, umbrella_ends, umbrella_evident, graph, hgraph,
    hfinds _ _ _ umbrella_ends umbrella_evident⟩

/-! ## Out of sight -/

/-- A ball flies from the cellar to the attic while the player is in the hall.  To a walk
nothing has happened. -/
def outOfSight : Story where
  title := "Ball"
  manifest :=
    { items := ["Ball"]
      locations := ["Hall", "Cellar", "Attic"]
      characters := []
      startLocation := "Hall"
      itemPlacement := .ofList [("Ball", "Cellar")]
      characterPlacement := ∅
      startScene := "start" }
  rules := [
    { summary := "Throw"
      trigger := "Hall"
      preconditions := [⟨.itemAt, "Ball", some "Cellar"⟩]
      effects := [⟨.moveItemTo, "Ball", some "Attic"⟩]
      priority := 0 },
    { summary := "Win"
      trigger := "Hall"
      preconditions := [⟨.itemAt, "Ball", some "Attic"⟩]
      effects := [⟨.setEnding, "Won", none⟩]
      priority := 0 }]

def ballThrown : World :=
  { outOfSight.manifest.startWorld with items := .ofList [("Ball", "Attic")] }

def ballThrow : Interaction World :=
  ⟨outOfSight.manifest.startWorld, "Hall", ⟨ballThrown, some "Throw"⟩⟩

def ballWin : Interaction World :=
  ⟨ballThrown, "Hall", ⟨{ ballThrown with ending := some "Won" }, some "Win"⟩⟩

theorem outOfSight_ends : outOfSight.Ends [ballThrow] ballWin "Win" where
  run := by
    have hthrow : (Rule.engine outOfSight.rules).Run outOfSight.manifest.startWorld
        ([] ++ [ballThrow]) ballThrown := .step .here ⟨by decide, rfl⟩
    exact .step hthrow ⟨by decide, rfl⟩
  fires := rfl
  ends := ⟨"Won", rfl, by decide⟩

/-- An ending can be missed. -/
theorem not_forall_finds :
    ¬ ∀ (config : Config) (document : Json) (story : Story),
      load document config.root = .ok story → ∀ taken last rule, story.Ends taken last rule →
        ∃ graph, story.graph config = .ok graph ∧ graph.Finds rule := by
  intro h
  have hload : load outOfSight.toJson "Begining" = .ok outOfSight := by decide +kernel
  have hgraph : outOfSight.graph {} = .ok ⟨["Begining"], [], [], [], 1⟩ := by rfl
  obtain ⟨graph, hsame, hfinds⟩ := h {} outOfSight.toJson outOfSight hload _ _ _ outOfSight_ends
  rw [hgraph] at hsame
  cases hsame
  exact absurd hfinds.node (by decide)

end Story

end Playthrough
