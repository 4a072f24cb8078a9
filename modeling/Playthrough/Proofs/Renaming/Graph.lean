import Playthrough.Proofs.Endings
import Playthrough.Proofs.Marks
import Playthrough.Proofs.Mirror
import Playthrough.Proofs.Renaming.Story

/-!
# Graphs of renamed stories

New names for the ids of a story change the order in which things are tried, and nothing
else.  What a graph shows whatever the order, the graph of the renamed story shows too.
The rest depends on the order: a walk goes on from a state under the rule that came to it
first, and flavor hangs where it was met first.
-/

namespace Playthrough

/-! ## What does not depend on the order -/

/-- The same nodes, and edges between the same of them. -/
structure Graph.Alike (graph other : Graph) : Prop where
  nodes : ∀ node, node ∈ other.nodes ↔ node ∈ graph.nodes
  edges : ∀ pair, pair ∈ other.edges.map Edge.key ↔ pair ∈ graph.edges.map Edge.key

section

variable {σ τ ε ζ : Type} [Observable σ] [Observable τ]

/-- Two graphs share what the order of enumeration cannot change.  With one way to each
state and flavor at one place each, that is everything but the order itself. -/
structure Engine.Shares (engine : Engine σ ε) (config : Config) (start : σ)
    (graph other : Graph) : Prop where
  visited : other.statesVisited = graph.statesVisited
  finds : ∀ rule, other.Finds rule ↔ graph.Finds rule
  named : config.includeNonProgressing = true →
    ∀ node, node ∈ other.nodes ↔ node ∈ graph.nodes
  forced : ∀ pair, engine.Forces config.root start pair →
    pair ∈ graph.edges.map Edge.key ∧ pair ∈ other.edges.map Edge.key
  alike : engine.OneWay config.root start →
    (config.includeNonProgressing = true → engine.Anchored config.root start) →
    graph.Alike other

theorem Walk.Finished.finds_iff {engine : Engine σ ε} {config : Config} {start : σ}
    {walk : Walk σ} (h : Finished engine config start walk) {rule : Text} :
    (Graph.ofRecord config walk.record).Finds rule ↔ walk.record.Completes rule := by
  refine ⟨Graph.Finds.completed, fun hcompletes => ⟨?_, hcompletes⟩⟩
  obtain ⟨path, hpath, edge, hlast, rfl⟩ := hcompletes
  exact h.turns.rooted.target_mem
    ((h.turns.retelling.completed path hpath).recorded edge (List.mem_of_getLast? hlast))

theorem Engine.Mirrors.shares {engine : Engine σ ε} {other : Engine τ ζ} {change : σ → τ}
    {names : Text → Text} {config : Config} {start : σ} {walk : Walk σ} {mirrored : Walk τ}
    (h : engine.Mirrors other change names)
    (hwalk : Walk.Finished engine config start walk)
    (hmirrored : Walk.Finished other config (change start) mirrored)
    (hcongruent : engine.Congruent start)
    (hroot : ∀ pair, engine.Occurs config.root start pair → pair.2 ≠ config.root) :
    engine.Shares config start (.ofRecord config walk.record)
      (.ofRecord config mirrored.record) where
  visited := congrArg Int.ofNat (Walk.size_visited_eq_of_mirrors h hwalk hmirrored hcongruent)
  finds rule := by
    rw [hwalk.finds_iff, hmirrored.finds_iff]
    exact Walk.completes_iff_of_mirrors h hwalk hmirrored hcongruent
  named hflag node := Walk.mem_nodes_iff_of_mirrors h hwalk hmirrored hcongruent hflag
  forced pair hforces := by
    rw [Graph.map_key_ofRecord, Graph.map_key_ofRecord]
    exact ⟨hwalk.mem_keys_of_forces hcongruent hforces,
      hmirrored.mem_keys_of_forces (h.congruent hcongruent) (h.forces hforces)⟩
  alike hway hanchored := by
    have hkeys : ∀ pair, pair ∈ mirrored.record.edges.map Edge.key ↔
        pair ∈ walk.record.edges.map Edge.key := fun pair =>
      Walk.mem_keys_iff_of_mirrors h hwalk hmirrored hcongruent hway
        fun hflag => ⟨hanchored hflag, hroot⟩
    refine ⟨fun node => ?_, fun pair => ?_⟩
    · exact hwalk.turns.rooted.mem_nodes_iff_of_keys hmirrored.turns.rooted hkeys node
    · rw [Graph.map_key_ofRecord, Graph.map_key_ofRecord]
      exact hkeys pair

end

/-! ## Renaming a story -/

theorem Rule.mirrors_rename {rules : List Rule}
    (h : ∀ entity world, ∃ outcome, (engine rules).attempt entity world = .ok outcome)
    (names : Renaming) :
    (engine rules).Mirrors (engine (rules.map (Rule.rename names))) (World.rename names)
      names where
  offers world _ := world.mem_interactables_rename names
  answers world entity := by
    obtain ⟨outcome, hattempt⟩ := h entity world
    exact ⟨outcome, hattempt, attempt_rename names hattempt⟩
  equal_iff _ _ := World.observablyEqual_rename names
  isComplete_eq _ := rfl

theorem Story.Consistent.ne_root_of_occurs {story : Story} {root : Text} {start : World}
    (h : story.Consistent root) (pair : Text × Text)
    (hpair : (Rule.engine story.rules).Occurs root start pair) : pair.2 ≠ root := by
  obtain ⟨taken, last, hfires⟩ := hpair
  obtain ⟨rule, hrule, hsummary⟩ := Rule.exists_summary_of_fired hfires.answers.2 hfires.rule_eq
  rw [← hsummary]
  exact (h.rules_consistent rule hrule).summary_ne_root

/-- A story and a renamed story have graphs that share what does not depend on the order. -/
theorem Story.graph_rename (config : Config) (document renamed : Json) (story : Story)
    (names : Text → Text) (hload : load document config.root = .ok story)
    (hnames : story.manifest.Distinguishes names)
    (hrenamed : load renamed config.root = .ok (story.rename names)) :
    ∃ graph other, story.graph config = .ok graph ∧
      (story.rename names).graph config = .ok other ∧
      ((Rule.engine story.rules).Congruent story.manifest.startWorld →
        (Rule.engine story.rules).Shares config story.manifest.startWorld graph other) := by
  have hconsistent := consistent_of_load hload
  obtain ⟨record, hbuild⟩ :=
    Rule.exists_build hconsistent.exists_attempt config story.manifest.startWorld
  obtain ⟨other, hother⟩ := Rule.exists_build (consistent_of_load hrenamed).exists_attempt
    config (story.rename names).manifest.startWorld
  refine ⟨_, _, graph_eq_ok hbuild, graph_eq_ok hother, fun hcongruent => ?_⟩
  -- only declared ids occur, so the names may as well be a renaming of all ids
  obtain ⟨all, hall⟩ := hnames.exists_renaming
  rw [hconsistent.rename_congr hall] at hother
  change Walk.build (Rule.engine (story.rules.map (Rule.rename all))) config
    (story.manifest.rename all).startWorld = .ok other at hother
  rw [story.manifest.startWorld_rename all] at hother
  obtain ⟨walk, hwalk, rfl⟩ := Walk.build_finished hbuild
  obtain ⟨mirrored, hmirrored, rfl⟩ := Walk.build_finished hother
  exact (Rule.mirrors_rename hconsistent.exists_attempt all).shares hwalk hmirrored hcongruent
    hconsistent.ne_root_of_occurs

namespace Story

def meetingManifest : Manifest where
  items := ["Ball"]
  locations := ["Hall", "Attic"]
  characters := ["Ann", "Bob"]
  startLocation := "Hall"
  itemPlacement := ∅
  characterPlacement := .ofList [("Ann", "Hall"), ("Bob", "Hall")]
  startScene := "start"

def meeting (rules : List Rule) : Story := ⟨"Meeting", meetingManifest, rules⟩

/-- Which of the two is asked first depends on their names. -/
def swap (id : Text) : Text :=
  if id = "Ann" then "Bob" else if id = "Bob" then "Ann" else id

theorem distinguishes_swap : meetingManifest.Distinguishes swap where
  injective := by decide
  inventory := by decide

/-! ### Order does not matter -/

/-- Ann leads to the garden and Bob to the cellar.  In the garden Bob waves, and Ann goes
for a swim. -/
def fork : Story := meeting [
  ⟨"FollowAnn", "Ann", [⟨.sceneIs, "start", none⟩], [⟨.setScene, "garden", none⟩], 0⟩,
  ⟨"FollowBob", "Bob", [⟨.sceneIs, "start", none⟩], [⟨.setScene, "cellar", none⟩], 0⟩,
  ⟨"Wave", "Bob", [⟨.sceneIs, "garden", none⟩], [], 0⟩,
  ⟨"Swim", "Ann", [⟨.sceneIs, "garden", none⟩], [⟨.setEnding, "Wet", none⟩], 0⟩]

def forkGarden : World := { fork.manifest.startWorld with scene := "garden" }

def forkCellar : World := { fork.manifest.startWorld with scene := "cellar" }

def forkMarks : List (World × Option (Text × Text)) := [
  (fork.manifest.startWorld, none),
  (forkGarden, some ("Begining", "FollowAnn")),
  (forkCellar, some ("Begining", "FollowBob"))]

theorem fork_congruent : (Rule.engine fork.rules).Congruent fork.manifest.startWorld := by
  have hclosed : (Rule.engine fork.rules).Closed
      [fork.manifest.startWorld, forkGarden, forkCellar,
        { forkGarden with ending := some "Wet" }] := by decide +kernel
  exact hclosed.congruent (by decide) (by decide)

theorem fork_marks : (Rule.engine fork.rules).Marks "Begining" forkMarks := by decide +kernel

theorem fork_oneWay :
    (Rule.engine fork.rules).OneWay "Begining" fork.manifest.startWorld :=
  fork_marks.oneWay List.mem_cons_self (by decide)

theorem fork_anchored :
    (Rule.engine fork.rules).Anchored "Begining" fork.manifest.startWorld :=
  fork_marks.anchored List.mem_cons_self (by decide +kernel)

theorem fork_rename_alike :
    load fork.toJson "Begining" = .ok fork ∧ fork.manifest.Distinguishes swap ∧
    load (fork.rename swap).toJson "Begining" = .ok (fork.rename swap) ∧
    (Rule.engine fork.rules).Congruent fork.manifest.startWorld ∧
    (Rule.engine fork.rules).OneWay "Begining" fork.manifest.startWorld ∧
    (Rule.engine fork.rules).Anchored "Begining" fork.manifest.startWorld ∧
    ∀ flag : Bool, ∃ graph other, fork.graph { includeNonProgressing := flag } = .ok graph ∧
      (fork.rename swap).graph { includeNonProgressing := flag } = .ok other ∧
      graph.Alike other := by
  have hload : load fork.toJson "Begining" = .ok fork := by decide +kernel
  have hrenamed : load (fork.rename swap).toJson "Begining" = .ok (fork.rename swap) := by
    decide +kernel
  refine ⟨hload, distinguishes_swap, hrenamed, fork_congruent, fork_oneWay, fork_anchored,
    fun flag => ?_⟩
  obtain ⟨graph, other, hgraph, hother, hshares⟩ :=
    graph_rename { includeNonProgressing := flag } fork.toJson (fork.rename swap).toJson fork swap
      hload distinguishes_swap hrenamed
  exact ⟨graph, other, hgraph, hother,
    (hshares fork_congruent).alike fork_oneWay fun _ => fork_anchored⟩

/-! ### Order matters -/

def crossroads : Story := meeting [
  ⟨"FollowAnn", "Ann", [], [⟨.setScene, "garden", none⟩], 0⟩,
  ⟨"FollowBob", "Bob", [], [⟨.setScene, "garden", none⟩], 0⟩]

/-- Whoever is asked first leads to the garden.  After that the other is flavor. -/
theorem crossroads_unlike (flag : Bool) :
    ∃ graph other, crossroads.graph { includeNonProgressing := flag } = .ok graph ∧
      (crossroads.rename swap).graph { includeNonProgressing := flag } = .ok other ∧
      ¬ graph.Alike other := by
  cases flag
  all_goals
    refine ⟨_, _, rfl, rfl, fun halike => ?_⟩
    exact absurd ((halike.edges ("Begining", "FollowAnn")).2 (by decide)) (by decide)

/-- New names can change the nodes and edges of a graph. -/
theorem not_forall_alike :
    ¬ ∀ (config : Config) (document renamed : Json) (story : Story) (names : Text → Text),
      load document config.root = .ok story → story.manifest.Distinguishes names →
      load renamed config.root = .ok (story.rename names) →
      ∃ graph other, story.graph config = .ok graph ∧
        (story.rename names).graph config = .ok other ∧ graph.Alike other := by
  intro h
  have hload : load crossroads.toJson "Begining" = .ok crossroads := by decide +kernel
  have hrenamed : load (crossroads.rename swap).toJson "Begining" =
      .ok (crossroads.rename swap) := by decide +kernel
  obtain ⟨graph, other, hgraph, hother, halike⟩ :=
    h {} crossroads.toJson (crossroads.rename swap).toJson crossroads swap hload
      distinguishes_swap hrenamed
  obtain ⟨first, second, hfirst, hsecond, hunlike⟩ := crossroads_unlike false
  rw [hgraph, Except.ok.injEq] at hfirst
  rw [hother, Except.ok.injEq] at hsecond
  subst hfirst hsecond
  exact hunlike halike

/-- As in the fork, but looking around is flavor at every place. -/
def lookout : Story :=
  { fork with rules := fork.rules ++ [⟨"Look", "Hall", [], [], 0⟩] }

/-- One way to each state is not enough for flavor, which hangs where it was met first. -/
theorem lookout_unlike :
    (Rule.engine lookout.rules).OneWay "Begining" lookout.manifest.startWorld ∧
    ∃ graph other, lookout.graph { includeNonProgressing := true } = .ok graph ∧
      (lookout.rename swap).graph { includeNonProgressing := true } = .ok other ∧
      ¬ graph.Alike other := by
  have hmarks : (Rule.engine lookout.rules).Marks "Begining" forkMarks := by decide +kernel
  refine ⟨hmarks.oneWay List.mem_cons_self (by decide), _, _, rfl, rfl, fun halike => ?_⟩
  exact absurd ((halike.edges ("FollowAnn", "Look")).2 (by decide)) (by decide)

/-- Ann starts a game for which she has hidden the ball, Bob one without a ball. -/
def hiddenBall : Story := meeting [
  ⟨"AskAnn", "Ann", [⟨.sceneIs, "start", none⟩],
    [⟨.moveItemTo, "Ball", some "Attic"⟩, ⟨.setScene, "play", none⟩], 0⟩,
  ⟨"AskBob", "Bob", [⟨.sceneIs, "start", none⟩], [⟨.setScene, "play", none⟩], 0⟩,
  ⟨"Win", "Hall", [⟨.itemAt, "Ball", some "Attic"⟩], [⟨.setEnding, "Won", none⟩], 0⟩]

/-- Where states that look the same are not answered alike, endings can depend on the order. -/
theorem hiddenBall_unlike :
    ∃ graph other, hiddenBall.graph {} = .ok graph ∧
      (hiddenBall.rename swap).graph {} = .ok other ∧
      graph.Finds "Win" ∧ ¬ other.Finds "Win" := by
  refine ⟨_, _, rfl, rfl, ⟨by decide, ?_⟩, fun hfinds => ?_⟩
  · exact ⟨_, List.mem_cons_self, _, rfl, rfl⟩
  · exact absurd hfinds.node (by decide)

end Story

end Playthrough
