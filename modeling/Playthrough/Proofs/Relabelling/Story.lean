import Playthrough.Proofs.Documents
import Playthrough.Proofs.Endings
import Playthrough.Proofs.Naming
import Playthrough.Proofs.Relabelling.Walk
import Playthrough.Proofs.Renaming.Story
import Playthrough.Proofs.Rooting
import Playthrough.Story.Graph

/-!
# Relabelled stories

The summaries of rules, and the root, are labels.  An accepted story whose labels are
exchanged for others is accepted, as long as they stay distinct, and its graph is the graph
of the story with the other labels on it.
-/

namespace Playthrough

def Rule.relabel (names : Text → Text) (rule : Rule) : Rule :=
  { rule with summary := names rule.summary }

def Story.relabel (names : Text → Text) (story : Story) : Story :=
  { story with rules := story.rules.map (Rule.relabel names) }

def Story.labels (story : Story) (root : Text) : Set Text :=
  {id | id = root ∨ id ∈ story.summaries}

theorem Story.finite_labels (story : Story) (root : Text) : (story.labels root).Finite :=
  (Set.finite_singleton root).union story.summaries.finite_toSet

/-! ## Engines -/

namespace Rule

variable (names : Text → Text)

theorem attempt_relabel (ranked : List Rule) (entity : Text) (world : World) :
    attempt (ranked.map (relabel names)) entity world =
      (attempt ranked entity world).map (·.relabel names) := by
  have hfirst : firstEligible? (ranked.map (relabel names)) entity world =
      (firstEligible? ranked entity world).map (relabel names) := List.find?_map
  unfold attempt
  rw [hfirst]
  cases world.ending with
  | some ending => rfl
  | none =>
      cases firstEligible? ranked entity world with
      | none => rfl
      | some rule =>
          change (rule.apply world).map _ = ((rule.apply world).map _).map _
          cases rule.apply world <;> rfl

/-- Rules with other summaries do the same. -/
theorem engine_relabel (rules : List Rule) :
    engine (rules.map (relabel names)) = (engine rules).relabel names := by
  have hsubjects : ∀ kinds, subjects (rules.map (relabel names)) kinds = subjects rules kinds := by
    intro kinds
    unfold subjects
    rw [List.flatMap_map]
    rfl
  have hranked : byPriority (rules.map (relabel names)) = (byPriority rules).map (relabel names) :=
    byPriority_map (relabel names) (fun _ => rfl) rules
  unfold engine Engine.relabel scope
  simp only [hranked, hsubjects, Engine.mk.injEq, and_true]
  funext entity world
  exact attempt_relabel names (byPriority rules) entity world

end Rule

theorem Story.graph_relabel_of_injective {names : Text → Text}
    (hnames : Function.Injective names) (story : Story) (config : Config) :
    (story.relabel names).graph (config.relabel names) =
      (story.graph config).map (·.relabel names) := by
  unfold graph
  rw [← Graph.build_relabel hnames, ← Rule.engine_relabel]
  rfl

/-! ## Labels of a graph -/

def Edge.Labelled (edge : Edge) (labels : Set Text) : Prop :=
  edge.source ∈ labels ∧ edge.target ∈ labels

structure Graph.Labelled (graph : Graph) (labels : Set Text) : Prop where
  nodes : ∀ node ∈ graph.nodes, node ∈ labels
  edges : ∀ edge ∈ graph.edges, edge.Labelled labels
  completed : ∀ path ∈ graph.completedPaths, ∀ edge ∈ path, edge.Labelled labels
  shown : ∀ edge ∈ graph.examplePath, edge.Labelled labels

section

variable {names other : Text → Text} {labels : Set Text}
  (hnames : ∀ id ∈ labels, names id = other id)
include hnames

theorem Edge.Labelled.relabel_congr {edge : Edge} (h : edge.Labelled labels) :
    edge.relabel names = edge.relabel other := by
  unfold relabel
  rw [hnames _ h.1, hnames _ h.2]

theorem Graph.Labelled.relabel_congr {graph : Graph} (h : graph.Labelled labels) :
    graph.relabel names = graph.relabel other := by
  have hpath : ∀ path : List Edge, (∀ edge ∈ path, edge.Labelled labels) →
      path.map (·.relabel names) = path.map (·.relabel other) :=
    fun path hpath => List.map_congr_left fun edge hedge =>
      (hpath edge hedge).relabel_congr hnames
  have hnodes : graph.nodes.map names = graph.nodes.map other :=
    List.map_congr_left fun node hnode => hnames node (h.nodes node hnode)
  have hcompleted : graph.completedPaths.map (·.map (·.relabel names)) =
      graph.completedPaths.map (·.map (·.relabel other)) :=
    List.map_congr_left fun path hmem => hpath path (h.completed path hmem)
  unfold relabel
  rw [hnodes, hpath _ h.edges, hcompleted, hpath _ h.shown]

end

theorem Record.Rooted.labelled {σ ε : Type} [Observable σ] {engine : Engine σ ε} {root : Text}
    {start : σ} {record : Record σ} {labels : Set Text} (h : record.Rooted root)
    (hcompleted : ∀ path ∈ record.completed, Tells engine root start record path)
    (hnodes : ∀ node ∈ record.nodes, node ∈ labels) (config : Config) :
    (Graph.ofRecord config record).Labelled labels := by
  have hkey : ∀ edge : Edge, edge.key ∈ record.edges.map Edge.key → edge.Labelled labels := by
    intro edge hkey
    obtain ⟨known, hknown, heq⟩ := List.mem_map.1 hkey
    have hsource : known.source = edge.source := congrArg Prod.fst heq
    exact ⟨hsource ▸ hnodes _ (h.source_mem known hknown), hnodes _ (h.target_mem hkey)⟩
  have hpath : ∀ path ∈ record.completed, ∀ edge ∈ path, edge.Labelled labels :=
    fun path hpath edge hedge => hkey edge ((hcompleted path hpath).recorded edge hedge)
  refine ⟨hnodes, ?_, hpath, ?_⟩
  · intro edge hedge
    obtain ⟨known, hknown, rfl⟩ := List.mem_map.1 hedge
    exact hkey known (List.mem_map_of_mem hknown)
  · intro edge hedge
    obtain ⟨known, hknown, rfl⟩ := List.mem_map.1 hedge
    cases hfirst : record.completed.head? with
    | none => simp [hfirst] at hknown
    | some path =>
        rw [hfirst] at hknown
        exact hpath path (List.mem_of_head? hfirst) known hknown

theorem Story.labelled_of_graph {story : Story} {config : Config} {graph : Graph}
    (h : story.graph config = .ok graph) : graph.Labelled (story.labels config.root) := by
  unfold Story.graph Graph.build at h
  cases hbuild : Walk.build (Rule.engine story.rules) config story.manifest.startWorld with
  | error stop => simp [hbuild, Except.map] at h
  | ok record =>
      simp only [hbuild, Except.map, Except.ok.injEq] at h
      subst h
      obtain ⟨walk, hfinished, rfl⟩ := Walk.build_finished hbuild
      refine hfinished.turns.rooted.labelled hfinished.turns.retelling.completed ?_ config
      intro node hnode
      refine (hfinished.naming.fired node hnode).imp_right ?_
      rintro ⟨interaction, htried, hfired⟩
      obtain ⟨rule, hrule, hsummary⟩ :=
        Rule.exists_summary_of_fired (hfinished.saturating.answered interaction htried).2 hfired
      exact List.mem_map.2 ⟨rule, hrule, hsummary⟩

/-! ## Accepted stories -/

namespace Story

variable {story : Story} {root : Text} {names : Text → Text}

theorem summaries_relabel (names : Text → Text) (story : Story) :
    (story.relabel names).summaries = story.summaries.map names := by
  simp [summaries, relabel, Rule.relabel]

theorem Consistent.relabel (h : story.Consistent root)
    (hnames : Set.InjOn names (story.labels root)) :
    (story.relabel names).Consistent (names root) := by
  have hroot : ∀ rule ∈ story.rules, names rule.summary ≠ names root := by
    intro rule hrule heq
    have hsummary : rule.summary ∈ story.summaries := List.mem_map_of_mem hrule
    have hsame : rule.summary = root := hnames (.inr hsummary) (.inl rfl) heq
    exact h.root_free (hsame ▸ hsummary)
  refine ⟨h.ids_distinct, h.start_declared, h.items_placed, h.characters_placed, ?_, ?_⟩
  · rw [summaries_relabel]
    exact h.summaries_distinct.map_on fun _ hfirst _ hsecond =>
      hnames (.inr hfirst) (.inr hsecond)
  · intro relabelled hrelabelled
    obtain ⟨rule, hrule, rfl⟩ := List.mem_map.1 hrelabelled
    have hconsistent := h.rules_consistent rule hrule
    exact ⟨hroot rule hrule, hconsistent.trigger_declared, hconsistent.references_resolved⟩

theorem relabel_congr {other : Text → Text}
    (hnames : ∀ id ∈ story.summaries, names id = other id) :
    story.relabel names = story.relabel other := by
  have hrules : story.rules.map (Rule.relabel names) = story.rules.map (Rule.relabel other) :=
    List.map_congr_left fun rule hrule => by
      unfold Rule.relabel
      rw [hnames _ (List.mem_map_of_mem hrule)]
  unfold relabel
  rw [hrules]

theorem graph_relabel_of_injOn {config : Config} {graph : Graph}
    (hgraph : story.graph config = .ok graph)
    (hnames : Set.InjOn names (story.labels config.root)) :
    (story.relabel names).graph (config.relabel names) = .ok (graph.relabel names) := by
  -- no other text is a label, so the names of all may be taken to be distinct
  obtain ⟨all, hinjective, hall⟩ :=
    exists_injective_of_injOn (story.finite_labels config.root) hnames
  have hstory : story.relabel all = story.relabel names :=
    relabel_congr fun id hid => hall id (.inr hid)
  have hconfig : config.relabel all = config.relabel names := by
    unfold Config.relabel
    rw [hall config.root (.inl rfl)]
  rw [← hstory, ← hconfig, graph_relabel_of_injective hinjective, hgraph,
    ← (labelled_of_graph hgraph).relabel_congr hall]
  rfl

/-! ## Another root -/

theorem load_of_root_free {document : Json} {other : Text}
    (hload : load document root = .ok story) (hother : other ∉ story.summaries) :
    load document other = .ok story := by
  have hvalidate : story.validate other = .ok () := by
    rw [(consistent_of_load hload).validate_eq, if_neg hother]
  unfold load at hload ⊢
  cases hread : ofJson document with
  | invalid issues => simp [hread] at hload
  | valid read =>
      simp only [hread] at hload ⊢
      split at hload
      · cases hload
        rw [hvalidate]
      · cases hload

def reroot (root other : Text) : Text → Text := Function.update id root other

theorem reroot_of_mem {other id : Text} (h : root ∉ story.summaries)
    (hid : id ∈ story.summaries) : reroot root other id = id :=
  Function.update_of_ne (ne_of_mem_of_not_mem hid h) _ _

theorem injOn_reroot {other : Text} (h : root ∉ story.summaries)
    (hother : other ∉ story.summaries) : Set.InjOn (reroot root other) (story.labels root) := by
  have hroot : reroot root other root = other := Function.update_self _ _ _
  rintro first (rfl | hfirst) second (rfl | hsecond) heq
  · rfl
  · rw [hroot, reroot_of_mem h hsecond] at heq
    exact absurd (heq ▸ hsecond) hother
  · rw [hroot, reroot_of_mem h hfirst] at heq
    exact absurd (heq ▸ hfirst) hother
  · rwa [reroot_of_mem h hfirst, reroot_of_mem h hsecond] at heq

theorem relabel_reroot {other : Text} (h : root ∉ story.summaries) :
    story.relabel (reroot root other) = story := by
  have hrules : story.rules.map (Rule.relabel id) = story.rules := List.map_id _
  have hstory : story.relabel (reroot root other) = story.relabel id :=
    relabel_congr fun _ hid => reroot_of_mem h hid
  rw [hstory, relabel, hrules]

theorem graph_reroot {config : Config} {graph : Graph} (hgraph : story.graph config = .ok graph)
    (h : config.root ∉ story.summaries) {other : Text} (hother : other ∉ story.summaries) :
    story.graph { config with root := other } =
      .ok (graph.relabel (reroot config.root other)) := by
  have hconfig : config.relabel (reroot config.root other) = { config with root := other } := by
    unfold Config.relabel reroot
    rw [Function.update_self]
  have hrelabelled := graph_relabel_of_injOn hgraph (injOn_reroot h hother)
  rwa [relabel_reroot h, hconfig] at hrelabelled

/-! ## Labels only label -/

/-- Summaries and the root are only labels.  With others that are as distinct, an accepted
story is accepted and has the same graph, relabelled; and any root that is no summary gives
the same graph but for the label of the root. -/
theorem graph_relabel (config : Config) (document : Json) (story : Story)
    (names : Text → Text) (hload : load document config.root = .ok story)
    (hnames : Set.InjOn names (story.labels config.root)) :
    load (story.relabel names).toJson (names config.root) = .ok (story.relabel names) ∧
    ∃ graph, story.graph config = .ok graph ∧
      (story.relabel names).graph (config.relabel names) = .ok (graph.relabel names) ∧
      ∀ root ∉ story.summaries, load document root = .ok story ∧
        story.graph { config with root := root } =
          .ok (graph.relabel (reroot config.root root)) := by
  have hconsistent := consistent_of_load hload
  obtain ⟨graph, hgraph⟩ := hconsistent.exists_graph config
  refine ⟨(hconsistent.relabel hnames).load_toJson, graph, hgraph,
    graph_relabel_of_injOn hgraph hnames, fun root hroot => ?_⟩
  exact ⟨load_of_root_free hload hroot, graph_reroot hgraph hconsistent.root_free hroot⟩

/-- The root and the first rule exchange their labels. -/
def umbrellaLabels : Text → Text := Equiv.swap ("Begining" : Text) "TakeUmbrella"

theorem umbrella_relabel :
    load umbrella.toJson "Begining" = .ok umbrella ∧
    Set.InjOn umbrellaLabels (umbrella.labels "Begining") ∧
    load (umbrella.relabel umbrellaLabels).toJson "TakeUmbrella" =
      .ok (umbrella.relabel umbrellaLabels) ∧
    ∃ graph, umbrella.graph {} = .ok graph ∧
      (umbrella.relabel umbrellaLabels).graph { root := "TakeUmbrella" } =
        .ok (graph.relabel umbrellaLabels) ∧
      umbrella.graph { root := "Start" } = .ok (graph.relabel (reroot "Begining" "Start")) := by
  have hinjOn : Set.InjOn umbrellaLabels (umbrella.labels "Begining") :=
    (Equiv.swap _ _).injective.injOn
  have hroot : umbrellaLabels "Begining" = "TakeUmbrella" := by decide
  have hstart : ("Start" : Text) ∉ umbrella.summaries := by decide
  obtain ⟨haccepted, graph, hgraph, hrelabelled, hrooted⟩ :=
    graph_relabel {} umbrella.toJson umbrella umbrellaLabels load_umbrella hinjOn
  refine ⟨load_umbrella, hinjOn, hroot ▸ haccepted, graph, hgraph, ?_, (hrooted _ hstart).2⟩
  rw [← hroot]
  exact hrelabelled

end Story

end Playthrough
