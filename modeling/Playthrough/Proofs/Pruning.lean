import Playthrough.Proofs.Concord
import Playthrough.Proofs.Documents
import Playthrough.Proofs.Endings
import Playthrough.Proofs.Leaves
import Playthrough.Proofs.Ranking

/-!
# Dead rules

With flavor in the graph, each rule that fires on the walk is a node.  So a rule that is no
node was not the first eligible one in any attempt of the walk, and all these attempts are
answered alike without it.  The walk without flavor makes the same attempts.
-/

namespace Playthrough

namespace Rule

variable {rules ranked : List Rule} {keep : Rule → Bool}

/-! ## Attempts without some of the rules -/

theorem firstEligible?_filter {entity : Text} {world : World}
    (h : ∀ rule, firstEligible? ranked entity world = some rule → keep rule = true) :
    firstEligible? (ranked.filter keep) entity world = firstEligible? ranked entity world := by
  unfold firstEligible? at h ⊢
  induction ranked with
  | nil => rfl
  | cons first rest ih =>
      cases heligible : first.eligible entity world with
      | true =>
          simp only [List.find?_cons, heligible] at h ⊢
          rw [List.filter_cons_of_pos (h first rfl), List.find?_cons, heligible]
      | false =>
          simp only [List.find?_cons, heligible] at h ⊢
          rw [← ih h, List.filter_cons]
          split
          · rw [List.find?_cons, heligible]
          · rfl

theorem attempt_filter {entity : Text} {world : World} {outcome : Outcome World}
    (h : (engine rules).attempt entity world = .ok outcome)
    (hkept : ∀ rule ∈ rules, outcome.rule = some rule.summary → keep rule = true) :
    (engine (rules.filter keep)).attempt entity world = .ok outcome := by
  rw [← h]
  change attempt (byPriority (rules.filter keep)) entity world =
    attempt (byPriority rules) entity world
  cases hending : world.ending with
  | some ending => simp only [attempt, hending]
  | none =>
      have hfirst : ∀ rule, firstEligible? (byPriority rules) entity world = some rule →
          keep rule = true := by
        intro rule hfirst
        rcases attempt_cases h with ⟨hended, -⟩ | ⟨-, fired, hfired, hfound, _, -, rfl⟩ |
          ⟨-, hnone, -⟩
        · exact absurd hending hended
        · cases hfound.symm.trans hfirst
          exact hkept rule hfired rfl
        · cases hnone.symm.trans hfirst
      refine attempt_congr ?_
      rw [byPriority_filter, firstEligible?_filter hfirst]

theorem build_graph_filter {config : Config} {start : World} {walk : Walk World}
    (h : Walk.Finished (engine rules) config start walk)
    (hkept : ∀ interaction ∈ walk.interactions, ∀ rule ∈ rules,
      interaction.outcome.rule = some rule.summary → keep rule = true) :
    Graph.build (engine (rules.filter keep)) config start =
      Graph.build (engine rules) config start := by
  have hconcurs : walk.Concurs (engine rules) (engine (rules.filter keep)) := by
    refine ⟨fun interaction htried => ?_, fun fault hbreaks => ?_⟩
    · have hanswer := (h.saturating.answered interaction htried).2
      rw [hanswer]
      exact attempt_filter hanswer (hkept interaction htried)
    · cases hbreaks with
      | attempt refused => cases h.stack_eq
  refine build_graph_congr ?_
  rw [h.explored]
  exact hconcurs

end Rule

namespace Story

variable {story : Story} {root : Text}

/-! ## Stories without dead rules -/

def prune (story : Story) (nodes : List Text) : Story :=
  { story with rules := story.rules.filter (·.summary ∈ nodes) }

theorem Consistent.prune (h : story.Consistent root) (nodes : List Text) :
    (story.prune nodes).Consistent root where
  ids_distinct := h.ids_distinct
  start_declared := h.start_declared
  items_placed := h.items_placed
  characters_placed := h.characters_placed
  summaries_distinct := (List.filter_sublist.map Rule.summary).nodup h.summaries_distinct
  rules_consistent rule hrule := h.rules_consistent rule (List.mem_of_mem_filter hrule)

/-- A story can do without the rules that are no nodes with all its flavor: it is accepted
without them, and its graph with and without flavor stays what it is. -/
theorem prune_graph (document : Json) (config : Config) (story : Story)
    (hload : load document config.root = .ok story) :
    ∃ inclusive, story.graph (config.flavored true) = .ok inclusive ∧
      load (story.prune inclusive.nodes).toJson config.root =
        .ok (story.prune inclusive.nodes) ∧
      ∀ flag, ∃ graph, story.graph (config.flavored flag) = .ok graph ∧
        (story.prune inclusive.nodes).graph (config.flavored flag) = .ok graph := by
  have hconsistent := consistent_of_load hload
  obtain ⟨record, hbuild⟩ := Rule.exists_build hconsistent.exists_attempt
    (config.flavored true) story.manifest.startWorld
  refine ⟨.ofRecord _ record, graph_eq_ok hbuild, (hconsistent.prune _).load_toJson,
    fun flag => ?_⟩
  obtain ⟨graph, hgraph⟩ := hconsistent.exists_graph (config.flavored flag)
  obtain ⟨walk, hfinished, rfl⟩ := Walk.build_finished hbuild
  obtain ⟨other, hother, htried⟩ := hfinished.flavored flag
  refine ⟨graph, hgraph, (Rule.build_graph_filter hother ?_).trans hgraph⟩
  intro interaction hinteraction rule _ hfired
  rw [htried] at hinteraction
  exact decide_eq_true (hfinished.naming.flavored rfl interaction hinteraction _ hfired)

/-- A thief would take the umbrella, but the player always takes it first. -/
def stealUmbrella : Rule where
  summary := "StealUmbrella"
  trigger := "Umbrella"
  preconditions := [⟨.itemAt, "Umbrella", some "Home"⟩]
  effects := [⟨.removeItem, "Umbrella", none⟩]
  priority := -1

def contested : Story :=
  { umbrella with rules := stealUmbrella :: Walk.lookAround :: umbrella.rules }

theorem contested_prune :
    load contested.toJson "Begining" = .ok contested ∧
    ∃ inclusive, contested.graph (Config.flavored {} true) = .ok inclusive ∧
      (contested.prune inclusive.nodes).rules = Walk.lookAround :: umbrella.rules ∧
      load (contested.prune inclusive.nodes).toJson "Begining" =
        .ok (contested.prune inclusive.nodes) ∧
      ∀ flag, ∃ graph, contested.graph (Config.flavored {} flag) = .ok graph ∧
        (contested.prune inclusive.nodes).graph (Config.flavored {} flag) = .ok graph := by
  have hload : load contested.toJson "Begining" = .ok contested := by decide +kernel
  obtain ⟨inclusive, hinclusive, hsame⟩ := prune_graph contested.toJson {} contested hload
  refine ⟨hload, inclusive, hinclusive, ?_, hsame⟩
  have hnodes : (contested.graph (Config.flavored {} true)).map Graph.nodes =
      .ok ["Begining", "TakeUmbrella", "LookAround", "GoOut"] := by decide +kernel
  rw [hinclusive] at hnodes
  rw [Except.ok.inj hnodes]
  decide

end Story

end Playthrough
