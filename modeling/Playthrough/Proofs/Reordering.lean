import Mathlib.Data.List.Basic
import Playthrough.Proofs.Attempt
import Playthrough.Proofs.Concord
import Playthrough.Proofs.Ranking

/-!
# Rules in another order

Rules that rank alike trigger by trigger are interchangeable: the same rule matches, the
same world follows, and every walk comes to the same graph.  So the catalog may list rules
of different triggers or priorities in any order, and priorities may be spread or shifted.
-/

namespace Playthrough.Rule

/-! ## Rules that rank alike -/

/-- For each trigger, the two catalogs rank rules that say the same. -/
def SameOrder (rules others : List Rule) : Prop :=
  ∀ entity, ∃ ranked reranked,
    Ranked (rules.filter (·.trigger == entity)) ranked ∧
    Ranked (others.filter (·.trigger == entity)) reranked ∧
    ranked.map content = reranked.map content

/-- Rules in another order, found by exchanging neighbors that differ in trigger or
priority. -/
inductive Reordered : List Rule → List Rule → Prop
  | refl (rules : List Rule) : Reordered rules rules
  | swap {first second : Rule} (rules : List Rule)
      (differ : first.trigger ≠ second.trigger ∨ first.priority ≠ second.priority) :
      Reordered (first :: second :: rules) (second :: first :: rules)
  | cons (rule : Rule) {rules others : List Rule} (rest : Reordered rules others) :
      Reordered (rule :: rules) (rule :: others)
  | trans {rules middle others : List Rule} (first : Reordered rules middle)
      (second : Reordered middle others) : Reordered rules others

/-- A change of priorities that keeps those of some rules apart and in their order. -/
def Increases (change : Int → Int) (rules : List Rule) : Prop :=
  ∀ first ∈ rules, ∀ second ∈ rules,
    first.priority < second.priority → change first.priority < change second.priority

def reprioritize (change : Int → Int) (rule : Rule) : Rule :=
  { rule with priority := change rule.priority }

variable {rules others : List Rule} {change : Int → Int}

theorem Reordered.filter_eq (h : Reordered rules others) (entity : Text) (priority : Int) :
    (rules.filter (·.trigger == entity)).filter (·.priority = priority) =
      (others.filter (·.trigger == entity)).filter (·.priority = priority) := by
  induction h with
  | refl => rfl
  | swap rules differ =>
      -- at most one of the two passes both filters
      simp only [List.filter_cons]
      grind
  | cons rule rest ih =>
      rw [List.filter_cons, List.filter_cons]
      split
      · rw [List.filter_cons, List.filter_cons, ih]
      · exact ih
  | trans first second ih₁ ih₂ => exact ih₁.trans ih₂

theorem Reordered.sameOrder (h : Reordered rules others) : SameOrder rules others := by
  intro entity
  have hranked := ranked_byPriority (rules.filter (·.trigger == entity))
  refine ⟨_, _, hranked, ⟨hranked.descending, fun priority => ?_⟩, rfl⟩
  rw [hranked.catalog, h.filter_eq]

theorem Increases.lt_iff (h : Increases change rules) {first second : Rule}
    (hfirst : first ∈ rules) (hsecond : second ∈ rules) :
    change first.priority < change second.priority ↔ first.priority < second.priority := by
  refine ⟨fun hlt => ?_, h first hfirst second hsecond⟩
  by_contra hge
  rcases Int.lt_or_eq_of_le (Int.not_lt.1 hge) with hdown | heq
  · exact Int.lt_asymm hlt (h second hsecond first hfirst hdown)
  · exact absurd (congrArg change heq) (Int.ne_of_gt hlt)

theorem Increases.sameOrder (h : Increases change rules) :
    SameOrder rules (rules.map (reprioritize change)) := by
  intro entity
  have hranked := ranked_byPriority (rules.filter (·.trigger == entity))
  have hchanged : Ranked ((rules.filter (·.trigger == entity)).map (reprioritize change)) _ :=
    hranked.map fun first hfirst second hsecond =>
      h.lt_iff (List.mem_of_mem_filter hfirst) (List.mem_of_mem_filter hsecond)
  have hfilter : (rules.map (reprioritize change)).filter (·.trigger == entity) =
      (rules.filter (·.trigger == entity)).map (reprioritize change) := by
    rw [List.filter_map]
    rfl
  refine ⟨_, _, hranked, hfilter ▸ hchanged, ?_⟩
  rw [List.map_map]
  rfl

/-! ## What is the same for them -/

/-- Two catalogs that no interaction and no walk tells apart.  Of the rule that matches,
all but the priority is the same. -/
structure Interchangeable (rules others : List Rule) : Prop where
  same_match : ∀ entity world,
    (firstEligible? (byPriority rules) entity world).map
        (fun rule => (rule.trigger, rule.content)) =
      (firstEligible? (byPriority others) entity world).map
        fun rule => (rule.trigger, rule.content)
  same_attempt : ∀ entity world,
    (engine rules).attempt entity world = (engine others).attempt entity world
  same_graph : ∀ config start,
    Graph.build (engine rules) config start = Graph.build (engine others) config start

theorem SameOrder.content_eq (h : SameOrder rules others) (entity : Text) (world : World) :
    (firstEligible? (byPriority rules) entity world).map content =
      (firstEligible? (byPriority others) entity world).map content := by
  obtain ⟨ranked, reranked, hranked, hreranked, hcontent⟩ := h entity
  have hrules := hranked.unique ((ranked_byPriority rules).filter _)
  have hothers := hreranked.unique ((ranked_byPriority others).filter _)
  rw [content_firstEligible?, content_firstEligible?, ← hrules, ← hothers, hcontent]

theorem map_firstEligible? (ranked : List Rule) (entity : Text) (world : World) :
    (firstEligible? ranked entity world).map (fun rule => (rule.trigger, rule.content)) =
      ((firstEligible? ranked entity world).map content).map (entity, ·) := by
  cases hfirst : firstEligible? ranked entity world with
  | none => rfl
  | some rule => simp [trigger_of_firstEligible? hfirst]

theorem SameOrder.interchangeable (h : SameOrder rules others) :
    Interchangeable rules others where
  same_match entity world := by
    rw [map_firstEligible?, map_firstEligible?, h.content_eq]
  same_attempt entity world := attempt_congr (h.content_eq entity world)
  same_graph config start :=
    build_graph_congr (Walk.concurs_of_attempt_eq
      (fun entity world => attempt_congr (h.content_eq entity world)) _)

/-- All that counts is how the rules of each trigger rank.  That stays if rules that differ
in trigger or priority change places, and if all priorities increase strictly. -/
theorem interchangeable_of_ranking (rules others : List Rule) :
    (SameOrder rules others → Interchangeable rules others) ∧
    (Reordered rules others → Interchangeable rules others) ∧
    ∀ change, Increases change rules →
      Interchangeable rules (rules.map (reprioritize change)) :=
  ⟨SameOrder.interchangeable, fun h => h.sameOrder.interchangeable,
    fun _ h => h.sameOrder.interchangeable⟩

/-! ## An evening -/

def lightLamp : Rule where
  summary := "LightLamp"
  trigger := "Lamp"
  preconditions := [⟨.sceneIs, "dusk", none⟩]
  effects := [⟨.setScene, "night", none⟩]
  priority := 0

def watchLamp : Rule where
  summary := "WatchLamp"
  trigger := "Lamp"
  preconditions := []
  effects := []
  priority := 0

def sitDown : Rule where
  summary := "SitDown"
  trigger := "Chair"
  preconditions := [⟨.sceneIs, "dusk", none⟩]
  effects := []
  priority := -1

def fallAsleep : Rule where
  summary := "FallAsleep"
  trigger := "Chair"
  preconditions := []
  effects := [⟨.setEnding, "Asleep", none⟩]
  priority := -3

def evening : List Rule := [lightLamp, fallAsleep, watchLamp, sitDown]

def shuffledEvening : List Rule := [sitDown, lightLamp, fallAsleep, watchLamp]

def levelEvening : List Rule :=
  [lightLamp, watchLamp, sitDown, fallAsleep].map (reprioritize fun _ => 0)

theorem evening_sameOrder : SameOrder evening levelEvening := by
  intro entity
  refine ⟨_, _, ranked_byPriority _, ranked_byPriority _, ?_⟩
  by_cases hlamp : entity = "Lamp"
  · subst hlamp
    decide
  · by_cases hchair : entity = "Chair"
    · subst hchair
      decide
    · simp [evening, levelEvening, reprioritize, lightLamp, watchLamp, sitDown, fallAsleep,
        Ne.symm hlamp, Ne.symm hchair]

theorem evening_reordered : Reordered evening shuffledEvening := by
  have hsit : Reordered evening [lightLamp, fallAsleep, sitDown, watchLamp] :=
    .cons _ (.cons _ (.swap [] (by decide)))
  have hwake : Reordered [lightLamp, fallAsleep, sitDown, watchLamp]
      [lightLamp, sitDown, fallAsleep, watchLamp] := .cons _ (.swap _ (by decide))
  exact (hsit.trans hwake).trans (.swap _ (by decide))

theorem evening_increases : Increases (fun priority => 2 * priority + 10) evening := by
  intro first _ second _ hlt
  change 2 * first.priority + 10 < 2 * second.priority + 10
  omega

theorem evening_interchangeable :
    SameOrder evening levelEvening ∧ Interchangeable evening levelEvening ∧
    Reordered evening shuffledEvening ∧ Interchangeable evening shuffledEvening ∧
    Increases (fun priority => 2 * priority + 10) evening ∧
    Interchangeable evening (evening.map (reprioritize fun priority => 2 * priority + 10)) :=
  ⟨evening_sameOrder, (interchangeable_of_ranking _ _).1 evening_sameOrder,
    evening_reordered, (interchangeable_of_ranking _ _).2.1 evening_reordered,
    evening_increases, (interchangeable_of_ranking evening []).2.2 _ evening_increases⟩

/-- Rules of one trigger and one priority may not change places. -/
example : ¬ Interchangeable [lightLamp, watchLamp] [watchLamp, lightLamp] := by
  intro h
  have hdusk := h.same_match "Lamp" ⟨"Porch", ∅, ∅, ∅, "dusk", none⟩
  revert hdusk
  decide

end Playthrough.Rule
