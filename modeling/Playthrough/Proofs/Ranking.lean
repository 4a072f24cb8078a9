import Mathlib.Data.List.Basic
import Playthrough.Engine.Rules

/-!
# The ranking of rules

Rules are ranked by priority, and by the catalog where priorities are equal.  There is one
such ranking only; that of some of the rules is found by leaving out the others, and that of
changed rules by changing them.  An attempt asks nothing but the rules of its trigger, and of
these nothing but what they say.
-/

namespace Playthrough.Rule

/-! ## Rankings -/

def Descending (ranked : List Rule) : Prop :=
  ranked.Pairwise fun first second => second.priority ≤ first.priority

/-- Rules by descending priority, those of one priority in the order of the catalog. -/
structure Ranked (rules ranked : List Rule) : Prop where
  descending : Descending ranked
  catalog : ∀ priority, ranked.filter (·.priority = priority) =
    rules.filter (·.priority = priority)

theorem Descending.le_head {first rule : Rule} {rest : List Rule}
    (h : Descending (first :: rest)) (hrule : rule ∈ first :: rest) :
    rule.priority ≤ first.priority := by
  rcases List.mem_cons.1 hrule with rfl | hrest
  · exact Int.le_refl _
  · exact (List.pairwise_cons.1 h).1 rule hrest

theorem Descending.rank {ranked : List Rule} (h : Descending ranked) (rule : Rule) :
    Descending (rule.rank ranked) := by
  induction ranked with
  | nil => exact List.pairwise_singleton _ _
  | cons first rest ih =>
      simp only [Rule.rank]
      split
      · next hle =>
          exact List.pairwise_cons.2 ⟨fun other hother => Int.le_trans (h.le_head hother) hle, h⟩
      · next hlt =>
          refine List.pairwise_cons.2 ⟨fun other hother => ?_, ih (List.pairwise_cons.1 h).2⟩
          rcases mem_rank.1 hother with rfl | hmem
          · exact Int.le_of_lt (Int.not_le.1 hlt)
          · exact h.le_head (List.mem_cons_of_mem _ hmem)

theorem filter_rank (rule : Rule) (ranked : List Rule) (priority : Int) :
    (rule.rank ranked).filter (·.priority = priority) =
      (rule :: ranked).filter (·.priority = priority) := by
  induction ranked with
  | nil => rfl
  | cons first rest ih =>
      simp only [rank]
      split
      · rfl
      · next hlt =>
          rw [List.filter_cons, ih]
          by_cases hfirst : first.priority = priority
          · have hrule : rule.priority ≠ priority := by omega
            simp [hfirst, hrule]
          · simp [List.filter_cons, hfirst]

theorem ranked_byPriority (rules : List Rule) : Ranked rules (byPriority rules) := by
  induction rules with
  | nil => exact ⟨.nil, fun _ => rfl⟩
  | cons rule rules ih =>
      refine ⟨ih.descending.rank rule, fun priority => ?_⟩
      change (rule.rank (byPriority rules)).filter _ = _
      rw [filter_rank, List.filter_cons, List.filter_cons, ih.catalog]

namespace Ranked

variable {rules ranked : List Rule}

theorem mem_iff (h : Ranked rules ranked) {rule : Rule} : rule ∈ ranked ↔ rule ∈ rules := by
  have hmem : rule ∈ ranked.filter (·.priority = rule.priority) ↔
      rule ∈ rules.filter (·.priority = rule.priority) := by rw [h.catalog]
  simpa using hmem

/-- There is one ranking only: the first rules of two have the same priority, so they are
the first of that priority in the catalog. -/
theorem unique {reranked : List Rule} (h : Ranked rules ranked)
    (hother : Ranked rules reranked) : ranked = reranked := by
  induction ranked generalizing rules reranked with
  | nil =>
      refine (List.eq_nil_iff_forall_not_mem.2 fun rule hrule => ?_).symm
      exact List.not_mem_nil (h.mem_iff.2 (hother.mem_iff.1 hrule))
  | cons first rest ih =>
      have hsame : ∀ rule, rule ∈ first :: rest ↔ rule ∈ reranked :=
        fun rule => h.mem_iff.trans hother.mem_iff.symm
      cases reranked with
      | nil => exact absurd ((hsame first).1 List.mem_cons_self) List.not_mem_nil
      | cons head tail =>
          have hpriority : head.priority = first.priority := by
            have hup := hother.descending.le_head ((hsame first).1 List.mem_cons_self)
            have hdown := h.descending.le_head ((hsame head).2 List.mem_cons_self)
            omega
          have hfilter : ∀ priority, (head :: tail).filter (·.priority = priority) =
              (first :: rest).filter (·.priority = priority) :=
            fun priority => (hother.catalog priority).trans (h.catalog priority).symm
          have hhead : head = first := by
            have hfirst := hfilter first.priority
            rw [List.filter_cons_of_pos (by simpa using hpriority),
              List.filter_cons_of_pos (by simp)] at hfirst
            exact (List.cons.inj hfirst).1
          subst hhead
          have hrest : Ranked rest rest := ⟨(List.pairwise_cons.1 h.descending).2, fun _ => rfl⟩
          refine congrArg (head :: ·) (ih hrest
            ⟨(List.pairwise_cons.1 hother.descending).2, fun priority => ?_⟩)
          have hafter := hfilter priority
          rw [List.filter_cons, List.filter_cons] at hafter
          split at hafter
          · exact (List.cons.inj hafter).2
          · exact hafter

protected theorem filter (h : Ranked rules ranked) (keep : Rule → Bool) :
    Ranked (rules.filter keep) (ranked.filter keep) where
  descending := h.descending.filter keep
  catalog priority := by
    rw [List.filter_filter, List.filter_filter]
    simp only [Bool.and_comm, ← List.filter_filter, h.catalog]

protected theorem map {change : Rule → Rule} (h : Ranked rules ranked)
    (hchange : ∀ first ∈ rules, ∀ second ∈ rules,
      (change first).priority < (change second).priority ↔ first.priority < second.priority) :
    Ranked (rules.map change) (ranked.map change) where
  descending := by
    refine List.pairwise_map.2 (h.descending.imp_of_mem fun {first second} hfirst hsecond hle => ?_)
    have hlt := hchange first (h.mem_iff.1 hfirst) second (h.mem_iff.1 hsecond)
    omega
  catalog priority := by
    rw [List.filter_map, List.filter_map]
    congr 1
    change ranked.filter (fun rule => (change rule).priority = priority) =
      rules.filter (fun rule => (change rule).priority = priority)
    -- the rules of one new priority are those of one old priority, or there are none
    by_cases hsome : ∃ model ∈ rules, (change model).priority = priority
    · obtain ⟨model, hmodel, rfl⟩ := hsome
      have hold : ∀ rule ∈ rules, decide ((change rule).priority = (change model).priority) =
          decide (rule.priority = model.priority) := by
        intro rule hrule
        have hup := hchange rule hrule model hmodel
        have hdown := hchange model hmodel rule hrule
        exact decide_eq_decide.2 (by omega)
      rw [List.filter_congr hold, ← h.catalog]
      exact List.filter_congr fun rule hrule => hold rule (h.mem_iff.1 hrule)
    · have hnone : ∀ rule ∈ rules, ¬ decide ((change rule).priority = priority) = true :=
        fun rule hrule hpriority => hsome ⟨rule, hrule, of_decide_eq_true hpriority⟩
      rw [List.filter_eq_nil_iff.2 hnone]
      exact List.filter_eq_nil_iff.2 fun rule hrule => hnone rule (h.mem_iff.1 hrule)

end Ranked

theorem byPriority_filter (rules : List Rule) (keep : Rule → Bool) :
    byPriority (rules.filter keep) = (byPriority rules).filter keep :=
  (ranked_byPriority _).unique ((ranked_byPriority rules).filter keep)

theorem byPriority_map (change : Rule → Rule)
    (hchange : ∀ rule, (change rule).priority = rule.priority) (rules : List Rule) :
    byPriority (rules.map change) = (byPriority rules).map change :=
  (ranked_byPriority _).unique ((ranked_byPriority rules).map fun first _ second _ => by
    rw [hchange first, hchange second])

/-! ## What a rule says -/

/-- A rule but for when it is considered, which is for its trigger and priority to say. -/
def content (rule : Rule) : Text × List Condition × List Effect :=
  (rule.summary, rule.preconditions, rule.effects)

theorem apply_congr {rule other : Rule} (h : rule.content = other.content) (world : World) :
    rule.apply world = other.apply world := by
  simp only [content, Prod.mk.injEq] at h
  unfold apply draft
  rw [h.2.2]

theorem content_firstEligible? (ranked : List Rule) (entity : Text) (world : World) :
    (firstEligible? ranked entity world).map content =
      ((ranked.filter (·.trigger == entity)).map content).find?
        fun content => content.2.1.all (·.holds world) := by
  unfold firstEligible?
  rw [List.find?_map, List.find?_filter]
  congr 2
  funext rule
  rw [Bool.eq_iff_iff]
  simp [eligible, content]

theorem attempt_congr {ranked reranked : List Rule} {entity : Text} {world : World}
    (h : (firstEligible? ranked entity world).map content =
      (firstEligible? reranked entity world).map content) :
    attempt ranked entity world = attempt reranked entity world := by
  unfold attempt
  cases world.ending with
  | some ending => rfl
  | none =>
      cases hfirst : firstEligible? ranked entity world with
      | none =>
          rw [hfirst, eq_comm, Option.map_none, Option.map_eq_none_iff] at h
          rw [h]
      | some rule =>
          rw [hfirst, eq_comm, Option.map_some, Option.map_eq_some_iff] at h
          obtain ⟨other, hother, hcontent⟩ := h
          have hsummary : other.summary = rule.summary := congrArg Prod.fst hcontent
          simp only [hother, apply_congr hcontent, hsummary]

end Playthrough.Rule
