import Playthrough.Proofs.Attempt
import Playthrough.Proofs.Ranking

/-!
# How an interaction is resolved

Which rule wins an interaction is said here without a ranking: it may fire, no rule that may
fire has a higher priority, and none before it in the catalog has the same.  The main result
says that an attempt has the outcome that this rule brings about, or that of taking and
travelling where no rule may fire.
-/

namespace Playthrough

/-! ## Conditions that are met -/

/-- What a condition asks of a world.  An item or character that should be nowhere must have
no place at all. -/
inductive Condition.Met (world : World) : Condition → Prop
  | playerAt (target : Option Text) : Met world ⟨.playerAt, world.location, target⟩
  | itemInInventory {item : Text} (target : Option Text)
      (carried : item ∈ world.itemsAt inventoryPlace) : Met world ⟨.itemInInventory, item, target⟩
  | itemNotInInventory {item : Text} (target : Option Text)
      (left : item ∉ world.itemsAt inventoryPlace) : Met world ⟨.itemNotInInventory, item, target⟩
  | itemAt {item place : Text} (lies : item ∈ world.itemsAt place) :
      Met world ⟨.itemAt, item, some place⟩
  | itemNowhere {item : Text} (nowhere : ∀ place, item ∉ world.itemsAt place) :
      Met world ⟨.itemAt, item, none⟩
  | characterAt {character place : Text} (stands : character ∈ world.charactersAt place) :
      Met world ⟨.characterAt, character, some place⟩
  | characterNowhere {character : Text} (nowhere : ∀ place, character ∉ world.charactersAt place) :
      Met world ⟨.characterAt, character, none⟩
  | locationDiscovered {place : Text} (target : Option Text)
      (known : place ∈ world.discovered) : Met world ⟨.locationDiscovered, place, target⟩
  | locationUndiscovered {place : Text} (target : Option Text)
      (unknown : place ∉ world.discovered) : Met world ⟨.locationUndiscovered, place, target⟩
  | sceneIs (target : Option Text) : Met world ⟨.sceneIs, world.scene, target⟩

theorem Condition.holds_iff_met {condition : Condition} {world : World} :
    condition.holds world = true ↔ condition.Met world := by
  obtain ⟨kind, subject, target⟩ := condition
  constructor
  · intro h
    cases kind with
    | playerAt =>
        obtain rfl : world.location = subject := by simpa [holds] using h
        exact .playerAt target
    | itemInInventory => exact .itemInInventory target (by simpa [holds] using h)
    | itemNotInInventory => exact .itemNotInInventory target (by simpa [holds] using h)
    | itemAt =>
        cases target with
        | none => exact .itemNowhere (by simp_all [holds])
        | some place => exact .itemAt (by simpa [holds] using h)
    | characterAt =>
        cases target with
        | none => exact .characterNowhere (by simp_all [holds])
        | some place => exact .characterAt (by simpa [holds] using h)
    | locationDiscovered => exact .locationDiscovered target (by simpa [holds] using h)
    | locationUndiscovered => exact .locationUndiscovered target (by simpa [holds] using h)
    | sceneIs =>
        obtain rfl : world.scene = subject := by simpa [holds] using h
        exact .sceneIs target
  · intro h
    cases h with
    | itemNowhere nowhere =>
        simpa [holds, Option.eq_none_iff_forall_ne_some] using nowhere
    | characterNowhere nowhere =>
        simpa [holds, Option.eq_none_iff_forall_ne_some] using nowhere
    | _ => simp_all [holds]

namespace Rule

/-! ## The rule that wins -/

structure Eligible (rule : Rule) (entity : Text) (world : World) : Prop where
  trigger_eq : rule.trigger = entity
  met : ∀ condition ∈ rule.preconditions, condition.Met world

/-- A rule wins if it may fire, every rule before it that may fire has a lower priority, and
none after it that may fire has a higher one. -/
structure Wins (rules : List Rule) (entity : Text) (world : World) (rule : Rule) : Prop where
  eligible : rule.Eligible entity world
  foremost : ∃ before after, rules = before ++ rule :: after ∧
    (∀ other ∈ before, other.Eligible entity world → other.priority < rule.priority) ∧
    ∀ other ∈ after, other.Eligible entity world → other.priority ≤ rule.priority

variable {rules ranked : List Rule} {entity : Text} {world : World} {rule : Rule}

theorem eligible_iff : rule.eligible entity world = true ↔ rule.Eligible entity world := by
  unfold eligible
  rw [Bool.and_eq_true, beq_iff_eq, List.all_eq_true]
  simp only [Condition.holds_iff_met]
  exact ⟨fun h => ⟨h.1, h.2⟩, fun h => ⟨h.trigger_eq, h.met⟩⟩

theorem wins_cons_iff {first : Rule} :
    Wins (first :: rules) entity world rule ↔
      (rule = first ∧ first.Eligible entity world ∧
        ∀ other ∈ rules, other.Eligible entity world → other.priority ≤ first.priority) ∨
      (Wins rules entity world rule ∧
        (first.Eligible entity world → first.priority < rule.priority)) := by
  constructor
  · rintro ⟨heligible, before, after, hrules, hbefore, hafter⟩
    cases before with
    | nil =>
        cases hrules
        exact .inl ⟨rfl, heligible, hafter⟩
    | cons head before =>
        cases hrules
        exact .inr ⟨⟨heligible, before, after, rfl,
          fun other hother => hbefore other (List.mem_cons_of_mem _ hother), hafter⟩,
          hbefore _ List.mem_cons_self⟩
  · rintro (⟨rfl, heligible, hafter⟩ | ⟨⟨heligible, before, after, rfl, hbefore, hafter⟩, hfirst⟩)
    · exact ⟨heligible, [], rules, rfl, by simp, hafter⟩
    · exact ⟨heligible, first :: before, after, rfl, by simpa using ⟨hfirst, hbefore⟩, hafter⟩

theorem firstEligible?_rank_of_not (h : ¬ rule.eligible entity world = true) :
    firstEligible? (rule.rank ranked) entity world = firstEligible? ranked entity world := by
  unfold firstEligible?
  induction ranked with
  | nil => simp [rank, h]
  | cons first rest ih =>
      simp only [rank]
      split
      · simp [h]
      · simp only [List.find?_cons, ih]

theorem firstEligible?_rank (hranked : Descending ranked)
    (h : rule.eligible entity world = true) :
    firstEligible? (rule.rank ranked) entity world =
      match firstEligible? ranked entity world with
      | none => some rule
      | some best => if best.priority ≤ rule.priority then some rule else some best := by
  induction ranked with
  | nil => simp [firstEligible?, rank, h]
  | cons first rest ih =>
      have ih := ih (List.pairwise_cons.1 hranked).2
      unfold firstEligible? at ih ⊢
      simp only [rank]
      split
      · next hle =>
          rw [List.find?_cons, h]
          cases hbest : (first :: rest).find? (·.eligible entity world) with
          | none => rfl
          | some best =>
              have hlow := hranked.le_head (List.mem_of_find?_eq_some hbest)
              exact (if_pos (Int.le_trans hlow hle)).symm
      · next hlt =>
          rw [List.find?_cons, List.find?_cons]
          cases first.eligible entity world with
          | true => exact (if_neg hlt).symm
          | false => exact ih

theorem firstEligible?_eq_none_iff :
    firstEligible? (byPriority rules) entity world = none ↔
      ∀ rule ∈ rules, ¬ rule.Eligible entity world := by
  unfold firstEligible?
  rw [List.find?_eq_none]
  simp only [mem_byPriority, eligible_iff]

theorem Wins.mem (h : Wins rules entity world rule) : rule ∈ rules := by
  obtain ⟨before, after, rfl, -, -⟩ := h.foremost
  exact List.mem_append_right _ List.mem_cons_self

theorem Wins.priority_le (h : Wins rules entity world rule) {other : Rule}
    (hother : other ∈ rules) (heligible : other.Eligible entity world) :
    other.priority ≤ rule.priority := by
  obtain ⟨before, after, rfl, hbefore, hafter⟩ := h.foremost
  rcases List.mem_append.1 hother with hmem | hmem
  · exact Int.le_of_lt (hbefore other hmem heligible)
  · rcases List.mem_cons.1 hmem with rfl | hmem
    · exact Int.le_refl _
    · exact hafter other hmem heligible

/-- The first eligible rule of the ranking is the one that wins. -/
theorem firstEligible?_eq_some_iff :
    firstEligible? (byPriority rules) entity world = some rule ↔
      Wins rules entity world rule := by
  induction rules generalizing rule with
  | nil =>
      refine ⟨fun h => (nomatch h), fun h => ?_⟩
      exact absurd h.mem List.not_mem_nil
  | cons first rules ih =>
      change firstEligible? (first.rank (byPriority rules)) entity world = some rule ↔ _
      rw [wins_cons_iff]
      by_cases hfirst : first.Eligible entity world
      · rw [firstEligible?_rank (ranked_byPriority rules).descending (eligible_iff.2 hfirst)]
        cases hbest : firstEligible? (byPriority rules) entity world with
        | none =>
            have hnone := firstEligible?_eq_none_iff.1 hbest
            constructor
            · rintro ⟨⟩
              exact .inl ⟨rfl, hfirst, fun other hother h => absurd h (hnone other hother)⟩
            · rintro (⟨rfl, -, -⟩ | ⟨hwins, -⟩)
              · rfl
              · exact absurd hwins.eligible (hnone rule hwins.mem)
        | some best =>
            have hwins := ih.1 hbest
            dsimp only
            split
            · next hle =>
                constructor
                · rintro ⟨⟩
                  exact .inl ⟨rfl, hfirst, fun other hother h =>
                    Int.le_trans (hwins.priority_le hother h) hle⟩
                · rintro (⟨rfl, -, -⟩ | ⟨hother, hlt⟩)
                  · rfl
                  · cases hbest.symm.trans (ih.2 hother)
                    exact absurd (hlt hfirst) (Int.not_lt.2 hle)
            · next hlt =>
                constructor
                · rintro ⟨⟩
                  exact .inr ⟨hwins, fun _ => Int.not_le.1 hlt⟩
                · rintro (⟨rfl, -, hbelow⟩ | ⟨hother, -⟩)
                  · exact absurd (hbelow best hwins.mem hwins.eligible) hlt
                  · exact hbest.symm.trans (ih.2 hother)
      · rw [firstEligible?_rank_of_not (fun h => hfirst (eligible_iff.1 h)), ih]
        simp [hfirst]

end Rule

/-! ## Outcomes -/

/-- What an interaction does by itself: an item that lies here is taken, and otherwise the
player travels to a location that has been discovered. -/
inductive World.Interacts (world : World) (entity : Text) : World → Prop
  | takes (here : entity ∈ world.itemsAt world.location) :
      Interacts world entity { world with items := world.items.insert entity inventoryPlace }
  | travels (elsewhere : entity ∉ world.itemsAt world.location)
      (known : entity ∈ world.discovered) : Interacts world entity { world with location := entity }
  | idles (elsewhere : entity ∉ world.itemsAt world.location)
      (unknown : entity ∉ world.discovered) : Interacts world entity world

theorem World.interacts_iff {world next : World} {entity : Text} :
    world.Interacts entity next ↔ next = world.interact entity := by
  constructor
  · intro h
    unfold interact
    cases h with
    | takes here => rw [if_pos here]
    | travels elsewhere known =>
        rw [if_neg elsewhere]
        split
        · rfl
        -- travelling to where the player stands is no change
        · next hstays =>
            obtain rfl : entity = world.location := by
              by_contra hne
              exact hstays ⟨known, hne⟩
            rfl
    | idles elsewhere unknown => rw [if_neg elsewhere, if_neg fun hboth => unknown hboth.1]
  · rintro rfl
    unfold interact
    split
    · next here => exact .takes here
    · next elsewhere =>
        split
        · next hboth => exact .travels elsewhere hboth.1
        · next hstays =>
            by_cases hknown : entity ∈ world.discovered
            · obtain rfl : entity = world.location := by
                by_contra hne
                exact hstays ⟨hknown, hne⟩
              exact .travels elsewhere hknown
            · exact .idles elsewhere hknown

namespace Rule

variable {rules : List Rule} {entity : Text} {world : World} {outcome : Outcome World}

/-- After an ending nothing happens.  Before it the rule that wins fires, and without one the
interaction does what it does by itself. -/
inductive Resolves (rules : List Rule) (entity : Text) (world : World) : Outcome World → Prop
  | refused (ended : world.ending ≠ none) : Resolves rules entity world ⟨world, none⟩
  | fires {rule : Rule} {next : World} (open_ : world.ending = none)
      (wins : Wins rules entity world rule) (applied : rule.apply world = .ok next) :
      Resolves rules entity world ⟨next, some rule.summary⟩
  | unmatched {next : World} (open_ : world.ending = none)
      (none_eligible : ∀ rule ∈ rules, ¬ rule.Eligible entity world)
      (interacts : world.Interacts entity next) : Resolves rules entity world ⟨next, none⟩

theorem Resolves.attempt_eq (h : Resolves rules entity world outcome) :
    (engine rules).attempt entity world = .ok outcome := by
  change attempt (byPriority rules) entity world = .ok outcome
  unfold attempt
  cases h with
  | refused ended =>
      obtain ⟨ending, hending⟩ := Option.ne_none_iff_exists'.1 ended
      simp only [hending]
  | fires open_ wins applied =>
      simp only [open_, firstEligible?_eq_some_iff.2 wins, applied]
      rfl
  | unmatched open_ none_eligible interacts =>
      rw [World.interacts_iff.1 interacts]
      simp only [open_, firstEligible?_eq_none_iff.2 none_eligible]

theorem resolves_of_attempt (h : (engine rules).attempt entity world = .ok outcome) :
    Resolves rules entity world outcome := by
  rcases attempt_cases h with ⟨hended, rfl⟩ | ⟨hopen, rule, -, hfirst, next, happly, rfl⟩ |
    ⟨hopen, hfirst, rfl⟩
  · exact .refused hended
  · exact .fires hopen (firstEligible?_eq_some_iff.1 hfirst) happly
  · exact .unmatched hopen (firstEligible?_eq_none_iff.1 hfirst) (World.interacts_iff.2 rfl)

theorem Resolves.unfired_eq (h : Resolves rules entity world outcome)
    (hunfired : outcome.rule = none) :
    outcome.next.scene = world.scene ∧ outcome.next.ending = world.ending ∧
      outcome.next.discovered = world.discovered ∧
      outcome.next.characters = world.characters := by
  cases h with
  | refused ended => exact ⟨rfl, rfl, rfl, rfl⟩
  | fires open_ wins applied => cases hunfired
  | unmatched open_ none_eligible interacts =>
      cases interacts <;> exact ⟨rfl, rfl, rfl, rfl⟩

/-- An attempt has an outcome exactly where the interaction is resolved to it, and an outcome
without a rule leaves scene, ending, discoveries and characters alone. -/
theorem attempt_eq_ok_iff (rules : List Rule) (entity : Text) (world : World)
    (outcome : Outcome World) :
    ((engine rules).attempt entity world = .ok outcome ↔ Resolves rules entity world outcome) ∧
    ((engine rules).attempt entity world = .ok outcome → outcome.rule = none →
      outcome.next.scene = world.scene ∧ outcome.next.ending = world.ending ∧
        outcome.next.discovered = world.discovered ∧
        outcome.next.characters = world.characters) :=
  ⟨⟨resolves_of_attempt, Resolves.attempt_eq⟩,
    fun h => (resolves_of_attempt h).unfired_eq⟩

def doorway : World := ⟨"Porch", .ofList [("Key", "Porch")], ∅, .ofList ["Porch"], "closed", none⟩

def doorRules : List Rule := [
  ⟨"Knock", "Door", [⟨.sceneIs, "closed", none⟩], [⟨.setScene, "answered", none⟩], 1⟩,
  ⟨"Peek", "Door", [], [], 1⟩,
  ⟨"Unlock", "Door", [⟨.itemInInventory, "Key", none⟩], [⟨.setScene, "open", none⟩], 7⟩]

theorem doorway_resolves :
    Resolves doorRules "Door" doorway ⟨{ doorway with scene := "answered" }, some "Knock"⟩ ∧
    ∃ outcome, (engine doorRules).attempt "Key" doorway = .ok outcome ∧ outcome.rule = none ∧
      outcome.next.scene = doorway.scene ∧ outcome.next.ending = doorway.ending ∧
      outcome.next.discovered = doorway.discovered ∧
      outcome.next.characters = doorway.characters :=
  ⟨(attempt_eq_ok_iff doorRules "Door" doorway _).1.1 rfl, _, rfl, rfl,
    (attempt_eq_ok_iff doorRules "Key" doorway _).2 rfl rfl⟩

end Rule

end Playthrough
