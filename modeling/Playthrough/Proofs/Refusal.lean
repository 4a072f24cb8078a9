import Playthrough.Proofs.Acceptance

/-!
# The fault that is read first

Each check of a story stands at an address, a list of numbers that leads from the story to
the part that is checked.  The lexicographic order of the addresses is the order of reading.
A story is refused with the fault at the least address where a check fails, and it is
accepted if none does.
-/

namespace Playthrough

/-! ## Checks at addresses -/

namespace Manifest

/-- First what is placed, then where. -/
inductive ItemFails (manifest : Manifest) (item place : Text) : List Nat → Fault → Prop
  | item (unknown : item ∉ manifest.items) :
      ItemFails manifest item place [0] (.unplaceableItem item)
  | place (uncarried : place ≠ inventoryPlace) (unknown : place ∉ manifest.locations) :
      ItemFails manifest item place [1] (.misplacedItem item place)

inductive CharacterFails (manifest : Manifest) (character place : Text) :
    List Nat → Fault → Prop
  | character (unknown : character ∉ manifest.characters) :
      CharacterFails manifest character place [0] (.unplaceableCharacter character)
  | place (unknown : place ∉ manifest.locations) :
      CharacterFails manifest character place [1] (.misplacedCharacter character place)

/-- First the ids, then the start, then the items and the characters in the order of their
placements. -/
inductive Fails (manifest : Manifest) : List Nat → Fault → Prop
  | ids {ids : List Text} (ascending : ids.Pairwise (· < ·))
      (repeated : ∀ id, id ∈ ids ↔ 1 < manifest.entityIds.count id) (nonempty : ids ≠ []) :
      Fails manifest [0] (.repeatedIds ids)
  | start (unknown : manifest.startLocation ∉ manifest.locations) :
      Fails manifest [1] (.unknownStart manifest.startLocation)
  | item {position : Nat} {entry : Text × Text} {address : List Nat} {fault : Fault}
      (stands : manifest.itemPlacement.entries[position]? = some entry)
      (fails : manifest.ItemFails entry.1 entry.2 address fault) :
      Fails manifest (2 :: position :: address) fault
  | character {position : Nat} {entry : Text × Text} {address : List Nat} {fault : Fault}
      (stands : manifest.characterPlacement.entries[position]? = some entry)
      (fails : manifest.CharacterFails entry.1 entry.2 address fault) :
      Fails manifest (3 :: position :: address) fault

end Manifest

structure Clause where
  name : String
  subjectKind : Option EntityKind
  subject : Text
  targetKind : Option EntityKind
  target : Option Text

def Condition.clause (condition : Condition) : Clause where
  name := condition.kind.name
  subjectKind := condition.kind.subjectKind
  subject := condition.subject
  targetKind := condition.kind.targetKind
  target := condition.target

def Effect.clause (effect : Effect) : Clause where
  name := effect.kind.name
  subjectKind := effect.kind.subjectKind
  subject := effect.subject
  targetKind := effect.kind.targetKind
  target := effect.target

/-- First the subject, then the target.  Only a target can be missing. -/
inductive Clause.Fails (manifest : Manifest) (summary : Text) (clause : Clause) :
    List Nat → Fault → Prop
  | subject {kind : EntityKind} (expected : clause.subjectKind = some kind)
      (unknown : clause.subject ∉ manifest.declared kind) :
      Fails manifest summary clause [0]
        (.unknownReference summary clause.name kind clause.subject)
  | missing {kind : EntityKind} (expected : clause.targetKind = some kind)
      (absent : clause.target = none) :
      Fails manifest summary clause [1] (.missingReference summary clause.name kind)
  | target {kind : EntityKind} {id : Text} (expected : clause.targetKind = some kind)
      (given : clause.target = some id) (unknown : id ∉ manifest.declared kind) :
      Fails manifest summary clause [1] (.unknownReference summary clause.name kind id)

/-- First the summary, then the trigger, then the conditions, then the effects. -/
inductive Rule.Fails (manifest : Manifest) (root : Text) (rule : Rule) :
    List Nat → Fault → Prop
  | summary (reserved : rule.summary = root) :
      Fails manifest root rule [0] (.reservedSummary rule.summary)
  | trigger (unknown : rule.trigger ∉ manifest.entityIds) :
      Fails manifest root rule [1] (.unknownTrigger rule.summary rule.trigger)
  | condition {position : Nat} {condition : Condition} {address : List Nat} {fault : Fault}
      (stands : rule.preconditions[position]? = some condition)
      (fails : condition.clause.Fails manifest rule.summary address fault) :
      Fails manifest root rule (2 :: position :: address) fault
  | effect {position : Nat} {effect : Effect} {address : List Nat} {fault : Fault}
      (stands : rule.effects[position]? = some effect)
      (fails : effect.clause.Fails manifest rule.summary address fault) :
      Fails manifest root rule (3 :: position :: address) fault

/-- First the manifest, then the summaries, then the rules one after the other. -/
inductive Story.Fails (story : Story) (root : Text) : List Nat → Fault → Prop
  | manifest {address : List Nat} {fault : Fault}
      (fails : story.manifest.Fails address fault) :
      Fails story root (0 :: address) fault
  | summaries {summaries : List Text} (ascending : summaries.Pairwise (· < ·))
      (repeated : ∀ summary, summary ∈ summaries ↔ 1 < story.summaries.count summary)
      (nonempty : summaries ≠ []) :
      Fails story root [1] (.repeatedSummaries summaries)
  | rule {position : Nat} {rule : Rule} {address : List Nat} {fault : Fault}
      (stands : story.rules[position]? = some rule)
      (fails : rule.Fails story.manifest root address fault) :
      Fails story root (2 :: position :: address) fault

/-! ## Lists in the order of addresses -/

/-- A list holds what fails, each fault once for its address, in the order of addresses. -/
def Fault.Lists (fails : List Nat → Fault → Prop) (faults : List Fault) : Prop :=
  ∃ marked : List (List Nat × Fault), marked.map Prod.snd = faults ∧
    marked.Pairwise (fun first second => first.1 < second.1) ∧
    ∀ address fault, (address, fault) ∈ marked ↔ fails address fault

namespace Fault.Lists

variable {fails other : List Nat → Fault → Prop} {faults more : List Fault}

theorem congr (h : Lists fails faults)
    (hiff : ∀ address fault, fails address fault ↔ other address fault) :
    Lists other faults := by
  obtain ⟨marked, hmap, hascending, hmem⟩ := h
  exact ⟨marked, hmap, hascending, fun address fault => (hmem address fault).trans
    (hiff address fault)⟩

/-- The first fault of the list is the one at the least address. -/
theorem head?_eq_some_iff (h : Lists fails faults) {fault : Fault} :
    faults.head? = some fault ↔ ∃ address, fails address fault ∧
      ∀ earlier < address, ∀ other, ¬ fails earlier other := by
  obtain ⟨marked, rfl, hascending, hmem⟩ := h
  simp only [← hmem]
  cases marked with
  | nil => simp
  | cons first rest =>
      obtain ⟨least, held⟩ := first
      obtain ⟨hfirst, -⟩ := List.pairwise_cons.1 hascending
      simp only [List.map_cons, List.head?_cons, Option.some.injEq]
      constructor
      · rintro rfl
        refine ⟨least, List.mem_cons_self, fun earlier hearlier other hother => ?_⟩
        rcases List.mem_cons.1 hother with heq | hrest
        · cases heq
          exact List.lt_irrefl _ hearlier
        · exact List.lt_asymm (hfirst _ hrest) hearlier
      · rintro ⟨address, haddress, hleast⟩
        rcases List.mem_cons.1 haddress with heq | hrest
        · cases heq
          rfl
        · exact absurd List.mem_cons_self (hleast least (hfirst _ hrest) held)

theorem atMostOne (address : List Nat) (h : faults.length ≤ 1) :
    Lists (fun place fault => place = address ∧ fault ∈ faults) faults := by
  match faults, h with
  | [], _ => exact ⟨[], rfl, .nil, by simp⟩
  | [fault], _ =>
      exact ⟨[(address, fault)], rfl, List.pairwise_singleton _ _, by simp⟩

theorem when (address : List Nat) {present : Prop} [Decidable present] {fault : Fault} :
    Lists (fun place held => place = address ∧ present ∧ held = fault)
      (Fault.when present fault) := by
  have hlength : (Fault.when present fault).length ≤ 1 := by
    unfold Fault.when
    split <;> simp
  exact (atMostOne address hlength).congr fun place held => and_congr_right' mem_when

theorem append (h : Lists fails faults) (hmore : Lists other more)
    (hlt : ∀ address fault later held, fails address fault → other later held →
      address < later) :
    Lists (fun address fault => fails address fault ∨ other address fault)
      (faults ++ more) := by
  obtain ⟨marked, rfl, hascending, hmem⟩ := h
  obtain ⟨rest, rfl, hrest, hmemRest⟩ := hmore
  refine ⟨marked ++ rest, List.map_append, ?_, fun address fault => ?_⟩
  · refine List.pairwise_append.2 ⟨hascending, hrest, fun first hfirst second hsecond => ?_⟩
    exact hlt _ _ _ _ ((hmem _ _).1 hfirst) ((hmemRest _ _).1 hsecond)
  · rw [List.mem_append, hmem, hmemRest]

theorem under (h : Lists fails faults) (number : Nat) :
    Lists (fun address fault => ∃ rest, fails rest fault ∧ address = number :: rest)
      faults := by
  obtain ⟨marked, rfl, hascending, hmem⟩ := h
  refine ⟨marked.map fun entry => (number :: entry.1, entry.2), by simp, ?_, ?_⟩
  · refine List.pairwise_map.2 (hascending.imp fun hlt => ?_)
    exact List.cons_lt_cons_iff.2 (.inr ⟨rfl, hlt⟩)
  · intro address fault
    simp only [← hmem, List.mem_map, Prod.mk.injEq, Prod.exists]
    constructor
    · rintro ⟨rest, held, hmarked, rfl, rfl⟩
      exact ⟨rest, hmarked, rfl⟩
    · rintro ⟨rest, hmarked, rfl⟩
      exact ⟨rest, fault, hmarked, rfl, rfl⟩

theorem flatMap {α : Type} {parts : List α} {partFails : α → List Nat → Fault → Prop}
    {partFaults : α → List Fault} (h : ∀ part, Lists (partFails part) (partFaults part)) :
    Lists (fun address fault => ∃ position part rest, parts[position]? = some part ∧
      partFails part rest fault ∧ address = position :: rest) (parts.flatMap partFaults) := by
  -- the positions of what remains begin at some number
  suffices hfrom : ∀ start, Lists (fun address fault => ∃ position part rest,
      parts[position]? = some part ∧ partFails part rest fault ∧
        address = (start + position) :: rest) (parts.flatMap partFaults) by
    simpa using hfrom 0
  induction parts with
  | nil => exact fun start => ⟨[], rfl, .nil, by simp⟩
  | cons part parts ih =>
      intro start
      refine (((h part).under start).append (ih (start + 1)) ?_).congr fun address fault => ?_
      · rintro _ _ _ _ ⟨_, -, rfl⟩ ⟨position, _, _, -, -, rfl⟩
        exact List.cons_lt_cons_iff.2 (.inl (by omega))
      · constructor
        · rintro (⟨rest, hfails, rfl⟩ | ⟨position, other, rest, hother, hfails, rfl⟩)
          · exact ⟨0, part, rest, rfl, hfails, rfl⟩
          · exact ⟨position + 1, other, rest, hother, hfails, by simp; omega⟩
        · rintro ⟨_ | position, other, rest, hother, hfails, rfl⟩
          · cases hother
            exact .inl ⟨rest, hfails, rfl⟩
          · exact .inr ⟨position, other, rest, hother, hfails, by simp; omega⟩

theorem checksAndParts {first second : Prop} [Decidable first] [Decidable second]
    {firstFault secondFault : Fault} (h : Lists fails faults) (hmore : Lists other more) :
    Lists (fun address fault => (address = [0] ∧ first ∧ fault = firstFault) ∨
        (address = [1] ∧ second ∧ fault = secondFault) ∨
        (∃ rest, fails rest fault ∧ address = 2 :: rest) ∨
        ∃ rest, other rest fault ∧ address = 3 :: rest)
      (Fault.when first firstFault ++ Fault.when second secondFault ++ faults ++ more) := by
  refine ((((when [0]).append (when [1]) ?_).append (h.under 2) ?_).append
    (hmore.under 3) ?_).congr fun address fault => by simp only [or_assoc]
  · rintro _ _ _ _ ⟨rfl, -⟩ ⟨rfl, -⟩
    decide
  · rintro _ _ _ _ (⟨rfl, -⟩ | ⟨rfl, -⟩) ⟨_, -, rfl⟩
    all_goals exact List.cons_lt_cons_iff.2 (.inl (by decide))
  · rintro _ _ _ _ ((⟨rfl, -⟩ | ⟨rfl, -⟩) | ⟨_, -, rfl⟩) ⟨_, -, rfl⟩
    all_goals exact List.cons_lt_cons_iff.2 (.inl (by decide))

end Fault.Lists

theorem repeatedIds_toList_eq_iff {ids repeated : List Text} :
    repeated = (repeatedIds ids).toList ↔
      repeated.Pairwise (· < ·) ∧ ∀ id, id ∈ repeated ↔ 1 < ids.count id := by
  constructor
  · rintro rfl
    exact ⟨(repeatedIds ids).ascending, fun id => mem_repeatedIds⟩
  · rintro ⟨hascending, hrepeated⟩
    have hset : IdSet.mk repeated hascending = repeatedIds ids :=
      IdSet.ext_mem fun id => (hrepeated id).trans mem_repeatedIds.symm
    rw [← hset]

/-! ## The faults of a story in the order of their addresses -/

namespace Manifest

theorem lists_itemFaults (manifest : Manifest) (item place : Text) :
    Fault.Lists (manifest.ItemFails item place) (manifest.itemFaults item place) := by
  refine ((Fault.Lists.when [0]).append (.when [1]) ?_).congr fun address fault => ?_
  · rintro _ _ _ _ ⟨rfl, -⟩ ⟨rfl, -⟩
    decide
  · constructor
    · rintro (⟨rfl, hitem, rfl⟩ | ⟨rfl, hplace, rfl⟩)
      · exact .item hitem
      · exact .place hplace.1 hplace.2
    · rintro (hitem | ⟨huncarried, hplace⟩)
      · exact .inl ⟨rfl, hitem, rfl⟩
      · exact .inr ⟨rfl, ⟨huncarried, hplace⟩, rfl⟩

theorem lists_characterFaults (manifest : Manifest) (character place : Text) :
    Fault.Lists (manifest.CharacterFails character place)
      (manifest.characterFaults character place) := by
  refine ((Fault.Lists.when [0]).append (.when [1]) ?_).congr fun address fault => ?_
  · rintro _ _ _ _ ⟨rfl, -⟩ ⟨rfl, -⟩
    decide
  · constructor
    · rintro (⟨rfl, hcharacter, rfl⟩ | ⟨rfl, hplace, rfl⟩)
      · exact .character hcharacter
      · exact .place hplace
    · rintro (hcharacter | hplace)
      · exact .inl ⟨rfl, hcharacter, rfl⟩
      · exact .inr ⟨rfl, hplace, rfl⟩

theorem lists_faults (manifest : Manifest) : Fault.Lists manifest.Fails manifest.faults := by
  have hitems : Fault.Lists _ (manifest.itemPlacement.entries.flatMap
      fun entry => manifest.itemFaults entry.1 entry.2) :=
    .flatMap fun entry => manifest.lists_itemFaults entry.1 entry.2
  have hcharacters : Fault.Lists _ (manifest.characterPlacement.entries.flatMap
      fun entry => manifest.characterFaults entry.1 entry.2) :=
    .flatMap fun entry => manifest.lists_characterFaults entry.1 entry.2
  refine (Fault.Lists.checksAndParts hitems hcharacters).congr fun address fault => ?_
  constructor
  · rintro (⟨rfl, hids, rfl⟩ | ⟨rfl, hstart, rfl⟩ |
      ⟨_, ⟨position, entry, rest, hstands, hfails, rfl⟩, rfl⟩ |
      ⟨_, ⟨position, entry, rest, hstands, hfails, rfl⟩, rfl⟩)
    · obtain ⟨hascending, hrepeated⟩ := repeatedIds_toList_eq_iff.1 rfl
      exact .ids hascending hrepeated hids
    · exact .start hstart
    · exact .item hstands hfails
    · exact .character hstands hfails
  · rintro (⟨hascending, hrepeated, hids⟩ | hstart | ⟨hstands, hfails⟩ | ⟨hstands, hfails⟩)
    · obtain rfl := repeatedIds_toList_eq_iff.2 ⟨hascending, hrepeated⟩
      exact .inl ⟨rfl, hids, rfl⟩
    · exact .inr (.inl ⟨rfl, hstart, rfl⟩)
    · exact .inr (.inr (.inl ⟨_, ⟨_, _, _, hstands, hfails, rfl⟩, rfl⟩))
    · exact .inr (.inr (.inr ⟨_, ⟨_, _, _, hstands, hfails, rfl⟩, rfl⟩))

end Manifest

def Clause.references (clause : Clause) : List Reference :=
  Reference.expected clause.name clause.subjectKind (some clause.subject) ++
    Reference.expected clause.name clause.targetKind clause.target

theorem Reference.lists_expected (manifest : Manifest) (summary : Text) (name : String)
    (kind : Option EntityKind) (id : Option Text) (address : List Nat) :
    Fault.Lists (fun place fault => place = address ∧ ∃ expected, kind = some expected ∧
        (id = none ∧ fault = .missingReference summary name expected ∨
          ∃ given, id = some given ∧ given ∉ manifest.declared expected ∧
            fault = .unknownReference summary name expected given))
      ((expected name kind id).flatMap (faults manifest summary)) := by
  cases kind with
  | none => exact (Fault.Lists.atMostOne address (by simp [expected])).congr (by simp [expected])
  | some kind =>
      rw [expected, List.flatMap_singleton]
      cases id with
      | none =>
          exact (Fault.Lists.atMostOne address (by simp [faults])).congr (by simp [faults])
      | some id => exact (Fault.Lists.when address).congr (by simp)

theorem Clause.lists_faults (manifest : Manifest) (summary : Text) (clause : Clause) :
    Fault.Lists (clause.Fails manifest summary)
      (clause.references.flatMap (Reference.faults manifest summary)) := by
  unfold references
  rw [List.flatMap_append]
  refine ((Reference.lists_expected _ _ _ _ _ [0]).append
    (Reference.lists_expected _ _ _ _ _ [1]) ?_).congr fun address fault => ?_
  · rintro _ _ _ _ ⟨rfl, -⟩ ⟨rfl, -⟩
    decide
  · constructor
    · rintro (⟨rfl, kind, hkind, ⟨hid, -⟩ | ⟨id, hid, hunknown, rfl⟩⟩ |
        ⟨rfl, kind, hkind, ⟨hid, rfl⟩ | ⟨id, hid, hunknown, rfl⟩⟩)
      · cases hid
      · cases hid
        exact .subject hkind hunknown
      · exact .missing hkind hid
      · exact .target hkind hid hunknown
    · rintro (⟨hkind, hunknown⟩ | ⟨hkind, hid⟩ | ⟨hkind, hid, hunknown⟩)
      · exact .inl ⟨rfl, _, hkind, .inr ⟨_, rfl, hunknown, rfl⟩⟩
      · exact .inr ⟨rfl, _, hkind, .inl ⟨hid, rfl⟩⟩
      · exact .inr ⟨rfl, _, hkind, .inr ⟨_, hid, hunknown, rfl⟩⟩

theorem Rule.lists_faults (manifest : Manifest) (root : Text) (rule : Rule) :
    Fault.Lists (rule.Fails manifest root) (rule.faults manifest root) := by
  have hconditions : Fault.Lists _ (rule.preconditions.flatMap fun condition =>
      condition.clause.references.flatMap (Reference.faults manifest rule.summary)) :=
    .flatMap fun condition => condition.clause.lists_faults manifest rule.summary
  have heffects : Fault.Lists _ (rule.effects.flatMap fun effect =>
      effect.clause.references.flatMap (Reference.faults manifest rule.summary)) :=
    .flatMap fun effect => effect.clause.lists_faults manifest rule.summary
  have hfaults : rule.faults manifest root =
      Fault.when (rule.summary = root) (.reservedSummary rule.summary) ++
        Fault.when (rule.trigger ∉ manifest.entityIds)
          (.unknownTrigger rule.summary rule.trigger) ++
        (rule.preconditions.flatMap fun condition =>
          condition.clause.references.flatMap (Reference.faults manifest rule.summary)) ++
        rule.effects.flatMap fun effect =>
          effect.clause.references.flatMap (Reference.faults manifest rule.summary) := by
    unfold faults references
    rw [List.flatMap_append, List.flatMap_assoc, List.flatMap_assoc, ← List.append_assoc]
    rfl
  rw [hfaults]
  refine (Fault.Lists.checksAndParts hconditions heffects).congr fun address fault => ?_
  constructor
  · rintro (⟨rfl, hsummary, rfl⟩ | ⟨rfl, htrigger, rfl⟩ |
      ⟨_, ⟨position, condition, rest, hstands, hfails, rfl⟩, rfl⟩ |
      ⟨_, ⟨position, effect, rest, hstands, hfails, rfl⟩, rfl⟩)
    · exact .summary hsummary
    · exact .trigger htrigger
    · exact .condition hstands hfails
    · exact .effect hstands hfails
  · rintro (hsummary | htrigger | ⟨hstands, hfails⟩ | ⟨hstands, hfails⟩)
    · exact .inl ⟨rfl, hsummary, rfl⟩
    · exact .inr (.inl ⟨rfl, htrigger, rfl⟩)
    · exact .inr (.inr (.inl ⟨_, ⟨_, _, _, hstands, hfails, rfl⟩, rfl⟩))
    · exact .inr (.inr (.inr ⟨_, ⟨_, _, _, hstands, hfails, rfl⟩, rfl⟩))

namespace Story

theorem lists_faults (story : Story) (root : Text) :
    Fault.Lists (story.Fails root) (story.faults root) := by
  have hrules : Fault.Lists _ (story.rules.flatMap (Rule.faults story.manifest root)) :=
    .flatMap fun rule => rule.lists_faults story.manifest root
  refine (((story.manifest.lists_faults.under 0).append (.when [1]) ?_).append
    (hrules.under 2) ?_).congr fun address fault => ?_
  · rintro _ _ _ _ ⟨_, -, rfl⟩ ⟨rfl, -⟩
    exact List.cons_lt_cons_iff.2 (.inl (by decide))
  · rintro _ _ _ _ (⟨_, -, rfl⟩ | ⟨rfl, -⟩) ⟨_, -, rfl⟩
    all_goals exact List.cons_lt_cons_iff.2 (.inl (by decide))
  · constructor
    · rintro ((⟨rest, hfails, rfl⟩ | ⟨rfl, hsummaries, rfl⟩) |
        ⟨_, ⟨position, rule, rest, hstands, hfails, rfl⟩, rfl⟩)
      · exact .manifest hfails
      · obtain ⟨hascending, hrepeated⟩ := repeatedIds_toList_eq_iff.1 rfl
        exact .summaries hascending hrepeated hsummaries
      · exact .rule hstands hfails
    · rintro (hfails | ⟨hascending, hrepeated, hsummaries⟩ | ⟨hstands, hfails⟩)
      · exact .inl (.inl ⟨_, hfails, rfl⟩)
      · obtain rfl := repeatedIds_toList_eq_iff.2 ⟨hascending, hrepeated⟩
        exact .inl (.inr ⟨rfl, hsummaries, rfl⟩)
      · exact .inr ⟨_, ⟨_, _, _, hstands, hfails, rfl⟩, rfl⟩

/-- A story is accepted if it is consistent, and refused with the fault at the least address
otherwise. -/
theorem validate_reads (story : Story) (root : Text) :
    (story.validate root = .ok () ↔ story.Consistent root) ∧
    ∀ fault, story.validate root = .error fault ↔
      ∃ address, story.Fails root address fault ∧
        ∀ earlier < address, ∀ other, ¬ story.Fails root earlier other := by
  refine ⟨validate_eq_ok_iff, fun fault => ?_⟩
  rw [← (story.lists_faults root).head?_eq_some_iff]
  change _ ↔ story.firstFault? root = some fault
  unfold validate
  cases story.firstFault? root <;> simp

end Story

end Playthrough
