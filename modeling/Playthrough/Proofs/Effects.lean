import Mathlib.Data.List.Induction
import Playthrough.Proofs.Acceptance

/-!
# What a list of effects comes to

The last effect about an item or a character decides where it is, and the last one of a kind
decides the player's location, the scene or the ending.  A rule fails where such a last effect
moves to no location, whatever the world, and then names what it leaves without a place in
the order of the tables.
-/

namespace Playthrough

/-! ## Things that move -/

inductive Movable where
  | item
  | character
  deriving DecidableEq, Repr

def Movable.unplaced : Movable → Text → Unplaced
  | item => .item
  | character => .character

def World.table (world : World) : Movable → Keyed Text
  | .item => world.items
  | .character => world.characters

def Draft.table (draft : Draft) : Movable → Keyed (Option Text)
  | .item => draft.items
  | .character => draft.characters

def EffectKind.moves? : EffectKind → Option Movable
  | moveItemToInventory | moveItemTo | removeItem => some .item
  | moveCharacterTo | removeCharacter => some .character
  | movePlayerTo | discoverLocation | setScene | setEnding => none

namespace Effect

def entry? (effect : Effect) : Option (Option Text) :=
  match effect.kind with
  | .moveItemToInventory => some (some inventoryPlace)
  | .moveItemTo | .moveCharacterTo => some effect.target
  | _ => none

def place? (effect : Effect) : Option Text := effect.entry?.join

def write (effect : Effect) (table : Keyed (Option Text)) : Keyed (Option Text) :=
  match effect.entry? with
  | some place => table.insert effect.subject place
  | none => table.erase effect.subject

theorem entry?_eq_some_none_iff {effect : Effect} :
    effect.entry? = some none ↔ ¬ effect.Targeted := by
  unfold entry? Targeted
  cases effect.kind <;> simp [EffectKind.targetKind]

theorem get?_write (effect : Effect) (table : Keyed (Option Text)) (id : Text) :
    (effect.write table).get? id =
      if effect.subject = id then effect.entry? else table.get? id := by
  unfold write
  cases effect.entry? <;> simp [eq_comm]

theorem table_apply (effect : Effect) (draft : Draft) (kind : Movable) :
    (effect.apply draft).table kind =
      if effect.kind.moves? = some kind then effect.write (draft.table kind)
      else draft.table kind := by
  unfold apply write entry?
  cases effect.kind <;> cases kind <;> rfl

/-- What some effects overwrite and the others leave is in the end as the last one wrote it. -/
theorem foldl_last {α β : Type} (read : β → α) {step : β → Effect → β}
    {writes : Effect → Bool} {value : Effect → α}
    (hstep : ∀ state effect,
      read (step state effect) = if writes effect then value effect else read state)
    (effects : List Effect) (start : β) :
    read (effects.foldl step start) =
      match (effects.filter writes).getLast? with
      | some effect => value effect
      | none => read start := by
  induction effects using List.reverseRecOn with
  | nil => rfl
  | append_singleton before effect ih =>
      rw [List.foldl_concat, hstep, List.filter_append]
      cases hwrites : writes effect with
      | true => simp [hwrites]
      | false => simp [hwrites, ih]

end Effect

namespace Rule

/-! ## Last effects -/

def moving (rule : Rule) (kind : Movable) : List Effect :=
  rule.effects.filter fun effect => effect.kind.moves? = some kind

def lastAbout (rule : Rule) (kind : Movable) (id : Text) : Option Effect :=
  ((rule.moving kind).filter fun effect => effect.subject = id).getLast?

def lastOf (rule : Rule) (kind : EffectKind) : Option Effect :=
  (rule.effects.filter fun effect => effect.kind = kind).getLast?

theorem draft_table (rule : Rule) (world : World) (kind : Movable) :
    (rule.draft world).table kind =
      (rule.moving kind).foldl (fun table effect => effect.write table)
        ((world.table kind).map some) := by
  have hstart : (world.table kind).map some = (Draft.ofWorld world).table kind := by
    cases kind <;> rfl
  rw [moving, List.foldl_filter, hstart]
  refine (List.foldl_hom (fun draft : Draft => draft.table kind) fun draft effect => ?_).symm
  simpa using (effect.table_apply draft kind).symm

theorem get?_draft_table (rule : Rule) (world : World) (kind : Movable) (id : Text) :
    ((rule.draft world).table kind).get? id =
      match rule.lastAbout kind id with
      | some effect => effect.entry?
      | none => ((world.table kind).get? id).map some := by
  rw [draft_table, ← Keyed.get?_map]
  refine Effect.foldl_last (fun table : Keyed (Option Text) => table.get? id) ?_ _ _
  intro table effect
  simpa using effect.get?_write table id

theorem draft_location (rule : Rule) (world : World) :
    (rule.draft world).location =
      match rule.lastOf .movePlayerTo with
      | some effect => effect.subject
      | none => world.location := by
  refine Effect.foldl_last Draft.location ?_ _ _
  intro draft effect
  unfold Effect.apply
  cases effect.kind <;> rfl

theorem draft_scene (rule : Rule) (world : World) :
    (rule.draft world).scene =
      match rule.lastOf .setScene with
      | some effect => effect.subject
      | none => world.scene := by
  refine Effect.foldl_last Draft.scene ?_ _ _
  intro draft effect
  unfold Effect.apply
  cases effect.kind <;> rfl

theorem draft_ending (rule : Rule) (world : World) :
    (rule.draft world).ending =
      match rule.lastOf .setEnding with
      | some effect => some effect.subject
      | none => world.ending := by
  refine Effect.foldl_last Draft.ending ?_ _ _
  intro draft effect
  unfold Effect.apply
  cases effect.kind <;> rfl

end Rule

def Effect.Discovers (effect : Effect) (id : Text) : Prop :=
  (effect.kind = .movePlayerTo ∨ effect.kind = .discoverLocation) ∧ effect.subject = id

theorem Effect.mem_discovered_apply {effect : Effect} {draft : Draft} {id : Text} :
    id ∈ (effect.apply draft).discovered ↔ id ∈ draft.discovered ∨ effect.Discovers id := by
  unfold apply Discovers
  cases effect.kind <;> simp [eq_comm, or_comm]

theorem Rule.mem_draft_discovered {rule : Rule} {world : World} {id : Text} :
    id ∈ (rule.draft world).discovered ↔
      id ∈ world.discovered ∨ ∃ effect ∈ rule.effects, effect.Discovers id := by
  unfold draft
  induction rule.effects using List.reverseRecOn with
  | nil => simp [Draft.ofWorld]
  | append_singleton before effect ih =>
      rw [List.foldl_concat, Effect.mem_discovered_apply, ih]
      simp only [List.mem_append, List.mem_singleton, or_and_right, exists_or,
        exists_eq_left, or_assoc]

/-! ## The order of the tables -/

namespace Effect

def Dropped (effects : List Effect) (id : Text) : Prop :=
  ∃ effect ∈ effects, effect.subject = id ∧ effect.entry? = none

instance (effects : List Effect) (id : Text) : Decidable (Dropped effects id) :=
  inferInstanceAs (Decidable (∃ effect ∈ effects, _))

def kept (effects : List Effect) (keys : List Text) : List Text :=
  keys.filter fun id => ¬ Dropped effects id

/-- What effects enter and do not take out again, each thing where it is first entered for
good. -/
def arrivals : List Effect → List Text
  | [] => []
  | effect :: rest =>
      if Dropped (effect :: rest) effect.subject then arrivals rest
      else effect.subject :: (arrivals rest).filter (· ≠ effect.subject)

/-- The keys of a table after effects: those that are kept stay in their order, and behind
them comes what arrives. -/
def keysAfter (effects : List Effect) (keys : List Text) : List Text :=
  kept effects keys ++ (arrivals effects).filter (· ∉ kept effects keys)

variable {effect : Effect} {rest : List Effect} {table : Keyed (Option Text)} {id : Text}

theorem dropped_cons_iff :
    Dropped (effect :: rest) id ↔
      (effect.subject = id ∧ effect.entry? = none) ∨ Dropped rest id := by
  simp [Dropped]

theorem keys_write :
    (effect.write table).keys =
      if effect.entry? = none then table.keys.filter (· ≠ effect.subject)
      else if effect.subject ∈ table.keys then table.keys
      else table.keys ++ [effect.subject] := by
  unfold write
  cases effect.entry? with
  | none => rw [if_pos rfl, Keyed.keys_erase]
  | some place => rw [if_neg (Option.some_ne_none place), Keyed.keys_insert]

theorem mem_kept {effects : List Effect} {keys : List Text} :
    id ∈ kept effects keys ↔ id ∈ keys ∧ ¬ Dropped effects id := by
  simp [kept]

/-! One effect before others takes an entry out, overwrites one, or enters a new one. -/

theorem keysAfter_cons_of_dropped (h : effect.entry? = none) (keys : List Text) :
    keysAfter (effect :: rest) keys = keysAfter rest (keys.filter (· ≠ effect.subject)) := by
  have hkept : kept (effect :: rest) keys = kept rest (keys.filter (· ≠ effect.subject)) := by
    unfold kept
    rw [List.filter_filter]
    refine List.filter_congr fun id _ => ?_
    simp [dropped_cons_iff, h, eq_comm, Bool.and_comm]
  have harrivals : arrivals (effect :: rest) = arrivals rest :=
    if_pos (dropped_cons_iff.2 (.inl ⟨rfl, h⟩))
  unfold keysAfter
  rw [hkept, harrivals]

theorem dropped_cons_iff_of_entered (h : effect.entry? ≠ none) :
    Dropped (effect :: rest) id ↔ Dropped rest id := by
  rw [dropped_cons_iff, or_iff_right fun hdropped => h hdropped.2]

theorem kept_cons_of_entered (h : effect.entry? ≠ none) (keys : List Text) :
    kept (effect :: rest) keys = kept rest keys := by
  simp only [kept, dropped_cons_iff_of_entered h]

theorem arrivals_cons_of_entered (h : effect.entry? ≠ none) :
    arrivals (effect :: rest) =
      if Dropped rest effect.subject then arrivals rest
      else effect.subject :: (arrivals rest).filter (· ≠ effect.subject) := by
  simp only [arrivals, dropped_cons_iff_of_entered h]

theorem keysAfter_cons_of_mem (h : effect.entry? ≠ none) {keys : List Text}
    (hmem : effect.subject ∈ keys) : keysAfter (effect :: rest) keys = keysAfter rest keys := by
  unfold keysAfter
  rw [kept_cons_of_entered h, arrivals_cons_of_entered h]
  split
  · rfl
  · next hstays =>
      have hkept : effect.subject ∈ kept rest keys := mem_kept.2 ⟨hmem, hstays⟩
      rw [List.filter_cons_of_neg (by simpa using hkept), List.filter_filter]
      congr 1
      refine List.filter_congr fun id _ => ?_
      have hne : id ∉ kept rest keys → id ≠ effect.subject := fun hid heq => hid (heq ▸ hkept)
      simpa using hne

theorem keysAfter_cons_of_not_mem (h : effect.entry? ≠ none) {keys : List Text}
    (hnew : effect.subject ∉ keys) :
    keysAfter (effect :: rest) keys = keysAfter rest (keys ++ [effect.subject]) := by
  unfold keysAfter
  rw [kept_cons_of_entered h, arrivals_cons_of_entered h]
  split
  · next hdropped =>
      have hkept : kept rest (keys ++ [effect.subject]) = kept rest keys := by
        simp [kept, hdropped]
      rw [hkept]
  · next hstays =>
      have hkept : kept rest (keys ++ [effect.subject]) = kept rest keys ++ [effect.subject] := by
        simp [kept, hstays]
      have hunkept : effect.subject ∉ kept rest keys := fun hmem => hnew (mem_kept.1 hmem).1
      rw [hkept, List.filter_cons_of_pos (by simpa using hunkept), List.filter_filter,
        List.append_assoc, List.singleton_append]
      congr 2
      refine List.filter_congr fun id _ => ?_
      simp

theorem keys_foldl_write (effects : List Effect) (table : Keyed (Option Text)) :
    (effects.foldl (fun table effect => effect.write table) table).keys =
      keysAfter effects table.keys := by
  induction effects generalizing table with
  | nil => simp [keysAfter, kept, Dropped, arrivals]
  | cons effect rest ih =>
      rw [List.foldl_cons, ih, keys_write]
      split
      · next hdropped => rw [keysAfter_cons_of_dropped hdropped]
      · next hentered =>
          split
          · next hmem => rw [keysAfter_cons_of_mem hentered hmem]
          · next hnew => rw [keysAfter_cons_of_not_mem hentered hnew]

example : keysAfter
    [⟨.removeItem, "Axe", none⟩, ⟨.moveItemTo, "Bow", none⟩, ⟨.moveItemTo, "Axe", none⟩]
    ["Axe", "Bow", "Cup"] = ["Bow", "Cup", "Axe"] := by decide

end Effect

/-! ## What a rule yields -/

instance (effect : Effect) : Decidable effect.Targeted :=
  inferInstanceAs (Decidable (_ → _))

namespace Rule

def Loses (rule : Rule) (kind : Movable) (id : Text) : Prop :=
  ∃ effect ∈ rule.lastAbout kind id, ¬ effect.Targeted

instance (rule : Rule) (kind : Movable) (id : Text) : Decidable (rule.Loses kind id) :=
  inferInstanceAs (Decidable (∃ effect ∈ rule.lastAbout kind id, _))

/-- What a rule leaves without a place, items before characters and each kind in the order of
its table. -/
def stranded (rule : Rule) (world : World) : List Unplaced :=
  [Movable.item, Movable.character].flatMap fun kind =>
    ((Effect.keysAfter (rule.moving kind) (world.table kind).keys).filter
      fun id => rule.Loses kind id).map kind.unplaced

/-- A world that comes of another by the effects of a rule, the last of them for each thing,
for the location, the scene and the ending. -/
structure Yields (rule : Rule) (world next : World) : Prop where
  place : ∀ kind id, (next.table kind).get? id =
    match rule.lastAbout kind id with
    | some effect => effect.place?
    | none => (world.table kind).get? id
  order : ∀ kind, (next.table kind).keys =
    Effect.keysAfter (rule.moving kind) (world.table kind).keys
  location : next.location =
    match rule.lastOf .movePlayerTo with
    | some effect => effect.subject
    | none => world.location
  discovered : ∀ id, id ∈ next.discovered ↔
    id ∈ world.discovered ∨ ∃ effect ∈ rule.effects, effect.Discovers id
  scene : next.scene =
    match rule.lastOf .setScene with
    | some effect => effect.subject
    | none => world.scene
  ending : next.ending =
    match rule.lastOf .setEnding with
    | some effect => some effect.subject
    | none => world.ending

variable {rule : Rule} {world next : World}

theorem Yields.unique {other : World} (h : rule.Yields world next)
    (hother : rule.Yields world other) : next = other := by
  have htable : ∀ kind, next.table kind = other.table kind := fun kind =>
    Keyed.eq_of_keys ((h.order kind).trans (hother.order kind).symm)
      fun id => (h.place kind id).trans (hother.place kind id).symm
  have hitems : next.items = other.items := htable .item
  have hcharacters : next.characters = other.characters := htable .character
  have hdiscovered : next.discovered = other.discovered :=
    IdSet.ext_mem fun id => (h.discovered id).trans (hother.discovered id).symm
  have hlocation := h.location.trans hother.location.symm
  have hscene := h.scene.trans hother.scene.symm
  have hending := h.ending.trans hother.ending.symm
  cases next
  cases other
  simp_all

theorem keys_draft_table (rule : Rule) (world : World) (kind : Movable) :
    ((rule.draft world).table kind).keys =
      Effect.keysAfter (rule.moving kind) (world.table kind).keys := by
  rw [draft_table, Effect.keys_foldl_write, Keyed.keys_map]

theorem get?_draft_table_eq_none_iff (world : World) {kind : Movable} {id : Text} :
    ((rule.draft world).table kind).get? id = some none ↔ rule.Loses kind id := by
  rw [get?_draft_table]
  unfold Loses
  cases rule.lastAbout kind id with
  | none => simp
  | some effect => simp [Effect.entry?_eq_some_none_iff]

theorem absent_draft_table (rule : Rule) (world : World) (kind : Movable) :
    ((rule.draft world).table kind).absent =
      (Effect.keysAfter (rule.moving kind) (world.table kind).keys).filter
        fun id => rule.Loses kind id := by
  rw [Keyed.absent_eq_filter, keys_draft_table]
  refine List.filter_congr fun id _ => ?_
  rw [Bool.eq_iff_iff, decide_eq_true_iff, ← get?_draft_table_eq_none_iff world]
  simp [Option.any_eq_true]

theorem draft_unplaced (rule : Rule) (world : World) :
    (rule.draft world).unplaced = rule.stranded world := by
  unfold stranded
  simp only [← absent_draft_table, List.flatMap_cons, List.flatMap_nil, List.append_nil]
  rfl

/-- A rule leaves something without a place wherever it fires, or nowhere. -/
theorem stranded_eq_nil_iff : rule.stranded world = [] ↔ ∀ kind id, ¬ rule.Loses kind id := by
  have hkind : ∀ kind, ((rule.draft world).table kind).absent = [] ↔
      ∀ id, ¬ rule.Loses kind id := by
    intro kind
    rw [Keyed.absent_eq_nil_iff]
    exact forall_congr' fun id => not_congr (get?_draft_table_eq_none_iff world)
  unfold stranded
  simp only [← absent_draft_table, List.flatMap_cons, List.flatMap_nil, List.append_nil,
    List.append_eq_nil_iff, List.map_eq_nil_iff, hkind]
  refine ⟨fun h kind => ?_, fun h => ⟨h .item, h .character⟩⟩
  cases kind with
  | item => exact h.1
  | character => exact h.2

theorem exists_yields (h : ∀ kind id, ¬ rule.Loses kind id) (world : World) :
    ∃ next, rule.apply world = .ok next ∧ rule.Yields world next := by
  let draft := rule.draft world
  let next : World := ⟨draft.location, draft.items.present, draft.characters.present,
    draft.discovered, draft.scene, draft.ending⟩
  have hunplaced : draft.unplaced = [] := by
    rw [draft_unplaced, stranded_eq_nil_iff.2 h]
  have hnext : rule.apply world = .ok next := Draft.settle_eq_ok_iff.2 ⟨hunplaced, rfl⟩
  have htable : ∀ kind, next.table kind = (draft.table kind).present := by
    intro kind
    cases kind <;> rfl
  have habsent : ∀ kind, (draft.table kind).absent = [] := by
    intro kind
    rw [Keyed.absent_eq_nil_iff]
    exact fun id => mt (get?_draft_table_eq_none_iff world).1 (h kind id)
  refine ⟨next, hnext, ⟨fun kind id => ?_, fun kind => ?_, draft_location rule world,
    fun id => mem_draft_discovered, draft_scene rule world, draft_ending rule world⟩⟩
  · rw [htable, Keyed.get?_present, get?_draft_table]
    cases rule.lastAbout kind id with
    | none => cases (world.table kind).get? id <;> rfl
    | some effect => rfl
  · rw [htable, Keyed.keys_present (habsent kind), keys_draft_table]

theorem apply_eq_error (h : ∃ kind id, rule.Loses kind id) (world : World) :
    rule.apply world = .error (rule.stranded world) := by
  have hstranded : rule.stranded world ≠ [] := by
    rw [Ne, stranded_eq_nil_iff]
    obtain ⟨kind, id, hloses⟩ := h
    exact fun hsettled => hsettled kind id hloses
  unfold apply Draft.settle
  rw [draft_unplaced]
  split
  · next hnil => exact absurd hnil hstranded
  · rfl

/-- A rule gives the one world that its last effects make, unless the last effect about
something moves it to no location; then it names all such things. -/
theorem apply_eq_iff (rule : Rule) (world : World) :
    (∀ next, rule.apply world = .ok next ↔
      (¬ ∃ kind id, rule.Loses kind id) ∧ rule.Yields world next) ∧
    ∀ unplaced, rule.apply world = .error unplaced ↔
      (∃ kind id, rule.Loses kind id) ∧ unplaced = rule.stranded world := by
  by_cases hloses : ∃ kind id, rule.Loses kind id
  · have hfails := apply_eq_error hloses world
    simp [hfails, hloses, eq_comm]
  · have hsettled : ∀ kind id, ¬ rule.Loses kind id := by simpa using hloses
    obtain ⟨yielded, hyielded, hyields⟩ := exists_yields hsettled world
    constructor
    · intro next
      rw [hyielded, Except.ok.injEq]
      constructor
      · rintro rfl
        exact ⟨hloses, hyields⟩
      · exact fun h => hyields.unique h.2
    · intro unplaced
      rw [hyielded]
      constructor
      · intro h
        cases h
      · exact fun h => absurd h.1 hloses

end Rule

end Playthrough
