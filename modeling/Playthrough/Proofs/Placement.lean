import Playthrough.Proofs.Endings

/-!
# Worlds of accepted stories

The rules of an accepted story name only what the story declares.  So whatever a player
tries, in whatever order, every attempt is answered, everything in the worlds that follow
is declared and in a declared place, and what has been discovered stays discovered.
-/

namespace Playthrough

/-! ## One attempt after the other -/

namespace Engine

variable {σ ε : Type}

/-- Try some things one after the other, each in the state that the one before it led to.
The states that follow are listed; the first attempt that fails ends the series. -/
def tryAll (engine : Engine σ ε) : List Text → σ → Except ε (List σ)
  | [], _ => .ok []
  | entity :: entities, state =>
      match engine.attempt entity state with
      | .error fault => .error fault
      | .ok outcome => (engine.tryAll entities outcome.next).map (outcome.next :: ·)

theorem exists_tryAll {engine : Engine σ ε} {P : σ → Prop} {R : σ → σ → Prop}
    (htrans : ∀ {first second third}, R first second → R second third → R first third)
    (hanswer : ∀ entity state, P state →
      ∃ outcome, engine.attempt entity state = .ok outcome ∧ P outcome.next ∧
        R state outcome.next)
    (entities : List Text) {start : σ} (hstart : P start) :
    ∃ states, engine.tryAll entities start = .ok states ∧
      (∀ state ∈ start :: states, P state) ∧ (start :: states).Pairwise R := by
  induction entities generalizing start with
  | nil => exact ⟨[], rfl, by simpa using hstart, List.pairwise_singleton _ _⟩
  | cons entity entities ih =>
      obtain ⟨outcome, hattempt, hnext, hrelated⟩ := hanswer entity start hstart
      obtain ⟨states, hstates, hkept, hpairwise⟩ := ih hnext
      refine ⟨outcome.next :: states, ?_, ?_, ?_⟩
      · simp [tryAll, hattempt, hstates, Except.map]
      · intro state hstate
        rcases List.mem_cons.1 hstate with rfl | hlater
        · exact hstart
        · exact hkept state hlater
      · refine List.pairwise_cons.2 ⟨fun state hstate => ?_, hpairwise⟩
        rcases List.mem_cons.1 hstate with rfl | hlater
        · exact hrelated
        · exact htrans hrelated ((List.pairwise_cons.1 hpairwise).1 state hlater)

end Engine

/-! ## Worlds that keep to a manifest -/

namespace Manifest

def AllowsItem (manifest : Manifest) (item place : Text) : Prop :=
  item ∈ manifest.items ∧ (place = inventoryPlace ∨ place ∈ manifest.locations)

def AllowsCharacter (manifest : Manifest) (character place : Text) : Prop :=
  character ∈ manifest.characters ∧ place ∈ manifest.locations

/-- Everything in a world is declared and in a declared place, and the player stands at a
place that has been discovered. -/
structure Hosts (manifest : Manifest) (world : World) : Prop where
  location_declared : world.location ∈ manifest.locations
  location_discovered : world.location ∈ world.discovered
  discovered_declared : ∀ place ∈ world.discovered, place ∈ manifest.locations
  items_placed : world.items.All manifest.AllowsItem
  characters_placed : world.characters.All manifest.AllowsCharacter

structure HostsDraft (manifest : Manifest) (draft : Draft) : Prop where
  location_declared : draft.location ∈ manifest.locations
  location_discovered : draft.location ∈ draft.discovered
  discovered_declared : ∀ place ∈ draft.discovered, place ∈ manifest.locations
  items_placed : draft.items.All fun item held =>
    ∀ place, held = some place → manifest.AllowsItem item place
  characters_placed : draft.characters.All fun character held =>
    ∀ place, held = some place → manifest.AllowsCharacter character place

variable {manifest : Manifest}

theorem Hosts.draft {world : World} (h : manifest.Hosts world) :
    manifest.HostsDraft (Draft.ofWorld world) where
  location_declared := h.location_declared
  location_discovered := h.location_discovered
  discovered_declared := h.discovered_declared
  items_placed := h.items_placed.map fun _ _ hallowed _ heq =>
    Option.some.inj heq ▸ hallowed
  characters_placed := h.characters_placed.map fun _ _ hallowed _ heq =>
    Option.some.inj heq ▸ hallowed

theorem HostsDraft.settle {draft : Draft} {world : World} (h : manifest.HostsDraft draft)
    (hworld : draft.settle = .ok world) : manifest.Hosts world := by
  obtain ⟨-, rfl⟩ := Draft.settle_eq_ok_iff.1 hworld
  exact ⟨h.location_declared, h.location_discovered, h.discovered_declared,
    h.items_placed.present, h.characters_placed.present⟩

theorem HostsDraft.discover {draft : Draft} (h : manifest.HostsDraft draft) {place : Text}
    (hplace : place ∈ manifest.locations) :
    ∀ other ∈ draft.discovered.insert place, other ∈ manifest.locations := by
  intro other hother
  rcases IdSet.mem_insert.1 hother with rfl | hold
  · exact hplace
  · exact h.discovered_declared other hold

theorem HostsDraft.apply {draft : Draft} (h : manifest.HostsDraft draft) {effect : Effect}
    (hresolved : ∀ reference ∈ effect.references, reference.Resolved manifest) :
    manifest.HostsDraft (effect.apply draft) := by
  have hsubject : ∀ kind, effect.kind.subjectKind = some kind →
      effect.subject ∈ manifest.declared kind := fun _ => effect.subject_declared hresolved
  have htarget : effect.kind.targetKind = some .location →
      ∀ place, effect.target = some place → place ∈ manifest.locations := by
    intro hkind place hplace
    obtain ⟨id, hid, hdeclared⟩ := effect.exists_target hresolved hkind
    rw [hplace] at hid
    cases hid
    exact hdeclared
  unfold Effect.apply
  cases hkind : effect.kind with
  | moveItemToInventory =>
      have hitem := hsubject .item (by simp [hkind, EffectKind.subjectKind])
      refine { h with items_placed := h.items_placed.insert fun place heq => ⟨hitem, ?_⟩ }
      exact .inl (Option.some.inj heq).symm
  | moveItemTo =>
      have hitem := hsubject .item (by simp [hkind, EffectKind.subjectKind])
      have hplace := htarget (by simp [hkind, EffectKind.targetKind])
      refine { h with items_placed := h.items_placed.insert fun place heq => ⟨hitem, ?_⟩ }
      exact .inr (hplace place heq)
  | removeItem => exact { h with items_placed := h.items_placed.erase _ }
  | moveCharacterTo =>
      have hcharacter := hsubject .character (by simp [hkind, EffectKind.subjectKind])
      have hplace := htarget (by simp [hkind, EffectKind.targetKind])
      exact { h with
        characters_placed := h.characters_placed.insert fun place heq =>
          ⟨hcharacter, hplace place heq⟩ }
  | removeCharacter => exact { h with characters_placed := h.characters_placed.erase _ }
  | movePlayerTo =>
      have hplace := hsubject .location (by simp [hkind, EffectKind.subjectKind])
      exact { h with
        location_declared := hplace
        location_discovered := IdSet.mem_insert.2 (.inl rfl)
        discovered_declared := h.discover hplace }
  | discoverLocation =>
      have hplace := hsubject .location (by simp [hkind, EffectKind.subjectKind])
      exact { h with
        location_discovered := IdSet.mem_insert.2 (.inr h.location_discovered)
        discovered_declared := h.discover hplace }
  | setScene => exact { h with }
  | setEnding => exact { h with }

theorem Hosts.rule_apply {root : Text} {rule : Rule} {world next : World}
    (h : manifest.Hosts world) (hrule : rule.Consistent manifest root)
    (hnext : rule.apply world = .ok next) : manifest.Hosts next := by
  have hdraft : manifest.HostsDraft (rule.draft world) :=
    Rule.draft_keeps h.draft fun _ hdraft _ heffect =>
      hdraft.apply (hrule.effect_resolved heffect)
  exact hdraft.settle hnext

theorem Hosts.interact {world : World} (h : manifest.Hosts world) (entity : Text) :
    manifest.Hosts (world.interact entity) := by
  unfold World.interact
  split
  · next hitem =>
      have hdeclared := (h.items_placed entity _ (World.mem_itemsAt.1 hitem)).1
      exact { h with items_placed := h.items_placed.insert ⟨hdeclared, .inl rfl⟩ }
  · split
    · next hplace =>
        exact { h with
          location_declared := h.discovered_declared entity hplace.1
          location_discovered := hplace.1 }
    · exact h

end Manifest

theorem Story.Consistent.hosts_start {story : Story} {root : Text}
    (h : story.Consistent root) : story.manifest.Hosts story.manifest.startWorld where
  location_declared := h.start_declared
  location_discovered := by simp [Manifest.startWorld]
  discovered_declared := by simpa [Manifest.startWorld] using h.start_declared
  items_placed := Keyed.all_of_entries h.items_placed
  characters_placed := Keyed.all_of_entries h.characters_placed

theorem Story.Consistent.hosts_next {story : Story} {root : Text}
    (h : story.Consistent root) {entity : Text} {world : World} {outcome : Outcome World}
    (hworld : story.manifest.Hosts world)
    (hattempt : (Rule.engine story.rules).attempt entity world = .ok outcome) :
    story.manifest.Hosts outcome.next := by
  rcases Rule.attempt_cases hattempt with ⟨-, rfl⟩ | ⟨-, rule, hrule, -, next, happly, rfl⟩ |
    ⟨-, -, rfl⟩
  · exact hworld
  · exact hworld.rule_apply (h.rules_consistent rule hrule) happly
  · exact hworld.interact entity

/-! ## Discovery -/

def World.Remembers (earlier later : World) : Prop :=
  ∀ place ∈ earlier.discovered, place ∈ later.discovered

theorem Effect.discovered_apply (effect : Effect) (draft : Draft) :
    ∀ place ∈ draft.discovered, place ∈ (effect.apply draft).discovered := by
  intro place hplace
  unfold Effect.apply
  cases effect.kind with
  | movePlayerTo => exact IdSet.mem_insert.2 (.inr hplace)
  | discoverLocation => exact IdSet.mem_insert.2 (.inr hplace)
  | _ => exact hplace

theorem Rule.remembers_apply {rule : Rule} {world next : World}
    (h : rule.apply world = .ok next) : world.Remembers next := by
  have hdraft : ∀ place ∈ world.discovered, place ∈ (rule.draft world).discovered := by
    refine draft_keeps (P := fun draft => ∀ place ∈ world.discovered,
      place ∈ draft.discovered) (fun _ hplace => hplace) ?_
    intro draft hdraft effect _ place hplace
    exact effect.discovered_apply draft place (hdraft place hplace)
  obtain ⟨-, rfl⟩ := Draft.settle_eq_ok_iff.1 h
  exact hdraft

theorem World.remembers_interact (world : World) (entity : Text) :
    world.Remembers (world.interact entity) := by
  intro place hplace
  unfold interact
  split
  · exact hplace
  · split <;> exact hplace

theorem Rule.remembers_next {rules : List Rule} {entity : Text} {world : World}
    {outcome : Outcome World} (h : (engine rules).attempt entity world = .ok outcome) :
    world.Remembers outcome.next := by
  rcases attempt_cases h with ⟨-, rfl⟩ | ⟨-, rule, -, -, next, happly, rfl⟩ | ⟨-, -, rfl⟩
  · exact fun _ hplace => hplace
  · exact remembers_apply happly
  · exact world.remembers_interact entity

/-! ## Accepted stories -/

namespace Story

/-- Whatever is tried in an accepted story, no attempt fails, each world keeps to the
manifest, and nothing that has been discovered is lost. -/
theorem exists_worlds (document : Json) (root : Text) (story : Story)
    (hload : load document root = .ok story) (entities : List Text) :
    ∃ worlds, (Rule.engine story.rules).tryAll entities story.manifest.startWorld =
        .ok worlds ∧
      (∀ world ∈ story.manifest.startWorld :: worlds, story.manifest.Hosts world) ∧
      (story.manifest.startWorld :: worlds).Pairwise fun earlier later =>
        ∀ place ∈ earlier.discovered, place ∈ later.discovered := by
  have hconsistent := consistent_of_load hload
  refine Engine.exists_tryAll (R := World.Remembers) ?_ ?_ entities hconsistent.hosts_start
  · intro first second third hfirst hsecond place hplace
    exact hsecond place (hfirst place hplace)
  · intro entity world hworld
    obtain ⟨outcome, hattempt⟩ := hconsistent.exists_attempt entity world
    exact ⟨outcome, hattempt, hconsistent.hosts_next hworld hattempt,
      Rule.remembers_next hattempt⟩

theorem umbrella_worlds :
    load umbrella.toJson "Begining" = .ok umbrella ∧
    ∃ worlds, (Rule.engine umbrella.rules).tryAll ["Umbrella", "Nobody", "Porch", "Home"]
        umbrella.manifest.startWorld = .ok worlds ∧
      (∀ world ∈ umbrella.manifest.startWorld :: worlds, umbrella.manifest.Hosts world) ∧
      ((umbrella.manifest.startWorld :: worlds).Pairwise fun earlier later =>
        ∀ place ∈ earlier.discovered, place ∈ later.discovered) ∧
      worlds = [umbrellaTaken, umbrellaTaken, umbrellaDry, umbrellaDry] := by
  obtain ⟨worlds, hworlds, hhosts, hgrows⟩ := exists_worlds _ _ umbrella load_umbrella
    ["Umbrella", "Nobody", "Porch", "Home"]
  have htried : (Rule.engine umbrella.rules).tryAll ["Umbrella", "Nobody", "Porch", "Home"]
      umbrella.manifest.startWorld =
        .ok [umbrellaTaken, umbrellaTaken, umbrellaDry, umbrellaDry] := by decide +kernel
  exact ⟨load_umbrella, worlds, hworlds, hhosts, hgrows,
    Except.ok.inj (hworlds.symm.trans htried)⟩

end Story

end Playthrough
