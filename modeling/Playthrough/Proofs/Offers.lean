import Mathlib.Data.List.Nodup
import Mathlib.Data.List.Pairwise
import Playthrough.Proofs.Placement

/-!
# What worlds offer

An id is offered as a character here, an item here, an item that is carried, or a location
that has been discovered.  In the worlds of an accepted story nothing is offered as two kinds
of things.  Where carried items lie is a place like others, and a story may declare it as a
location: then what is carried is offered twice while the player stands there.  Otherwise
every id is offered once.
-/

namespace Playthrough

theorem eq_of_nodup_flatMap {κ : Type} {kinds : List κ} {ids : κ → List Text}
    (h : (kinds.flatMap ids).Nodup) {kind other : κ} (hkind : kind ∈ kinds)
    (hother : other ∈ kinds) {id : Text} (hid : id ∈ ids kind) (hid_other : id ∈ ids other) :
    kind = other := by
  have hsymm : Std.Symm (Function.onFun List.Disjoint ids) := ⟨fun _ _ h => h.symm⟩
  by_contra hne
  exact (List.nodup_flatMap.1 h).2.forall hkind hother hne hid hid_other

/-! ## Four groups -/

/-- What an id can be offered as, in the order of the groups. -/
inductive Offer where
  | character
  | item
  | carried
  | location
  deriving DecidableEq, Repr

namespace Offer

def all : List Offer := [character, item, carried, location]

theorem mem_all (offer : Offer) : offer ∈ all := by
  cases offer <;> decide

def kind : Offer → EntityKind
  | character => .character
  | item => .item
  | carried => .item
  | location => .location

theorem eq_or_of_kind_eq {offer other : Offer} (h : offer.kind = other.kind) :
    offer = other ∨ (offer = item ∧ other = carried) ∨ (offer = carried ∧ other = item) := by
  revert h
  cases offer <;> cases other <;> decide

end Offer

namespace World

def Presents (world : World) : Offer → Text → Prop
  | .character, id => world.characters.get? id = some world.location
  | .item, id => world.items.get? id = some world.location
  | .carried, id => world.items.get? id = some inventoryPlace
  | .location, id => id ∈ world.discovered

def group (world : World) : Offer → IdSet
  | .character => world.charactersAt world.location
  | .item => world.itemsAt world.location
  | .carried => world.itemsAt inventoryPlace
  | .location => world.discovered

/-- The ids that can be tried stand group by group, each group complete and ascending. -/
def Lists (world : World) (ids : List Text) : Prop :=
  ∃ groups : Offer → List Text, ids = Offer.all.flatMap groups ∧
    ∀ offer, (groups offer).Pairwise (· < ·) ∧ ∀ id, id ∈ groups offer ↔ world.Presents offer id

/-- Every id is offered once, as one thing. -/
structure OffersOnce (world : World) : Prop where
  listed : world.Lists (interactables world)
  apart : ∀ id offer other, world.Presents offer id → world.Presents other id → offer = other
  nodup : (interactables world).Nodup

/-- The player stands where carried items lie, and something is carried. -/
def StandsAmongCarried (world : World) : Prop :=
  world.location = inventoryPlace ∧ ∃ item, world.items.get? item = some inventoryPlace

variable {world : World}

theorem mem_group {offer : Offer} {id : Text} :
    id ∈ world.group offer ↔ world.Presents offer id := by
  cases offer with
  | character => exact mem_charactersAt
  | item => exact mem_itemsAt
  | carried => exact mem_itemsAt
  | location => exact Iff.rfl

theorem interactables_eq_flatMap (world : World) :
    interactables world = Offer.all.flatMap fun offer => (world.group offer).toList := by
  simp [Offer.all, group, interactables, View.interactables, Observable.view, view]

theorem lists_interactables (world : World) : world.Lists (interactables world) :=
  ⟨fun offer => (world.group offer).toList, world.interactables_eq_flatMap,
    fun offer => ⟨(world.group offer).ascending, fun _ => mem_group⟩⟩

theorem nodup_interactables_iff :
    (interactables world).Nodup ↔
      ∀ id offer other, world.Presents offer id → world.Presents other id → offer = other := by
  rw [interactables_eq_flatMap]
  constructor
  · intro hnodup id offer other hoffer hother
    exact eq_of_nodup_flatMap hnodup offer.mem_all other.mem_all (mem_group.2 hoffer)
      (mem_group.2 hother)
  · intro hunique
    refine List.nodup_flatMap.2 ⟨fun offer _ => (world.group offer).nodup, ?_⟩
    have hall : Offer.all.Nodup := by decide
    refine hall.pairwise_of_forall_ne fun offer _ other _ hne id hoffer hother => hne ?_
    exact hunique id offer other (mem_group.1 hoffer) (mem_group.1 hother)

end World

/-! ## Worlds that keep to a manifest -/

namespace Manifest

variable {manifest : Manifest} {world : World}

theorem kind_unique (h : manifest.entityIds.Nodup) {kind other : EntityKind} {id : Text}
    (hid : id ∈ manifest.declared kind) (hother : id ∈ manifest.declared other) :
    kind = other := by
  have hgroups : manifest.entityIds =
      [EntityKind.item, .location, .character].flatMap manifest.declared := by
    simp [entityIds, Manifest.declared]
  rw [hgroups] at h
  refine eq_of_nodup_flatMap h ?_ ?_ hid hother
  · cases kind <;> decide
  · cases other <;> decide

theorem Hosts.declared (h : manifest.Hosts world) {offer : Offer} {id : Text}
    (hid : world.Presents offer id) : id ∈ manifest.declared offer.kind := by
  cases offer with
  | character => exact (h.characters_placed id _ hid).1
  | item => exact (h.items_placed id _ hid).1
  | carried => exact (h.items_placed id _ hid).1
  | location => exact h.discovered_declared id hid

theorem Hosts.offersOnce_iff (h : manifest.Hosts world) (hdistinct : manifest.entityIds.Nodup) :
    world.OffersOnce ↔ ¬ world.StandsAmongCarried := by
  constructor
  · rintro honce ⟨hlocation, item, hcarried⟩
    have hhere : world.Presents .item item := hcarried.trans (congrArg some hlocation.symm)
    cases honce.apart item .item .carried hhere hcarried
  · intro hstands
    have hapart : ∀ id offer other, world.Presents offer id → world.Presents other id →
        offer = other := by
      intro id offer other hoffer hother
      have hkind : offer.kind = other.kind :=
        kind_unique hdistinct (h.declared hoffer) (h.declared hother)
      have hitem : world.Presents .item id → ¬ world.Presents .carried id := by
        intro hhere hcarried
        exact hstands ⟨Option.some.inj (hhere.symm.trans hcarried), id, hcarried⟩
      rcases Offer.eq_or_of_kind_eq hkind with heq | ⟨rfl, rfl⟩ | ⟨rfl, rfl⟩
      · exact heq
      · exact absurd hother (hitem hoffer)
      · exact absurd hoffer (hitem hother)
    exact ⟨world.lists_interactables, hapart, World.nodup_interactables_iff.2 hapart⟩

theorem Hosts.not_standsAmongCarried (h : manifest.Hosts world)
    (hreserved : inventoryPlace ∉ manifest.locations) : ¬ world.StandsAmongCarried :=
  fun hstands => hreserved (hstands.1 ▸ h.location_declared)

end Manifest

/-! ## Accepted stories -/

namespace Story

/-- Whatever is tried in an accepted story, each world lists what it offers group by group and
offers no id as two kinds of things.  It offers every id once unless the player stands where
carried items lie while something is carried; in a story that declares no location there,
always. -/
theorem exists_worlds_offering (document : Json) (root : Text) (story : Story)
    (hload : load document root = .ok story) (entities : List Text) :
    ∃ worlds, (Rule.engine story.rules).tryAll entities story.manifest.startWorld =
        .ok worlds ∧
      (∀ world ∈ story.manifest.startWorld :: worlds,
        world.Lists (interactables world) ∧
        (∀ id offer other, world.Presents offer id → world.Presents other id →
          offer.kind = other.kind) ∧
        (world.OffersOnce ↔ ¬ world.StandsAmongCarried)) ∧
      (inventoryPlace ∉ story.manifest.locations →
        ∀ world ∈ story.manifest.startWorld :: worlds, world.OffersOnce) := by
  have hconsistent := consistent_of_load hload
  have hdistinct := hconsistent.ids_distinct
  have hanswer : ∀ entity world, story.manifest.Hosts world → ∃ outcome,
      (Rule.engine story.rules).attempt entity world = .ok outcome ∧
        story.manifest.Hosts outcome.next ∧ True := by
    intro entity world hworld
    obtain ⟨outcome, hattempt⟩ := hconsistent.exists_attempt entity world
    exact ⟨outcome, hattempt, hconsistent.hosts_next hworld hattempt, trivial⟩
  obtain ⟨worlds, hworlds, hhosts, -⟩ := Engine.exists_tryAll (R := fun _ _ => True)
    (fun _ _ => trivial) hanswer entities hconsistent.hosts_start
  refine ⟨worlds, hworlds, fun world hworld => ?_, fun hreserved world hworld => ?_⟩
  · have hhost := hhosts world hworld
    refine ⟨world.lists_interactables, fun id offer other hoffer hother => ?_,
      hhost.offersOnce_iff hdistinct⟩
    exact Manifest.kind_unique hdistinct (hhost.declared hoffer) (hhost.declared hother)
  · have hhost := hhosts world hworld
    exact (hhost.offersOnce_iff hdistinct).2 (hhost.not_standsAmongCarried hreserved)

theorem umbrella_offers_once :
    load umbrella.toJson "Begining" = .ok umbrella ∧
    inventoryPlace ∉ umbrella.manifest.locations ∧
    ∃ worlds, (Rule.engine umbrella.rules).tryAll ["Umbrella", "Umbrella", "Porch"]
        umbrella.manifest.startWorld = .ok worlds ∧
      ∀ world ∈ umbrella.manifest.startWorld :: worlds, world.OffersOnce := by
  have hreserved : inventoryPlace ∉ umbrella.manifest.locations := by decide
  obtain ⟨worlds, hworlds, -, honce⟩ :=
    exists_worlds_offering _ _ umbrella load_umbrella ["Umbrella", "Umbrella", "Porch"]
  exact ⟨load_umbrella, hreserved, worlds, hworlds, honce hreserved⟩

/-- A story that takes place where carried items lie. -/
def pocket : Story where
  title := "Pocket"
  manifest :=
    { items := ["Ball"]
      locations := [inventoryPlace]
      characters := []
      startLocation := inventoryPlace
      itemPlacement := .ofList [("Ball", inventoryPlace)]
      characterPlacement := ∅
      startScene := "start" }
  rules := []

/-- The ball lies here and is carried. -/
theorem not_forall_offersOnce :
    ¬ ∀ (document : Json) (root : Text) (story : Story), load document root = .ok story →
      ∀ (entities : List Text) (worlds : List World),
        (Rule.engine story.rules).tryAll entities story.manifest.startWorld = .ok worlds →
        ∀ world ∈ story.manifest.startWorld :: worlds, world.OffersOnce := by
  intro h
  have hload : load pocket.toJson "Begining" = .ok pocket := by decide +kernel
  have honce := h _ _ pocket hload [] [] rfl _ List.mem_cons_self
  have hhere : pocket.manifest.startWorld.Presents .item "Ball" := rfl
  have hcarried : pocket.manifest.startWorld.Presents .carried "Ball" := rfl
  cases honce.apart _ _ _ hhere hcarried

end Story

end Playthrough
