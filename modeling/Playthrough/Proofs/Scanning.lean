import Mathlib.Data.List.Forall2
import Playthrough.Walk.Visited
import Playthrough.World

/-!
# Visited states as a plain list

Visited states are looked up by their views.  A plain list of worlds that is scanned from its
start, and that compares each thing a player sees with every world in it, gives the same
replies to any sequence of queries.  So a world is found exactly if one was added before that
resembles it, whatever order its tables are in and wherever the things are that nobody sees.
-/

namespace Playthrough

/-! ## Worlds that show the same -/

namespace World

/-- Each of the seven things that a player sees is the same in both worlds. -/
structure Resembles (world other : World) : Prop where
  location_eq : other.location = world.location
  itemsHere : ∀ item, other.items.get? item = some other.location ↔
    world.items.get? item = some world.location
  inventory : ∀ item, other.items.get? item = some inventoryPlace ↔
    world.items.get? item = some inventoryPlace
  discovered : ∀ place, place ∈ other.discovered ↔ place ∈ world.discovered
  charactersHere : ∀ character, other.characters.get? character = some other.location ↔
    world.characters.get? character = some world.location
  scene_eq : other.scene = world.scene
  ending_eq : other.ending = world.ending

variable {world other : World}

theorem resembles_of_observablyEqual (h : ObservablyEqual world other) :
    world.Resembles other where
  location_eq := (congrArg View.location h).symm
  itemsHere item := by
    have hsame : world.itemsAt world.location = other.itemsAt other.location :=
      congrArg View.itemsHere h
    rw [← mem_itemsAt, ← mem_itemsAt, hsame]
  inventory item := by
    have hsame : world.itemsAt inventoryPlace = other.itemsAt inventoryPlace :=
      congrArg View.inventory h
    rw [← mem_itemsAt, ← mem_itemsAt, hsame]
  discovered place := by rw [show world.discovered = other.discovered from
    congrArg View.discovered h]
  charactersHere character := by
    have hsame : world.charactersAt world.location = other.charactersAt other.location :=
      congrArg View.charactersHere h
    rw [← mem_charactersAt, ← mem_charactersAt, hsame]
  scene_eq := (congrArg View.scene h).symm
  ending_eq := (congrArg View.ending h).symm

theorem Resembles.observablyEqual (h : world.Resembles other) : ObservablyEqual world other := by
  have hitems : world.itemsAt world.location = other.itemsAt other.location :=
    IdSet.ext_mem fun item => by rw [mem_itemsAt, mem_itemsAt, h.itemsHere]
  have hinventory : world.itemsAt inventoryPlace = other.itemsAt inventoryPlace :=
    IdSet.ext_mem fun item => by rw [mem_itemsAt, mem_itemsAt, h.inventory]
  have hcharacters : world.charactersAt world.location = other.charactersAt other.location :=
    IdSet.ext_mem fun character => by
      rw [mem_charactersAt, mem_charactersAt, h.charactersHere]
  have hdiscovered : world.discovered = other.discovered :=
    IdSet.ext_mem fun place => (h.discovered place).symm
  change world.view = other.view
  unfold view
  rw [hitems, hinventory, hcharacters, hdiscovered, h.location_eq, h.scene_eq, h.ending_eq]

theorem observablyEqual_iff_resembles : ObservablyEqual world other ↔ world.Resembles other :=
  ⟨resembles_of_observablyEqual, Resembles.observablyEqual⟩

instance (world other : World) : Decidable (world.Resembles other) :=
  decidable_of_iff _ observablyEqual_iff_resembles

/-! ## What nobody sees -/

def itemsInSight (world : World) : List (Text × Text) :=
  world.items.entries.filter fun entry =>
    decide (entry.2 = world.location ∨ entry.2 = inventoryPlace)

def charactersInSight (world : World) : List (Text × Text) :=
  world.characters.entries.filter fun entry => decide (entry.2 = world.location)

theorem mem_itemsInSight {item place : Text} :
    (item, place) ∈ world.itemsInSight ↔
      world.items.get? item = some place ∧ (place = world.location ∨ place = inventoryPlace) := by
  rw [Keyed.get?_eq_some_iff]
  simp [itemsInSight]

theorem mem_charactersInSight {character place : Text} :
    (character, place) ∈ world.charactersInSight ↔
      world.characters.get? character = some place ∧ place = world.location := by
  rw [Keyed.get?_eq_some_iff]
  simp [charactersInSight]

/-- Worlds that differ, if at all, in the order of their tables and in where things are that
are out of sight. -/
structure DiffersUnseen (world other : World) : Prop where
  location_eq : other.location = world.location
  items : other.itemsInSight.Perm world.itemsInSight
  characters : other.charactersInSight.Perm world.charactersInSight
  discovered_eq : other.discovered = world.discovered
  scene_eq : other.scene = world.scene
  ending_eq : other.ending = world.ending

theorem DiffersUnseen.resembles (h : world.DiffersUnseen other) : world.Resembles other where
  location_eq := h.location_eq
  itemsHere item := by
    have hmem := h.items.mem_iff (a := (item, world.location))
    simpa [mem_itemsInSight, h.location_eq] using hmem
  inventory item := by
    have hmem := h.items.mem_iff (a := (item, inventoryPlace))
    simpa [mem_itemsInSight] using hmem
  discovered place := by rw [h.discovered_eq]
  charactersHere character := by
    have hmem := h.characters.mem_iff (a := (character, world.location))
    simpa [mem_charactersInSight, h.location_eq] using hmem
  scene_eq := h.scene_eq
  ending_eq := h.ending_eq

end World

/-! ## Queries -/

/-- What a collection of states is asked: to take a state in, if it is new, or whether it
holds one. -/
inductive Query (σ : Type) where
  | add (state : σ)
  | has (state : σ)
  deriving DecidableEq, Repr

structure Reply where
  result : Bool
  size : Nat
  deriving DecidableEq, Repr

/-- The same is asked about states that are related. -/
inductive Query.Alike {σ : Type} (same : σ → σ → Prop) : Query σ → Query σ → Prop
  | add {state other : σ} (h : same state other) : Alike same (.add state) (.add other)
  | has {state other : σ} (h : same state other) : Alike same (.has state) (.has other)

theorem Query.Alike.imp {σ : Type} {same like : σ → σ → Prop}
    (himp : ∀ state other, same state other → like state other) {query other : Query σ}
    (h : query.Alike same other) : query.Alike like other := by
  cases h with
  | add h => exact .add (himp _ _ h)
  | has h => exact .has (himp _ _ h)

section

variable {σ S : Type} (ask : Query σ → S → Bool × S) (size : S → Nat)

def asked (queries : List (Query σ)) (collection : S) : S :=
  queries.foldl (fun collection query => (ask query collection).2) collection

def replies : List (Query σ) → S → List Reply
  | [], _ => []
  | query :: queries, collection =>
      ⟨(ask query collection).1, size (ask query collection).2⟩ ::
        replies queries (ask query collection).2

end

variable {σ : Type} [Observable σ]

def Visited.ask : Query σ → Visited σ → Bool × Visited σ
  | .add state, visited => (decide (state ∉ visited), visited.add state)
  | .has state, visited => (decide (state ∈ visited), visited)

def scan (worlds : List World) (world : World) : Bool :=
  worlds.any fun other => decide (other.Resembles world)

def askList : Query World → List World → Bool × List World
  | .add world, worlds =>
      if scan worlds world then (false, worlds) else (true, worlds ++ [world])
  | .has world, worlds => (scan worlds world, worlds)

def AddedLike (queries : List (Query World)) (world : World) : Prop :=
  ∃ other, .add other ∈ queries ∧ other.Resembles world

/-! ## Replies -/

namespace Visited

theorem mem_asked {queries : List (Query σ)} {visited : Visited σ} {state : σ} :
    state ∈ asked ask queries visited ↔
      state ∈ visited ∨ ∃ other, .add other ∈ queries ∧ ObservablyEqual other state := by
  induction queries generalizing visited with
  | nil => simp [asked]
  | cons query queries ih =>
      change state ∈ asked ask queries (ask query visited).2 ↔ _
      rw [ih]
      cases query with
      | add added =>
          simp only [ask, mem_add, List.mem_cons, Query.add.injEq, or_and_right, exists_or,
            exists_eq_left]
          rw [or_assoc, or_left_comm]
      | has held => simp [ask]

/-- Replies depend on what the states show, and on nothing else. -/
theorem replies_congr {queries others : List (Query σ)}
    (h : List.Forall₂ (Query.Alike ObservablyEqual) queries others) {visited twin : Visited σ}
    (hviews : twin.views = visited.views) :
    replies ask size others twin = replies ask size queries visited := by
  induction h generalizing visited twin with
  | nil => rfl
  | cons hquery _ ih =>
      cases hquery with
      | add hlike =>
          have hadded := views_add_congr hviews hlike.symm
          simp only [replies, ask, mem_congr hviews hlike.symm, size_congr hadded, ih hadded]
      | has hlike =>
          simp only [replies, ask, mem_congr hviews hlike.symm, size_congr hviews, ih hviews]

/-! ## The list -/

theorem scan_states (visited : Visited World) (world : World) :
    scan visited.states world = decide (world ∈ visited) := by
  rw [Bool.eq_iff_iff, decide_eq_true_iff, mem_iff]
  simp [scan, World.observablyEqual_iff_resembles]

theorem askList_states (query : Query World) (visited : Visited World) :
    askList query visited.states = ((ask query visited).1, (ask query visited).2.states) := by
  cases query with
  | add world =>
      simp only [askList, ask, scan_states, decide_eq_true_iff, states_add]
      split <;> simp [*]
  | has world => simp only [askList, ask, scan_states]

theorem asked_states (queries : List (Query World)) (visited : Visited World) :
    asked askList queries visited.states = (asked ask queries visited).states := by
  induction queries generalizing visited with
  | nil => rfl
  | cons query queries ih =>
      change asked askList queries (askList query visited.states).2 = _
      rw [askList_states, ih]
      rfl

theorem replies_states (queries : List (Query World)) (visited : Visited World) :
    replies askList List.length queries visited.states = replies ask size queries visited := by
  induction queries generalizing visited with
  | nil => rfl
  | cons query queries ih =>
      simp only [replies, askList_states, ih]
      rfl

/-- Visited states reply to any sequence of queries as a list does that is scanned from its
start.  A world is found exactly if a world that resembles it was added before, and it is taken
in exactly if none was.  What nobody sees has no part in this. -/
theorem replies_eq_scan (queries : List (Query World)) :
    replies ask size queries ∅ = replies askList List.length queries [] ∧
    (asked ask queries ∅).states = asked askList queries [] ∧
    (∀ world, world ∈ asked ask queries ∅ ↔ AddedLike queries world) ∧
    (∀ world,
      (AddedLike queries world ∧
        ask (.add world) (asked ask queries ∅) = (false, asked ask queries ∅)) ∨
      (¬ AddedLike queries world ∧
        ∃ visited, ask (.add world) (asked ask queries ∅) = (true, visited) ∧
          visited.states = (asked ask queries ∅).states ++ [world])) ∧
    ∀ others, List.Forall₂ (Query.Alike World.DiffersUnseen) queries others →
      replies ask size others ∅ = replies ask size queries ∅ := by
  have hmem : ∀ world, world ∈ asked ask queries ∅ ↔ AddedLike queries world := by
    intro world
    rw [mem_asked, or_iff_right not_mem_empty]
    simp only [World.observablyEqual_iff_resembles, AddedLike]
  refine ⟨(replies_states queries ∅).symm, (asked_states queries ∅).symm, hmem, ?_, ?_⟩
  · intro world
    rw [← hmem]
    by_cases hknown : world ∈ asked ask queries ∅
    · exact .inl ⟨hknown, by simp [ask, add_of_mem hknown, hknown]⟩
    · refine .inr ⟨hknown, (asked ask queries ∅).add world, ?_, ?_⟩
      · simp [ask, hknown]
      · rw [states_add, if_neg hknown]
  · intro others hothers
    refine replies_congr (hothers.imp fun _ _ hquery => ?_) rfl
    exact hquery.imp fun _ _ hunseen => hunseen.resembles.observablyEqual

def lampHall : World where
  location := "Hall"
  items := .ofList [("Lamp", "Hall"), ("Ball", "Cellar"), ("Coin", inventoryPlace)]
  characters := .ofList [("Ann", "Hall"), ("Bob", "Attic")]
  discovered := .ofList ["Hall", "Attic"]
  scene := "start"
  ending := none

/-- The same hall with all tables in another order, the ball and Bob elsewhere, and a key that
nobody sees. -/
def lampHallAgain : World where
  location := "Hall"
  items := .ofList [("Key", "Well"), ("Coin", inventoryPlace), ("Ball", "Attic"), ("Lamp", "Hall")]
  characters := .ofList [("Bob", "Cellar"), ("Ann", "Hall")]
  discovered := .ofList ["Attic", "Hall"]
  scene := "start"
  ending := none

def inTurn (first second : World) : List (Query World) :=
  [.has first, .add first, .add second]

theorem lampHall_replies :
    List.Forall₂ (Query.Alike World.DiffersUnseen) (inTurn lampHall lampHallAgain)
      (inTurn lampHallAgain lampHall) ∧
    replies ask size (inTurn lampHall lampHallAgain) ∅ = [⟨false, 0⟩, ⟨true, 1⟩, ⟨false, 1⟩] ∧
    replies ask size (inTurn lampHallAgain lampHall) ∅ =
      replies ask size (inTurn lampHall lampHallAgain) ∅ := by
  have hagain : lampHall.DiffersUnseen lampHallAgain :=
    ⟨rfl, by decide, by decide, by decide, rfl, rfl⟩
  have hback : lampHallAgain.DiffersUnseen lampHall :=
    ⟨rfl, hagain.items.symm, hagain.characters.symm, hagain.discovered_eq.symm, rfl, rfl⟩
  have hqueries : List.Forall₂ (Query.Alike World.DiffersUnseen)
      (inTurn lampHall lampHallAgain) (inTurn lampHallAgain lampHall) :=
    .cons (.has hagain) (.cons (.add hagain) (.cons (.add hback) .nil))
  obtain ⟨-, -, -, -, hothers⟩ := replies_eq_scan (inTurn lampHall lampHallAgain)
  exact ⟨hqueries, by decide, hothers _ hqueries⟩

end Visited

end Playthrough
