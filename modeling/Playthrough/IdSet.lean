import Playthrough.Text.Basic

/-!
# Sets of ids

A finite set of ids, kept as the ascending list of its members.  Order is by code
point.  Since the list is determined by its members, two sets with the same members
are equal, and listing a set needs no further sorting.
-/

namespace Playthrough

/-- A finite set of ids, listed in ascending order without repetition. -/
structure IdSet where
  toList : List Text
  ascending : toList.Pairwise (· < ·)
  deriving DecidableEq, Repr

namespace IdSet

instance : Membership Text IdSet := ⟨fun s id => id ∈ s.toList⟩

theorem mem_iff {id : Text} {s : IdSet} : id ∈ s ↔ id ∈ s.toList := Iff.rfl

instance (id : Text) (s : IdSet) : Decidable (id ∈ s) :=
  inferInstanceAs (Decidable (id ∈ s.toList))

def empty : IdSet := ⟨[], .nil⟩

instance : EmptyCollection IdSet := ⟨empty⟩

instance : Inhabited IdSet := ⟨empty⟩

/-! ## Insertion -/

def place (id : Text) : List Text → List Text
  | [] => [id]
  | other :: rest =>
      if id < other then id :: other :: rest
      else if id = other then other :: rest
      else other :: place id rest

@[simp] theorem mem_place {id other : Text} {ids : List Text} :
    other ∈ place id ids ↔ other = id ∨ other ∈ ids := by
  induction ids with
  | nil => simp [place]
  | cons first rest ih =>
      simp only [place]
      split
      · simp
      · split
        · next h => subst h; simp
        · simp only [List.mem_cons, ih, or_left_comm]

theorem place_ascending {id : Text} {ids : List Text}
    (h : ids.Pairwise (· < ·)) : (place id ids).Pairwise (· < ·) := by
  induction ids with
  | nil => simp [place]
  | cons first rest ih =>
      obtain ⟨hfirst, hrest⟩ := List.pairwise_cons.1 h
      simp only [place]
      split
      · next hlt =>
          refine List.pairwise_cons.2 ⟨fun other hother => ?_, h⟩
          rcases List.mem_cons.1 hother with rfl | hmem
          · exact hlt
          · exact Text.lt_trans hlt (hfirst other hmem)
      · next hlt =>
          split
          · exact h
          · next hne =>
              refine List.pairwise_cons.2 ⟨fun other hother => ?_, ih hrest⟩
              rcases mem_place.1 hother with rfl | hmem
              · refine Decidable.byContradiction fun hnot => hne ?_
                exact Text.eq_of_not_lt hlt hnot
              · exact hfirst other hmem

def insert (id : Text) (s : IdSet) : IdSet :=
  ⟨place id s.toList, place_ascending s.ascending⟩

@[simp] theorem mem_insert {id other : Text} {s : IdSet} :
    other ∈ s.insert id ↔ other = id ∨ other ∈ s := mem_place

@[simp] theorem not_mem_empty {id : Text} : id ∉ (∅ : IdSet) := List.not_mem_nil

/-! ## Sets from lists -/

def ofList (ids : List Text) : IdSet :=
  ids.foldr insert ∅

@[simp] theorem mem_ofList {id : Text} {ids : List Text} :
    id ∈ ofList ids ↔ id ∈ ids := by
  induction ids with
  | nil => simp [ofList]
  | cons first rest ih =>
      change id ∈ (ofList rest).insert first ↔ _
      simp [ih]

/-! ## Extensionality -/

private theorem eq_of_ascending {xs ys : List Text}
    (hx : xs.Pairwise (· < ·)) (hy : ys.Pairwise (· < ·))
    (h : ∀ id, id ∈ xs ↔ id ∈ ys) : xs = ys := by
  induction xs generalizing ys with
  | nil =>
      cases ys with
      | nil => rfl
      | cons y ys => exact absurd ((h y).2 (by simp)) (by simp)
  | cons x xs ih =>
      cases ys with
      | nil => exact absurd ((h x).1 (by simp)) (by simp)
      | cons y ys =>
          obtain ⟨hxfirst, hxrest⟩ := List.pairwise_cons.1 hx
          obtain ⟨hyfirst, hyrest⟩ := List.pairwise_cons.1 hy
          have hxy : x = y := by
            rcases List.mem_cons.1 ((h x).1 (by simp)) with heq | hmem
            · exact heq
            · rcases List.mem_cons.1 ((h y).2 (by simp)) with heq | hmem'
              · exact heq.symm
              · exact absurd (Text.lt_trans (hyfirst x hmem) (hxfirst y hmem'))
                  (Text.lt_irrefl y)
          subst hxy
          congr 1
          refine ih hxrest hyrest fun id => ⟨fun hid => ?_, fun hid => ?_⟩
          · rcases List.mem_cons.1 ((h id).1 (by simp [hid])) with heq | hmem
            · exact absurd (heq ▸ hxfirst id hid) (Text.lt_irrefl x)
            · exact hmem
          · rcases List.mem_cons.1 ((h id).2 (by simp [hid])) with heq | hmem
            · exact absurd (heq ▸ hyfirst id hid) (Text.lt_irrefl x)
            · exact hmem

theorem ext_mem {s t : IdSet} (h : ∀ id, id ∈ s ↔ id ∈ t) : s = t := by
  cases s; cases t
  simp only [mk.injEq]
  exact eq_of_ascending (by assumption) (by assumption) h

@[simp] theorem ofList_toList (s : IdSet) : ofList s.toList = s :=
  ext_mem fun _ => by rw [mem_ofList, mem_iff]

theorem ofList_eq_ofList_iff {xs ys : List Text} :
    ofList xs = ofList ys ↔ ∀ id, id ∈ xs ↔ id ∈ ys :=
  ⟨fun h id => by rw [← mem_ofList, h, mem_ofList], fun h => ext_mem (by simpa using h)⟩

end IdSet

def repeatedIds (ids : List Text) : IdSet :=
  IdSet.ofList (ids.filter fun id => 1 < ids.count id)

@[simp] theorem mem_repeatedIds {id : Text} {ids : List Text} :
    id ∈ repeatedIds ids ↔ 1 < ids.count id := by
  simp only [repeatedIds, IdSet.mem_ofList, List.mem_filter, decide_eq_true_eq,
    and_iff_right_iff_imp]
  intro h
  exact List.count_pos_iff.1 (by omega)

end Playthrough
