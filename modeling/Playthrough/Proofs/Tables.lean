import Mathlib.Data.List.Basic
import Mathlib.Data.List.Induction
import Playthrough.Keyed

/-!
# The entries of a table

A table is made of its entries: entering them one after the other gives the table again.  A
property of all entries is kept when a key is erased or the values are changed along with
the property, and when a new entry has it too.
-/

namespace Playthrough.Keyed

variable {α β : Type}

@[simp] theorem get?_present (table : Keyed (Option α)) (key : Text) :
    table.present.get? key = (table.get? key).join := by
  ext value
  rw [get?_eq_some_iff, Option.join_eq_some_iff, get?_eq_some_iff]
  simp only [present, List.mem_filterMap, Option.map_eq_some_iff]
  constructor
  · rintro ⟨⟨first, held⟩, hmem, _, rfl, heq⟩
    cases heq
    exact hmem
  · intro hmem
    exact ⟨(key, some value), hmem, value, rfl, rfl⟩

theorem eq_of_entries {table other : Keyed α} (h : table.entries = other.entries) :
    table = other := by
  cases table
  cases other
  cases h
  rfl

theorem assign_of_not_mem {key : Text} {value : α} {entries : List (Text × α)}
    (h : key ∉ entries.map Prod.fst) : assign key value entries = entries ++ [(key, value)] := by
  induction entries with
  | nil => rfl
  | cons entry rest ih =>
      rw [List.map_cons, List.mem_cons, not_or] at h
      rw [assign, if_neg (Ne.symm h.1), ih h.2, List.cons_append]

theorem mem_of_mem_assign {key : Text} {value : α} {entries : List (Text × α)}
    {entry : Text × α} (h : entry ∈ assign key value entries) :
    entry = (key, value) ∨ entry ∈ entries := by
  induction entries with
  | nil => exact .inl (List.mem_singleton.1 h)
  | cons first rest ih =>
      rw [assign] at h
      split at h
      · exact (List.mem_cons.1 h).imp_right (List.mem_cons_of_mem first)
      · rcases List.mem_cons.1 h with rfl | hrest
        · exact .inr List.mem_cons_self
        · exact (ih hrest).imp_right (List.mem_cons_of_mem first)

theorem mem_of_mem_ofList {entries : List (Text × α)} {entry : Text × α}
    (h : entry ∈ (ofList entries).entries) : entry ∈ entries := by
  induction entries using List.reverseRecOn with
  | nil => exact h
  | append_singleton entries last ih =>
      rw [ofList, List.foldl_append] at h
      rcases mem_of_mem_assign h with rfl | hold
      · simp
      · exact List.mem_append_left _ (ih hold)

theorem entries_ofList {entries : List (Text × α)} (h : (entries.map Prod.fst).Nodup) :
    (ofList entries).entries = entries := by
  have hfold : ∀ (rest : List (Text × α)) (table : Keyed α),
      ((table.entries ++ rest).map Prod.fst).Nodup →
      (rest.foldl (fun table entry => table.insert entry.1 entry.2) table).entries =
        table.entries ++ rest := by
    intro rest
    induction rest with
    | nil => simp
    | cons entry rest ih =>
        intro table hnodup
        have hnew : entry.1 ∉ table.entries.map Prod.fst := by
          rw [List.map_append, List.map_cons] at hnodup
          exact fun hmem => (List.nodup_append.1 hnodup).2.2 _ hmem _ List.mem_cons_self rfl
        have hinsert : (table.insert entry.1 entry.2).entries = table.entries ++ [entry] :=
          assign_of_not_mem hnew
        rw [List.foldl_cons, ih, hinsert, List.append_assoc, List.singleton_append]
        rwa [hinsert, List.append_assoc, List.singleton_append]
  exact hfold entries ∅ h

@[simp] theorem ofList_entries (table : Keyed α) : ofList table.entries = table :=
  eq_of_entries (entries_ofList table.nodup)

/-! ## The order of the keys -/

theorem keys_insert (key : Text) (value : α) (table : Keyed α) :
    (table.insert key value).keys =
      if key ∈ table.keys then table.keys else table.keys ++ [key] :=
  map_fst_assign key value table.entries

theorem keys_erase (key : Text) (table : Keyed α) :
    (table.erase key).keys = table.keys.filter (· ≠ key) := by
  unfold keys
  rw [List.filter_map]
  refine congrArg (List.map Prod.fst) (List.filter_congr fun entry _ => ?_)
  rw [Function.comp_apply, Bool.eq_iff_iff, bne_iff_ne, decide_eq_true_iff]

theorem keys_map (f : α → β) (table : Keyed α) : (table.map f).keys = table.keys := by
  simp [keys, map, Function.comp_def]

theorem absent_eq_filter (table : Keyed (Option α)) :
    table.absent = table.keys.filter fun key => (table.get? key).any Option.isNone := by
  unfold absent keysWhere keys
  rw [List.filter_map]
  refine congrArg (List.map Prod.fst) (List.filter_congr fun entry hentry => ?_)
  rw [Function.comp_apply, get?_eq_some_iff.2 hentry, Option.any_some]

theorem entries_eq_filterMap (table : Keyed α) :
    table.entries =
      table.keys.filterMap fun key => (table.get? key).map fun value => (key, value) := by
  have hentries : table.entries.filterMap some = table.keys.filterMap fun key =>
      (table.get? key).map fun value => (key, value) := by
    unfold keys
    rw [List.filterMap_map]
    refine List.filterMap_congr fun entry hentry => ?_
    rw [Function.comp_apply, get?_eq_some_iff.2 hentry, Option.map_some]
  rw [← hentries, List.filterMap_some]

theorem eq_of_keys {table other : Keyed α} (hkeys : table.keys = other.keys)
    (hget : ∀ key, table.get? key = other.get? key) : table = other := by
  refine eq_of_entries ?_
  rw [entries_eq_filterMap table, entries_eq_filterMap other, hkeys]
  simp only [hget]

theorem keys_present {table : Keyed (Option α)} (h : table.absent = []) :
    table.present.keys = table.keys := by
  have hheld : ∀ entry ∈ table.entries, entry.2 ≠ none := by
    intro entry hentry hnone
    have hlost : entry.1 ∈ table.absent :=
      mem_absent.2 (get?_eq_some_iff.2 (hnone ▸ hentry))
    exact absurd (h ▸ hlost) List.not_mem_nil
  unfold keys present
  rw [List.map_filterMap, ← List.filterMap_eq_map]
  refine List.filterMap_congr fun entry hentry => ?_
  obtain ⟨value, hvalue⟩ := Option.ne_none_iff_exists'.1 (hheld entry hentry)
  simp [hvalue]

/-! ## What all entries have in common -/

def All (p : Text → α → Prop) (table : Keyed α) : Prop :=
  ∀ key value, table.get? key = some value → p key value

variable {p : Text → α → Prop} {table : Keyed α}

theorem all_of_entries (h : ∀ entry ∈ table.entries, p entry.1 entry.2) : table.All p :=
  fun _ _ hvalue => h _ (get?_eq_some_iff.1 hvalue)

theorem All.imp {q : Text → α → Prop} (h : table.All p)
    (himp : ∀ key value, p key value → q key value) : table.All q :=
  fun key value hvalue => himp key value (h key value hvalue)

theorem All.insert (h : table.All p) {key : Text} {value : α} (hnew : p key value) :
    (table.insert key value).All p := by
  intro other held hheld
  rw [get?_insert] at hheld
  split at hheld
  · next heq =>
      cases hheld
      rw [heq]
      exact hnew
  · exact h other held hheld

theorem All.erase (h : table.All p) (key : Text) : (table.erase key).All p := by
  intro other held hheld
  rw [get?_erase] at hheld
  split at hheld
  · cases hheld
  · exact h other held hheld

theorem All.map {q : Text → β → Prop} (h : table.All p) {f : α → β}
    (hf : ∀ key value, p key value → q key (f value)) : (table.map f).All q := by
  intro key value hvalue
  rw [get?_map] at hvalue
  obtain ⟨held, hheld, rfl⟩ := Option.map_eq_some_iff.1 hvalue
  exact hf key held (h key held hheld)

theorem All.present {table : Keyed (Option α)}
    (h : table.All fun key held => ∀ value, held = some value → p key value) :
    table.present.All p := by
  intro key value hvalue
  rw [get?_present, Option.join_eq_some_iff] at hvalue
  exact h key _ hvalue value rfl

end Playthrough.Keyed
