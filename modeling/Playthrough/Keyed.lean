import Playthrough.Text.Basic

/-!
# Keyed tables

A finite table from ids to values that remembers the order in which its keys
arrived.  Giving a present key a new value leaves the key in its place; a key that
is erased and given a value again goes last.
-/

namespace Playthrough

/-- Entries in order of arrival; no key occurs twice. -/
structure Keyed (α : Type) where
  entries : List (Text × α)
  nodup : (entries.map Prod.fst).Nodup
  deriving DecidableEq, Repr

namespace Keyed

variable {α β : Type}

def empty : Keyed α := ⟨[], List.nodup_nil⟩

instance : EmptyCollection (Keyed α) := ⟨empty⟩

instance : Inhabited (Keyed α) := ⟨empty⟩

def keys (table : Keyed α) : List Text := table.entries.map Prod.fst

def get? (table : Keyed α) (key : Text) : Option α := table.entries.lookup key

instance : Membership Text (Keyed α) := ⟨fun table key => key ∈ table.keys⟩

theorem mem_iff {key : Text} {table : Keyed α} :
    key ∈ table ↔ key ∈ table.keys := Iff.rfl

/-! ## Entry lists -/

/-- Give a key a value in a list of entries: in place if it occurs, else at the end. -/
def assign (key : Text) (value : α) : List (Text × α) → List (Text × α)
  | [] => [(key, value)]
  | entry :: rest =>
      if entry.1 = key then (key, value) :: rest else entry :: assign key value rest

theorem lookup_cons (key : Text) (entry : Text × α) (rest : List (Text × α)) :
    (entry :: rest).lookup key = if key = entry.1 then some entry.2 else rest.lookup key := by
  change (match key == entry.1 with
    | true => some entry.2
    | false => rest.lookup key) = _
  by_cases h : key = entry.1
  · rw [if_pos h, beq_iff_eq.2 h]
  · rw [if_neg h, beq_eq_false_iff_ne.2 h]

theorem map_fst_assign (key : Text) (value : α) (entries : List (Text × α)) :
    (assign key value entries).map Prod.fst =
      if key ∈ entries.map Prod.fst then entries.map Prod.fst
      else entries.map Prod.fst ++ [key] := by
  induction entries with
  | nil => simp [assign]
  | cons entry rest ih =>
      simp only [assign]
      by_cases h : entry.1 = key
      · simp [h]
      · have hne : ¬ key = entry.1 := fun heq => h heq.symm
        rw [if_neg h, List.map_cons, ih]
        by_cases hmem : key ∈ rest.map Prod.fst
        · simp only [hmem, if_true, List.map_cons, List.mem_cons, or_true]
        · simp only [hmem, if_false, List.map_cons, List.mem_cons, hne, or_false,
            List.cons_append]

theorem nodup_assign {key : Text} {value : α} {entries : List (Text × α)}
    (h : (entries.map Prod.fst).Nodup) :
    ((assign key value entries).map Prod.fst).Nodup := by
  rw [map_fst_assign]
  split
  · exact h
  · next hmem =>
      refine List.nodup_append.2 ⟨h, by simp, fun a ha b hb => ?_⟩
      rw [List.mem_singleton.1 hb]
      exact fun heq => hmem (heq ▸ ha)

theorem lookup_assign (key other : Text) (value : α) (entries : List (Text × α)) :
    (assign key value entries).lookup other =
      if other = key then some value else entries.lookup other := by
  induction entries with
  | nil => simp [assign, lookup_cons]
  | cons entry rest ih =>
      simp only [assign]
      by_cases h : entry.1 = key
      · subst h
        rw [if_pos rfl, lookup_cons, lookup_cons]
        split <;> rfl
      · rw [if_neg h, lookup_cons, lookup_cons, ih]
        by_cases ho : other = entry.1
        · subst ho
          simp [h]
        · simp [ho]

/-! ## Operations -/

def insert (key : Text) (value : α) (table : Keyed α) : Keyed α :=
  ⟨assign key value table.entries, nodup_assign table.nodup⟩

def erase (key : Text) (table : Keyed α) : Keyed α :=
  ⟨table.entries.filter fun entry => entry.1 != key,
    (List.filter_sublist.map Prod.fst).nodup table.nodup⟩

/-- Enter a list of entries one after the other: a repeated key keeps its first place
and takes its last value. -/
def ofList (entries : List (Text × α)) : Keyed α :=
  entries.foldl (fun table entry => table.insert entry.1 entry.2) ∅

def keysWhere (test : α → Bool) (table : Keyed α) : List Text :=
  (table.entries.filter fun entry => test entry.2).map Prod.fst

def map (f : α → β) (table : Keyed α) : Keyed β :=
  ⟨table.entries.map fun entry => (entry.1, f entry.2), by
    simpa [List.map_map, Function.comp_def] using table.nodup⟩

def present (table : Keyed (Option α)) : Keyed α :=
  ⟨table.entries.filterMap fun entry => entry.2.map fun value => (entry.1, value), by
    have hsub : ((table.entries.filterMap fun entry =>
        entry.2.map fun value => (entry.1, value)).map Prod.fst).Sublist
        (table.entries.map Prod.fst) := by
      induction table.entries with
      | nil => simp
      | cons entry rest ih =>
          obtain ⟨key, held⟩ := entry
          cases held with
          | none => simpa using ih.cons key
          | some value => simpa using ih
    exact hsub.nodup table.nodup⟩

def absent (table : Keyed (Option α)) : List Text :=
  table.keysWhere Option.isNone

/-! ## Reading an operation's result -/

@[simp] theorem get?_empty (key : Text) : (∅ : Keyed α).get? key = none := rfl

@[simp] theorem get?_insert (key other : Text) (value : α) (table : Keyed α) :
    (table.insert key value).get? other =
      if other = key then some value else table.get? other :=
  lookup_assign key other value table.entries

@[simp] theorem get?_erase (key other : Text) (table : Keyed α) :
    (table.erase key).get? other = if other = key then none else table.get? other := by
  obtain ⟨entries, nodup⟩ := table
  simp only [get?, erase]
  clear nodup
  induction entries with
  | nil => simp
  | cons entry rest ih =>
      rw [lookup_cons]
      by_cases hf : entry.1 = key
      · rw [List.filter_cons_of_neg (by simp [hf]), ih]
        split
        · rfl
        · next ho => rw [if_neg fun heq => ho (heq.trans hf)]
      · rw [List.filter_cons_of_pos (by simpa using hf), lookup_cons, ih]
        by_cases ho : other = entry.1
        · subst ho
          simp [hf]
        · simp [ho]

@[simp] theorem get?_map (f : α → β) (key : Text) (table : Keyed α) :
    (table.map f).get? key = (table.get? key).map f := by
  obtain ⟨entries, nodup⟩ := table
  simp only [get?, map]
  clear nodup
  induction entries with
  | nil => rfl
  | cons entry rest ih =>
      rw [List.map_cons, lookup_cons, lookup_cons, ih]
      split <;> rfl

theorem get?_eq_some_iff {key : Text} {value : α} {table : Keyed α} :
    table.get? key = some value ↔ (key, value) ∈ table.entries := by
  obtain ⟨entries, nodup⟩ := table
  simp only [get?]
  induction entries with
  | nil => simp
  | cons entry rest ih =>
      obtain ⟨first, held⟩ := entry
      simp only [List.map_cons, List.nodup_cons] at nodup
      rw [lookup_cons]
      by_cases h : key = first
      · subst h
        have hnot : (key, value) ∉ rest := fun hmem =>
          nodup.1 (List.mem_map.2 ⟨(key, value), hmem, rfl⟩)
        simp [hnot, eq_comm]
      · simpa [h] using ih nodup.2

theorem mem_keysWhere {test : α → Bool} {key : Text} {table : Keyed α} :
    key ∈ table.keysWhere test ↔ ∃ value, table.get? key = some value ∧ test value := by
  simp only [keysWhere, List.mem_map, List.mem_filter, get?_eq_some_iff]
  constructor
  · rintro ⟨⟨first, held⟩, ⟨hmem, htest⟩, rfl⟩
    exact ⟨held, hmem, htest⟩
  · rintro ⟨value, hmem, htest⟩
    exact ⟨(key, value), ⟨hmem, htest⟩, rfl⟩

theorem mem_absent {key : Text} {table : Keyed (Option α)} :
    key ∈ table.absent ↔ table.get? key = some none := by
  simp [absent, mem_keysWhere]

end Keyed

end Playthrough
