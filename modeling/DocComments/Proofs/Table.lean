import DocComments.Table
import Mathlib.Data.List.Basic

/-!
# Tables entry by entry

What is stored in a table can be read off its entries: `contains_iff` and `get?_eq_some_iff`. The
entries in turn are known from the names and what is stored under them (`entries_eq_filterMap`). The
other lemmas say what storing a value does to a list of entries of which only some matter, those
behind a front part or those whose names are kept.
-/

namespace DocComments

namespace Table

universe u

variable {α β : Type u} {key name : String} {value : α} {table : Table α}

theorem eq_of_entries {left right : Table α} (same : left.entries = right.entries) :
    left = right := by
  cases left
  cases right
  cases same
  rfl

theorem contains_iff : table.contains key = true ↔ key ∈ table.keys := by
  rw [contains, get?, List.lookup_isSome_iff, keys, List.mem_map]
  constructor
  · rintro ⟨entry, member, same⟩
    exact ⟨entry, member, (eq_of_beq same).symm⟩
  · rintro ⟨entry, member, rfl⟩
    exact ⟨entry, member, beq_self_eq_true _⟩

theorem contains_eq_false_iff : table.contains key = false ↔ key ∉ table.keys := by
  rw [← Bool.not_eq_true, contains_iff]

theorem contains_insert :
    (table.insert key value).contains name = (decide (name = key) || table.contains name) := by
  rw [contains, get?_insert]
  by_cases same : name = key
  · simp [same]
  · simp [same, contains]

/-- The names are distinct, so the value of a name is the one it has in any of the entries. -/
theorem get?_eq_some_iff : table.get? key = some value ↔ (key, value) ∈ table.entries := by
  rw [get?, List.lookup_eq_some_iff]
  constructor
  · rintro ⟨front, back, split, -⟩
    rw [split]
    exact List.mem_append_right _ List.mem_cons_self
  · intro member
    obtain ⟨front, back, split⟩ := List.append_of_mem member
    refine ⟨front, back, split, ?_⟩
    intro entry earlier
    have distinct := table.distinct
    rw [split, List.map_append, List.map_cons, List.nodup_append] at distinct
    rw [bne_iff_ne]
    exact (distinct.2.2 entry.1 (List.mem_map_of_mem earlier) key List.mem_cons_self).symm

theorem get?_eq_none_iff : table.get? key = none ↔ key ∉ table.keys := by
  rw [← contains_eq_false_iff, contains, Option.isSome_eq_false_iff, Option.isNone_iff_eq_none]

/-- The entries are the names in order, each with its value. -/
theorem entries_eq_filterMap (table : Table α) :
    table.entries = table.keys.filterMap fun key => (table.get? key).map (key, ·) := by
  rw [keys, List.filterMap_map]
  have value : ∀ entry ∈ table.entries,
      ((fun key => (table.get? key).map (key, ·)) ∘ Prod.fst) entry = some entry := by
    rintro ⟨key, value⟩ member
    rw [Function.comp_apply, get?_eq_some_iff.mpr member, Option.map_some]
  rw [List.filterMap_congr value, List.filterMap_some]

/-! ### Storing twice -/

theorem insertEntry_of_lookup {entries : List (String × α)}
    (stored : entries.lookup key = some value) : insertEntry key value entries = entries := by
  induction entries with
  | nil => simp at stored
  | cons entry rest ih =>
      obtain ⟨first, here⟩ := entry
      by_cases same : first = key
      · subst same
        have value : here = value := by simpa using stored
        rw [insertEntry, if_pos rfl, value]
      · have other : (key == first) = false := beq_false_of_ne (Ne.symm same)
        rw [List.lookup_cons, other] at stored
        rw [insertEntry, if_neg same, ih stored]

theorem insertEntry_insertEntry (first second : α) (entries : List (String × α)) :
    insertEntry key second (insertEntry key first entries) = insertEntry key second entries := by
  induction entries with
  | nil => simp [insertEntry]
  | cons entry rest ih =>
      obtain ⟨name, stored⟩ := entry
      by_cases same : name = key
      · simp [insertEntry, same]
      · simp [insertEntry, same, ih]

/-- Storing the value that is there changes nothing. -/
theorem insert_of_get? (stored : table.get? key = some value) : table.insert key value = table :=
  eq_of_entries (insertEntry_of_lookup stored)

theorem insert_insert (first second : α) :
    (table.insert key first).insert key second = table.insert key second :=
  eq_of_entries (insertEntry_insertEntry first second table.entries)

/-! ### Storing in a part of the entries -/

theorem insertEntry_append {front : List (String × α)} (fresh : key ∉ front.map Prod.fst)
    (value : α) (back : List (String × α)) :
    insertEntry key value (front ++ back) = front ++ insertEntry key value back := by
  induction front with
  | nil => rfl
  | cons entry front ih =>
      obtain ⟨first, stored⟩ := entry
      rw [List.map_cons, List.mem_cons, not_or] at fresh
      rw [List.cons_append, insertEntry, if_neg (Ne.symm fresh.1), ih fresh.2, List.cons_append]

theorem filter_insertEntry_of_pos (keeps : String → Bool) (kept : keeps key = true)
    (entries : List (String × α)) :
    (insertEntry key value entries).filter (fun entry => keeps entry.1) =
      insertEntry key value (entries.filter fun entry => keeps entry.1) := by
  induction entries with
  | nil => simp [insertEntry, kept]
  | cons entry rest ih =>
      obtain ⟨first, stored⟩ := entry
      by_cases same : first = key
      · simp [insertEntry, same, kept]
      · by_cases other : keeps first = true
        · simp [insertEntry, same, other, ih]
        · simp [insertEntry, same, other, ih]

theorem filter_insertEntry_of_neg (keeps : String → Bool) (dropped : keeps key = false)
    (entries : List (String × α)) :
    (insertEntry key value entries).filter (fun entry => keeps entry.1) =
      entries.filter fun entry => keeps entry.1 := by
  induction entries with
  | nil => simp [insertEntry, dropped]
  | cons entry rest ih =>
      obtain ⟨first, stored⟩ := entry
      by_cases same : first = key
      · simp [insertEntry, same, dropped]
      · simp only [insertEntry, same, if_false, List.filter_cons, ih]

theorem lookup_filter (keeps : String → Bool) (kept : keeps name = true)
    (entries : List (String × α)) :
    (entries.filter fun entry => keeps entry.1).lookup name = entries.lookup name := by
  induction entries with
  | nil => rfl
  | cons entry rest ih =>
      obtain ⟨first, stored⟩ := entry
      by_cases same : name = first
      · subst same
        simp [kept]
      · have other : (name == first) = false := beq_false_of_ne same
        by_cases here : keeps first = true
        · simp [here, List.lookup_cons, other, ih]
        · simp [here, List.lookup_cons, other, ih]

/-! ### Changing every value -/

/-- The table with every value changed in its place. -/
def mapValues (change : String → α → β) (table : Table α) : Table β where
  entries := table.entries.map fun (key, value) => (key, change key value)
  distinct := by
    rw [List.map_map]
    exact table.distinct

theorem get?_mapValues (change : String → α → β) (table : Table α) (key : String) :
    (table.mapValues change).get? key = (table.get? key).map (change key) := by
  show (table.entries.map fun (key, value) => (key, change key value)).lookup key =
    (table.entries.lookup key).map (change key)
  induction table.entries with
  | nil => rfl
  | cons entry rest ih =>
      obtain ⟨first, stored⟩ := entry
      by_cases same : key = first
      · simp [same]
      · simp [List.lookup_cons, beq_false_of_ne same, ih]

end Table

end DocComments
