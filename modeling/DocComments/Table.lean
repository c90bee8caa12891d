/-!
# Tables

A `Table` maps names to values and remembers the order in which the names came. Storing a value
under a name that is already there keeps the name's place, and a new name goes last:
`keys_insert`. `get?_insert` says what is read back.
-/

namespace DocComments

universe u

/-- Named values in the order in which the names were first stored. -/
structure Table (α : Type u) where
  entries : List (String × α)
  distinct : (entries.map Prod.fst).Nodup

namespace Table

variable {α : Type u}

/-- The table without entries. -/
def empty : Table α := ⟨[], List.nodup_nil⟩

instance : EmptyCollection (Table α) := ⟨empty⟩

instance : Inhabited (Table α) := ⟨empty⟩

/-- The names of a table in order. -/
def keys (table : Table α) : List String := table.entries.map Prod.fst

/-- The number of names. -/
def size (table : Table α) : Nat := table.entries.length

/-- The value stored under `key`. -/
def get? (table : Table α) (key : String) : Option α := table.entries.lookup key

/-- Whether a value is stored under `key`. -/
def contains (table : Table α) (key : String) : Bool := (table.get? key).isSome

/-- Replaces the value of `key` where it stands, or adds it at the end. -/
def insertEntry (key : String) (value : α) : List (String × α) → List (String × α)
  | [] => [(key, value)]
  | (name, stored) :: rest =>
    if name = key then (name, value) :: rest else (name, stored) :: insertEntry key value rest

theorem map_fst_insertEntry (key : String) (value : α) (entries : List (String × α)) :
    (insertEntry key value entries).map Prod.fst =
      if key ∈ entries.map Prod.fst then entries.map Prod.fst
      else entries.map Prod.fst ++ [key] := by
  induction entries with
  | nil => simp [insertEntry]
  | cons entry rest ih =>
      obtain ⟨name, stored⟩ := entry
      by_cases same : name = key
      · simp [insertEntry, same]
      · have other : key ≠ name := fun h => same h.symm
        simp only [insertEntry, same, if_false, List.map_cons, ih, List.mem_cons, other, false_or]
        split <;> simp

theorem lookup_insertEntry (key name : String) (value : α) (entries : List (String × α)) :
    (insertEntry key value entries).lookup name =
      if name = key then some value else entries.lookup name := by
  induction entries with
  | nil =>
      by_cases same : name = key
      · simp [insertEntry, same]
      · simp [insertEntry, List.lookup_cons, same, beq_false_of_ne same]
  | cons entry rest ih =>
      obtain ⟨first, stored⟩ := entry
      by_cases here : first = key
      · by_cases same : name = key
        · simp [insertEntry, here, same]
        · simp [insertEntry, List.lookup_cons, here, same, beq_false_of_ne same]
      · by_cases same : name = key
        · subst same
          have other : (name == first) = false := beq_false_of_ne fun h => here h.symm
          simp [insertEntry, List.lookup_cons, here, other, ih]
        · simp [insertEntry, List.lookup_cons, here, same, ih]

/-- Stores `value` under `key`. -/
def insert (table : Table α) (key : String) (value : α) : Table α where
  entries := insertEntry key value table.entries
  distinct := by
    rw [map_fst_insertEntry]
    split
    · exact table.distinct
    · rename_i fresh
      refine List.nodup_append.mpr ⟨table.distinct, by simp, ?_⟩
      intro name member other isKey
      simp only [List.mem_singleton] at isKey
      exact fun same => fresh (isKey ▸ same ▸ member)

/-- A name keeps its place, and a new one goes last. -/
theorem keys_insert (table : Table α) (key : String) (value : α) :
    (table.insert key value).keys =
      if key ∈ table.keys then table.keys else table.keys ++ [key] :=
  map_fst_insertEntry key value table.entries

/-- What was stored is read back, and nothing else changes. -/
theorem get?_insert (table : Table α) (key name : String) (value : α) :
    (table.insert key value).get? name = if name = key then some value else table.get? name :=
  lookup_insertEntry key name value table.entries

@[simp] theorem get?_empty (name : String) : (empty : Table α).get? name = none := rfl

/-- The table that results from storing all pairs in order. -/
def ofList (pairs : List (String × α)) : Table α :=
  pairs.foldl (fun table (key, value) => table.insert key value) empty

end Table

end DocComments
