/-!
# Dictionaries

A `Dictionary` maps names to values and lists them in the order of the names, which is the order of
their UTF-8 bytes. It carries what a resolver attaches to a comment, so that the text written for a
comment does not depend on the order in which the resolver worked.
-/

namespace DocComments

universe u

namespace Dictionary

variable {α : Type u}

/-- Puts a pair where its name belongs, in place of a pair with the same name. -/
def insertEntry (key : String) (value : α) : List (String × α) → List (String × α)
  | [] => [(key, value)]
  | (name, stored) :: rest =>
    if name < key then (name, stored) :: insertEntry key value rest
    else if name = key then (key, value) :: rest
    else (key, value) :: (name, stored) :: rest

/-- The pairs in the order of their names; of pairs with one name the last. -/
def sortEntries (pairs : List (String × α)) : List (String × α) :=
  pairs.foldl (fun sorted (key, value) => insertEntry key value sorted) []

/-- Whether the names of the pairs increase strictly. -/
def Sorted (entries : List (String × α)) : Prop := (entries.map Prod.fst).Pairwise (· < ·)

theorem mem_insertEntry {key name : String} {value : α} {entries : List (String × α)}
    (member : name ∈ (insertEntry key value entries).map Prod.fst) :
    name = key ∨ name ∈ entries.map Prod.fst := by
  induction entries with
  | nil => simpa [insertEntry] using member
  | cons entry rest ih =>
      obtain ⟨first, stored⟩ := entry
      unfold insertEntry at member
      split at member
      · simp only [List.map_cons, List.mem_cons] at member ⊢
        rcases member with rfl | later
        · exact Or.inr (Or.inl rfl)
        · exact (ih later).imp_right Or.inr
      · split at member
        · rename_i same
          simp only [List.map_cons, List.mem_cons] at member ⊢
          exact member.imp_right Or.inr
        · simpa using member

theorem sorted_insertEntry (key : String) (value : α) {entries : List (String × α)}
    (sorted : Sorted entries) : Sorted (insertEntry key value entries) := by
  induction entries with
  | nil => simp [Sorted, insertEntry]
  | cons entry rest ih =>
      obtain ⟨first, stored⟩ := entry
      simp only [Sorted, List.map_cons, List.pairwise_cons] at sorted
      obtain ⟨below, tail⟩ := sorted
      unfold insertEntry
      split
      · rename_i before
        simp only [Sorted, List.map_cons, List.pairwise_cons]
        refine ⟨fun name member => ?_, ih tail⟩
        rcases mem_insertEntry member with rfl | later
        · exact before
        · exact below name later
      · rename_i notBefore
        split
        · rename_i same
          subst same
          simp only [Sorted, List.map_cons, List.pairwise_cons]
          exact ⟨below, tail⟩
        · rename_i different
          have before : key < first :=
            String.not_le.mp fun le =>
              different (String.le_antisymm le (String.not_lt.mp notBefore))
          simp only [Sorted, List.map_cons, List.pairwise_cons, List.mem_cons]
          refine ⟨fun name member => ?_, below, tail⟩
          rcases member with rfl | later
          · exact before
          · exact String.lt_trans before (below name later)

end Dictionary

/-- Named values in the order of their names. -/
structure Dictionary (α : Type u) where
  entries : List (String × α)
  sorted : Dictionary.Sorted entries

namespace Dictionary

variable {α : Type u}

/-- The dictionary without entries. -/
def empty : Dictionary α := ⟨[], List.Pairwise.nil⟩

instance : EmptyCollection (Dictionary α) := ⟨empty⟩

instance : Inhabited (Dictionary α) := ⟨empty⟩

/-- The value stored under `key`. -/
def get? (dictionary : Dictionary α) (key : String) : Option α := dictionary.entries.lookup key

/-- Stores `value` under `key`, in place of a value that is already there. -/
def insert (dictionary : Dictionary α) (key : String) (value : α) : Dictionary α :=
  ⟨insertEntry key value dictionary.entries, sorted_insertEntry key value dictionary.sorted⟩

end Dictionary

end DocComments
