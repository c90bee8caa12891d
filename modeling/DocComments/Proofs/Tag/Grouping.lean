import DocComments.Proofs.Tag.Reader
import DocComments.Report
import Mathlib.Data.List.Induction

/-!
# Grouping by kind

The groups of a list of entries are its parts of one kind, each in the order of the list
(`Groups.get?_ofEntries`), and the kinds stand in the order in which they first occur
(`Groups.keys_ofEntries`). Nothing that is read or computed moves an entry to another place, so the
groups of a report repeat the normal comments (`read_groups`).
-/

namespace DocComments

namespace Groups

theorem ofEntries_concat (entries : List Entry) (entry : Entry) :
    ofEntries (entries ++ [entry]) = (ofEntries entries).add entry := by
  rw [ofEntries, List.foldl_append]
  rfl

theorem getD_of_get?_eq {groups : Groups} {kind : String} {members : List Entry}
    (found : groups.get? kind = if members.isEmpty then none else some members) :
    (groups.get? kind).getD [] = members := by
  rw [found]
  split
  next none => exact (List.isEmpty_iff.mp none).symm
  next => rfl

/-- The group of a kind has the entries of that kind. There is none if there are no such entries. -/
theorem get?_ofEntries (entries : List Entry) (kind : String) :
    (ofEntries entries).get? kind =
      if (entries.filter (·.context.kind = kind)).isEmpty then none
      else some (entries.filter (·.context.kind = kind)) := by
  induction entries using List.reverseRecOn with
  | nil => rfl
  | append_singleton entries entry ih =>
      rw [ofEntries_concat, add, Table.get?_insert, List.filter_append]
      by_cases same : kind = entry.context.kind
      · subst same
        rw [if_pos rfl, getD_of_get?_eq ih]
        simp
      · have other : ¬ entry.context.kind = kind := fun equal => same equal.symm
        rw [if_neg same, ih]
        simp [other]

theorem getD_get?_ofEntries (entries : List Entry) (kind : String) :
    ((ofEntries entries).get? kind).getD [] = entries.filter (·.context.kind = kind) :=
  getD_of_get?_eq (get?_ofEntries entries kind)

/-- In its group an entry stands between those of its kind that come before and after it. -/
theorem get?_ofEntries_append (before after : List Entry) (entry : Entry) :
    (ofEntries (before ++ entry :: after)).get? entry.context.kind =
      some (before.filter (·.context.kind = entry.context.kind) ++
        entry :: after.filter (·.context.kind = entry.context.kind)) := by
  simp [get?_ofEntries]

/-- What stands in a group is one of the entries, and it is of the group's kind. -/
theorem mem_of_mem_ofEntries {entries group : List Entry} {kind : String} {entry : Entry}
    (grouped : (kind, group) ∈ (ofEntries entries).entries) (member : entry ∈ group) :
    entry ∈ entries ∧ entry.context.kind = kind := by
  have found := Table.get?_eq_some_iff.mpr grouped
  rw [get?_ofEntries] at found
  split at found
  next => cases found
  next =>
    obtain rfl := Option.some.inj found
    obtain ⟨inside, ofKind⟩ := List.mem_filter.mp member
    exact ⟨inside, of_decide_eq_true ofKind⟩

theorem eraseDups_concat (kinds : List String) (kind : String) :
    (kinds ++ [kind]).eraseDups =
      if kind ∈ kinds.eraseDups then kinds.eraseDups else kinds.eraseDups ++ [kind] := by
  rw [List.eraseDups_append]
  by_cases known : kind ∈ kinds
  · have left : [kind].removeAll kinds = [] := by simp [List.removeAll, known]
    rw [left, if_pos (List.mem_eraseDups.mpr known), List.eraseDups_nil, List.append_nil]
  · have left : [kind].removeAll kinds = [kind] := by simp [List.removeAll, known]
    rw [left, if_neg (fun member => known (List.mem_eraseDups.mp member))]
    rfl

/-- The kinds stand in the order of their first entries. -/
theorem keys_ofEntries (entries : List Entry) :
    (ofEntries entries).keys = (entries.map (·.context.kind)).eraseDups := by
  induction entries using List.reverseRecOn with
  | nil => rfl
  | append_singleton entries entry ih =>
      rw [ofEntries_concat, add, Table.keys_insert, ih, List.map_append, List.map_singleton,
        eraseDups_concat]

end Groups

namespace TagReader

/-- There is one entry for every normal comment, in their order, and it stands where the comment
stands. -/
theorem map_place_readFrom (reader : TagReader) (poster : Option Entry) (comments : List Comment) :
    (reader.readFrom poster comments).1.map (fun entry => (entry.context, entry.range)) =
      (comments.filter (·.role = .normal)).map fun comment => (comment.context, comment.range) := by
  induction comments generalizing poster with
  | nil => rfl
  | cons comment comments ih =>
      cases role : comment.role with
      | normal =>
          rw [readFrom_cons_normal _ role, List.map_cons, context_entryOf, range_entryOf, ih,
            List.filter_cons_of_pos (by simp [role]), List.map_cons]
      | poster =>
          rw [readFrom_cons_poster _ role, ih, List.filter_cons_of_neg (by simp [role])]

theorem map_kind_readFrom (reader : TagReader) (poster : Option Entry) (comments : List Comment) :
    (reader.readFrom poster comments).1.map (·.context.kind) =
      (comments.filter (·.role = .normal)).map (·.context.kind) := by
  have kinds := congrArg (List.map fun place => place.1.kind)
    (reader.map_place_readFrom poster comments)
  rw [List.map_map, List.map_map] at kinds
  exact kinds

theorem map_place_filter_readFrom (reader : TagReader) (poster : Option Entry)
    (comments : List Comment) (kind : String) :
    ((reader.readFrom poster comments).1.filter (·.context.kind = kind)).map
        (fun entry => (entry.context, entry.range)) =
      ((comments.filter (·.role = .normal)).filter (·.context.kind = kind)).map
        fun comment => (comment.context, comment.range) := by
  have places := congrArg (List.filter fun place => place.1.kind = kind)
    (reader.map_place_readFrom poster comments)
  rw [List.filter_map, List.filter_map] at places
  exact places

/-- Reading a comment alone, or behind one poster, gives one group with one entry. -/
theorem groups_read_alone {comment : Comment} (reader : TagReader) (poster : Option Comment)
    (isPoster : ∀ other ∈ poster, other.isPoster = true) (normal : comment.role = .normal) :
    (reader.read (poster.toList ++ [comment])).groups.entries =
      [(comment.context.kind, [reader.entryOf
        (poster.map fun other => (reader.registry.ownEntry other).1) comment])] := by
  have single (lender : Option Entry) :
      (Groups.ofEntries (reader.readFrom lender [comment]).1).entries =
        [(comment.context.kind, [reader.entryOf lender comment])] := by
    rw [readFrom_cons_normal _ normal, ← context_entryOf reader lender comment]
    rfl
  cases poster with
  | none => exact single none
  | some other =>
      have role : other.role = .poster := of_decide_eq_true (isPoster other rfl)
      show (Groups.ofEntries (reader.readFrom none [other, comment]).1).entries = _
      rw [readFrom_cons_poster _ role]
      exact single _

/-- The groups of a report have the kinds of the normal comments in the order of their first
occurrences, none of them is empty, and each has one entry for every normal comment of its kind, in
their order, with the context and the range of the comment. Posters have none. -/
theorem read_groups (reader : TagReader) (comments : List Comment) :
    let groups := (reader.read comments).groups
    let normal := comments.filter (·.role = .normal)
    groups.keys = (normal.map (·.context.kind)).eraseDups ∧
      (∀ kind, groups.get? kind ≠ some []) ∧
      ∀ kind, ((groups.get? kind).getD []).map (fun entry => (entry.context, entry.range)) =
        (normal.filter (·.context.kind = kind)).map
          fun comment => (comment.context, comment.range) := by
  intro groups normal
  have made : groups = Groups.ofEntries (reader.readFrom none comments).1 := rfl
  refine ⟨?_, ?_, ?_⟩
  · rw [made, Groups.keys_ofEntries, map_kind_readFrom]
  · intro kind
    rw [made, Groups.get?_ofEntries]
    split
    next => exact nofun
    next inhabited =>
      intro empty
      exact inhabited (List.isEmpty_iff.mpr (Option.some.inj empty))
  · intro kind
    rw [made, Groups.getD_get?_ofEntries, map_place_filter_readFrom]

end TagReader

end DocComments
