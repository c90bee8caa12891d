import DocComments.Proofs.Tag.Grouping

/-!
# What an entry depends on

The entry of a normal comment depends on the comment and on the first poster in front of it, and on
nothing else: the same entry results from reading these two alone, and from every other list in
which the comment stands behind that poster (`read_entry_independent`).
-/

namespace DocComments

namespace TagReader

variable {reader : TagReader} {comments : List Comment} {index : Nat} {comment : Comment}

/-- The entry that a report has for the comment at an index: in the group of its kind, behind the
entries of the normal comments of that kind which come before it. -/
def entryFor? (reader : TagReader) (comments : List Comment) (index : Nat) : Option Entry :=
  comments[index]?.bind fun comment =>
    ((reader.read comments).groups.get? comment.context.kind).bind fun group =>
      group[(comments.take index).countP fun other =>
        other.role = .normal && other.context.kind = comment.context.kind]?

theorem length_filter_readFrom (reader : TagReader) (poster : Option Entry)
    (comments : List Comment) (kind : String) :
    ((reader.readFrom poster comments).1.filter (·.context.kind = kind)).length =
      comments.countP fun other => other.role = .normal && other.context.kind = kind := by
  have places := congrArg List.length (reader.map_place_filter_readFrom poster comments kind)
  rw [List.length_map, List.length_map, List.filter_filter] at places
  rw [places, List.countP_eq_length_filter]
  refine congrArg List.length (List.filter_congr fun other _ => ?_)
  rw [Bool.and_comm]

theorem entryFor?_eq_entryOf (present : comments[index]? = some comment)
    (normal : comment.role = .normal) :
    reader.entryFor? comments index =
      some (reader.entryOf (reader.posterAfter none (comments.take index)) comment) := by
  obtain ⟨inside, here⟩ := List.getElem?_eq_some_iff.mp present
  have split : comments = comments.take index ++ comment :: comments.drop (index + 1) := by
    rw [← here, List.getElem_cons_drop, List.take_append_drop]
  have position := reader.length_filter_readFrom none (comments.take index) comment.context.kind
  have group := Groups.get?_ofEntries_append (reader.readFrom none (comments.take index)).1
    (reader.readFrom (reader.posterAfter none (comments.take index))
      (comments.drop (index + 1))).1
    (reader.entryOf (reader.posterAfter none (comments.take index)) comment)
  rw [← readFrom_cons_normal _ normal, ← readFrom_append, ← split, context_entryOf] at group
  have found : (reader.read comments).groups.get? comment.context.kind = _ := group
  rw [entryFor?, present, Option.bind_some, found, Option.bind_some, ← position,
    List.getElem?_append_right (Nat.le_refl _), Nat.sub_self, List.getElem?_cons_zero]

/-- The entry of a normal comment is the one that results when nothing else is read but the first
poster before it, if there is one. So it is the same in all lists that agree on these two. -/
theorem read_entry_independent (reader : TagReader) (present : comments[index]? = some comment)
    (normal : comment.role = .normal) :
    let poster := (comments.take index).find? Comment.isPoster
    ∃ entry, reader.entryFor? comments index = some entry ∧
      (reader.read (poster.toList ++ [comment])).groups.entries =
        [(comment.context.kind, [entry])] ∧
      ∀ (others : List Comment) (place : Nat), others[place]? = some comment →
        (others.take place).find? Comment.isPoster = poster →
        reader.entryFor? others place = some entry := by
  intro poster
  refine ⟨_, entryFor?_eq_entryOf present normal, ?_, ?_⟩
  · exact reader.groups_read_alone poster (fun other found => List.find?_some found) normal
  · intro others place there same
    rw [entryFor?_eq_entryOf there normal, posterAfter, same]
    rfl

theorem read_entry_independent_between :
    let rule : TagRule := { parse := some fun content => some (.string content) }
    let reader := TagReader.new { rules := .ofList [("since", rule), ("see", rule)] } (.all true)
    let first : Comment := { lines := ["@since 1"], role := .poster, context := {} }
    let second : Comment := { lines := ["@since 2", "@see x"], role := .poster, context := {} }
    let other : Comment := { lines := ["@see y"], context := {} }
    let comment : Comment := { lines := ["text"], context := {} }
    ∃ entry, reader.entryFor? [other, first, other, second, comment, second] 4 = some entry ∧
      (reader.read [first, comment]).groups.entries = [("", [entry])] ∧
      reader.entryFor? [first, comment, other] 1 = some entry := by
  intro rule reader first second other comment
  have present : [other, first, other, second, comment, second][4]? = some comment := rfl
  obtain ⟨entry, found, alone, elsewhere⟩ := reader.read_entry_independent present rfl
  exact ⟨entry, found, alone, elsewhere [first, comment, other] 1 rfl rfl⟩

end TagReader

end DocComments
