import DocComments.Proofs.Text.Lines
import DocComments.Text.Indent
import Mathlib.Data.List.Forall2

/-!
# Common indentation

The indentation that some lines have in common is the least one among the lines that show something
(`commonIndent_eq`, `isCommonIndent_commonIndent`), and it is what each line loses, counted in bytes
(`dedented_dedentLines`). Lines that were all moved one column to the right come back to where they
were, as long as one of them stood at the margin: `dedentLines_map_cons`.
-/

namespace DocComments.Text

variable {parts : List Text}

/-- An indentation that some line shows and that no line falls short of is the common one. -/
theorem commonIndent_eq {width : Nat}
    (reached : ∃ part ∈ parts, isEmptyLine part = false ∧ indentWidth part = width)
    (least : ∀ part ∈ parts, isEmptyLine part = false → width ≤ indentWidth part) :
    commonIndent parts = width := by
  obtain ⟨part, member, shown, exact⟩ := reached
  have smallest : ((parts.filter (!isEmptyLine ·)).map indentWidth).min? = some width := by
    rw [List.min?_eq_some_iff]
    constructor
    · refine List.mem_map.mpr ⟨part, List.mem_filter.mpr ⟨member, ?_⟩, exact⟩
      rw [shown]
      rfl
    · intro other present
      obtain ⟨line, kept, rfl⟩ := List.mem_map.mp present
      rw [List.mem_filter, Bool.not_eq_true'] at kept
      exact least line kept.1 kept.2
  rw [commonIndent, smallest]
  rfl

/-- A width is the least indentation among the lines that show something, zero if none does. -/
structure IsCommonIndent (parts : List Text) (width : Nat) : Prop where
  least : ∀ part ∈ parts, isEmptyLine part = false → width ≤ indentWidth part
  reached : (∃ part ∈ parts, isEmptyLine part = false ∧ indentWidth part = width) ∨
    (∀ part ∈ parts, isEmptyLine part = true) ∧ width = 0

theorem isCommonIndent_commonIndent (parts : List Text) :
    IsCommonIndent parts (commonIndent parts) := by
  unfold commonIndent
  cases smallest : ((parts.filter (!isEmptyLine ·)).map indentWidth).min? with
  | none =>
      rw [List.min?_eq_none_iff, List.map_eq_nil_iff, List.filter_eq_nil_iff] at smallest
      have hidden : ∀ part ∈ parts, isEmptyLine part = true := by
        intro part member
        simpa using smallest part member
      exact ⟨fun _ _ _ => Nat.zero_le _, Or.inr ⟨hidden, rfl⟩⟩
  | some width =>
      obtain ⟨present, least⟩ := List.min?_eq_some_iff.mp smallest
      obtain ⟨part, kept, exact⟩ := List.mem_map.mp present
      rw [List.mem_filter, Bool.not_eq_true'] at kept
      refine ⟨?_, Or.inl ⟨part, kept.1, kept.2, exact⟩⟩
      intro other member shown
      apply least
      apply List.mem_map_of_mem
      rw [List.mem_filter, Bool.not_eq_true']
      exact ⟨member, shown⟩

/-- A line is `part` without its first `width` bytes, or `part` itself if that is indented by
less. -/
def Outdents (width : Nat) (part line : Text) : Prop :=
  (width ≤ indentWidth part ∧ ∃ front, part = front ++ line ∧ front.byteSize = width) ∨
    (indentWidth part < width ∧ line = part)

theorem byteSize_of_blank {blanks : Text} (blank : ∀ c ∈ blanks, isBlank c = true) :
    byteSize blanks = blanks.length := by
  induction blanks with
  | nil => rfl
  | cons c blanks ih =>
      obtain ⟨first, rest⟩ := List.forall_mem_cons.mp blank
      have narrow : c.utf8Size = 1 := by
        simp only [isBlank, Bool.or_eq_true, beq_iff_eq] at first
        rcases first with rfl | rfl <;> rfl
      rw [byteSize_cons, narrow, ih rest, List.length_cons, Nat.add_comm]

/-- What a line loses are blanks, if it is indented far enough. -/
theorem exists_blanks_outdent {width : Nat} {part : Text} (deep : width ≤ indentWidth part) :
    ∃ blanks, part = blanks ++ outdent width part ∧ blanks.length = width ∧
      ∀ c ∈ blanks, isBlank c = true := by
  have inside : part.take width <+: part.takeBlanks :=
    List.prefix_of_prefix_length_le (List.take_prefix width part) (List.takeWhile_prefix isBlank)
      (Nat.le_trans (List.length_take_le width part) deep)
  have enough : width ≤ part.length :=
    Nat.le_trans deep (List.takeWhile_prefix isBlank).length_le
  refine ⟨part.take width, ?_, ?_, ?_⟩
  · rw [outdent, if_pos deep, List.take_append_drop]
  · rw [List.length_take, Nat.min_eq_left enough]
  · exact fun c member => List.mem_takeWhile_imp (inside.subset member)

theorem outdents_outdent (width : Nat) (part : Text) : Outdents width part (outdent width part) := by
  by_cases deep : width ≤ indentWidth part
  · obtain ⟨blanks, split, length, blank⟩ := exists_blanks_outdent deep
    exact Or.inl ⟨deep, blanks, split, by rw [byteSize_of_blank blank, length]⟩
  · exact Or.inr ⟨Nat.lt_of_not_le deep, if_neg deep⟩

/-- The lines are `parts` in the same order, each without the indentation that `parts` have in
common. -/
def Dedented (parts lines : List Text) : Prop :=
  ∃ width, IsCommonIndent parts width ∧ List.Forall₂ (Outdents width) parts lines

theorem dedented_dedentLines (parts : List Text) : Dedented parts (dedentLines parts) := by
  refine ⟨commonIndent parts, isCommonIndent_commonIndent parts, ?_⟩
  rw [dedentLines, List.forall₂_map_right_iff, List.forall₂_same]
  intro part _
  exact outdents_outdent (commonIndent parts) part

theorem unbroken_dedentLines (whole : Unbroken parts) : Unbroken (dedentLines parts) := by
  intro row member
  obtain ⟨part, present, rfl⟩ := List.mem_map.mp member
  intro broken
  apply whole part present
  unfold outdent at broken
  split at broken
  · exact List.mem_of_mem_drop broken
  · exact broken

/-- Lines that are joined, dedented as one text and split again are dedented line by line. -/
theorem lines_dedent_joinLines (whole : Unbroken parts) (inhabited : parts ≠ []) :
    lines (dedent (joinLines parts)) = dedentLines parts := by
  rw [dedent, lines_joinLines whole inhabited, lines_joinLines (unbroken_dedentLines whole)]
  intro none
  apply inhabited
  rw [← List.length_eq_zero_iff, ← length_dedentLines, none, List.length_nil]

theorem indentWidth_cons_of_blank {c : Char} (line : Text) (blank : isBlank c = true) :
    indentWidth (c :: line) = indentWidth line + 1 := by
  rw [indentWidth, takeBlanks, List.takeWhile_cons_of_pos blank, List.length_cons]
  rfl

theorem isEmptyLine_cons_of_blank {c : Char} (line : Text) (blank : isBlank c = true) :
    isEmptyLine (c :: line) = isEmptyLine line := by
  rw [isEmptyLine, List.all_cons, isWhiteSpace_of_isBlank blank, Bool.true_and]
  rfl

theorem outdent_one_cons_of_blank {c : Char} (line : Text) (blank : isBlank c = true) :
    outdent 1 (c :: line) = line := by
  rw [outdent, indentWidth_cons_of_blank line blank, if_pos (Nat.le_add_left 1 _)]
  rfl

/-- Dedenting undoes an indentation by one column. -/
theorem dedentLines_map_cons {c : Char} (blank : isBlank c = true)
    (flush : ∃ part ∈ parts, isEmptyLine part = false ∧ indentWidth part = 0) :
    dedentLines (parts.map (c :: ·)) = parts := by
  have common : commonIndent (parts.map (c :: ·)) = 1 := by
    obtain ⟨part, member, shown, margin⟩ := flush
    apply commonIndent_eq
    · refine ⟨c :: part, List.mem_map_of_mem member, ?_, ?_⟩
      · rw [isEmptyLine_cons_of_blank part blank, shown]
      · rw [indentWidth_cons_of_blank part blank, margin]
    · intro line present _
      obtain ⟨part, -, rfl⟩ := List.mem_map.mp present
      rw [indentWidth_cons_of_blank part blank]
      exact Nat.le_add_left 1 _
  rw [dedentLines, common, List.map_map]
  have back : outdent 1 ∘ (c :: ·) = id := by
    funext line
    exact outdent_one_cons_of_blank line blank
  rw [back, List.map_id]

end DocComments.Text
