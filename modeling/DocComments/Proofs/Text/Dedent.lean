import DocComments.Proofs.Text.Indent
import DocComments.Proofs.Text.LineNumbers

/-!
# Dedented texts

Dedenting takes the same number of columns off every line that shows something, so that these lines
keep their places relative to each other and one of them comes to the margin. A second time there is
nothing left to take off. `dedent_exact` says this of a text as a whole, and that what is taken off a
line ends between two characters.
-/

namespace DocComments

namespace Text

variable {width : Nat} {part : Text} {parts : List Text}

/-! ### One line -/

theorem indentWidth_append_of_blank {blanks : Text} (line : Text)
    (blank : ∀ c ∈ blanks, isBlank c = true) :
    indentWidth (blanks ++ line) = blanks.length + indentWidth line := by
  induction blanks with
  | nil => simp
  | cons c blanks ih =>
      obtain ⟨first, rest⟩ := List.forall_mem_cons.mp blank
      rw [List.cons_append, indentWidth_cons_of_blank _ first, ih rest, List.length_cons]
      omega

theorem isEmptyLine_append_of_blank {blanks : Text} (line : Text)
    (blank : ∀ c ∈ blanks, isBlank c = true) :
    isEmptyLine (blanks ++ line) = isEmptyLine line := by
  induction blanks with
  | nil => rfl
  | cons c blanks ih =>
      obtain ⟨first, rest⟩ := List.forall_mem_cons.mp blank
      rw [List.cons_append, isEmptyLine_cons_of_blank _ first, ih rest]

/-- A line that loses some columns shows what it showed before. -/
theorem isEmptyLine_outdent (width : Nat) (part : Text) :
    isEmptyLine (outdent width part) = isEmptyLine part := by
  by_cases deep : width ≤ indentWidth part
  · obtain ⟨blanks, split, -, blank⟩ := exists_blanks_outdent deep
    have whole := isEmptyLine_append_of_blank (outdent width part) blank
    rw [← split] at whole
    exact whole.symm
  · rw [outdent, if_neg deep]

theorem indentWidth_outdent (deep : width ≤ indentWidth part) :
    indentWidth part = width + indentWidth (outdent width part) := by
  obtain ⟨blanks, split, length, blank⟩ := exists_blanks_outdent deep
  have whole := indentWidth_append_of_blank (outdent width part) blank
  rw [← split, length] at whole
  exact whole

theorem indentWidth_eq_zero_iff {line : Text} :
    indentWidth line = 0 ↔ line.head?.any isBlank = false := by
  cases line with
  | nil => simp [indentWidth, takeBlanks]
  | cons c line => cases blank : isBlank c <;> simp [indentWidth, takeBlanks, blank]

/-- Whether a byte is a space or a tab. -/
def isBlankByte (byte : UInt8) : Bool := byte == ' '.toUInt8 || byte == '\t'.toUInt8

theorem isBlank_of_mem_utf8EncodeChar {c : Char} {byte : UInt8}
    (member : byte ∈ String.utf8EncodeChar c) (blank : isBlankByte byte = true) :
    isBlank c = true := by
  simp only [isBlankByte, Bool.or_eq_true, beq_iff_eq] at blank
  simp only [isBlank, Bool.or_eq_true, beq_iff_eq]
  by_contra other
  rw [not_or] at other
  rcases blank with rfl | rfl
  · exact not_mem_utf8EncodeChar_of_ascii (by decide) other.1 member
  · exact not_mem_utf8EncodeChar_of_ascii (by decide) other.2 member

/-- A line opens with as many bytes that are spaces or tabs as it opens with such characters. -/
theorem length_takeWhile_bytes (line : Text) :
    ((bytes line).takeWhile isBlankByte).length = indentWidth line := by
  induction line with
  | nil => rfl
  | cons c line ih =>
      obtain ⟨byte, more, encoded⟩ : ∃ byte more, String.utf8EncodeChar c = byte :: more := by
        apply List.exists_cons_of_length_pos
        rw [String.length_utf8EncodeChar]
        exact c.utf8Size_pos
      rw [bytes_cons, encoded, List.cons_append]
      cases blank : isBlank c with
      | true =>
          have single : more = [] ∧ isBlankByte byte = true := by
            simp only [isBlank, Bool.or_eq_true, beq_iff_eq] at blank
            rcases blank with rfl | rfl
            · obtain ⟨rfl, rfl⟩ := List.cons.inj encoded
              exact ⟨rfl, rfl⟩
            · obtain ⟨rfl, rfl⟩ := List.cons.inj encoded
              exact ⟨rfl, rfl⟩
          rw [single.1, List.takeWhile_cons_of_pos single.2, List.nil_append, List.length_cons, ih,
            indentWidth_cons_of_blank line blank]
      | false =>
          have visible : ¬ isBlankByte byte = true := by
            intro blankByte
            have member : byte ∈ String.utf8EncodeChar c := encoded ▸ List.mem_cons_self
            rw [isBlank_of_mem_utf8EncodeChar member blankByte] at blank
            cases blank
          have none : indentWidth (c :: line) = 0 := indentWidth_eq_zero_iff.mpr blank
          rw [List.takeWhile_cons_of_neg visible, none, List.length_nil]

/-- What a line becomes when `width` columns of indentation go. -/
structure DedentedBy (width : Nat) (row line : Text) : Prop where
  /-- A line that shows something has these columns, and loses them. -/
  shown : isEmptyLine row = false →
    width ≤ indentWidth row ∧ line = row.drop width ∧ indentWidth row = width + indentWidth line
  /-- Another line loses them if it has them, and stays as it is otherwise. -/
  hidden : isEmptyLine row = true → line = if width ≤ indentWidth row then row.drop width else row
  shows : isEmptyLine line = isEmptyLine row
  /-- What goes is counted in bytes, and ends between two characters. -/
  boundary : width ≤ indentWidth row →
    (String.Pos.Raw.mk width).IsValid (String.ofList row) ∧ bytes line = (bytes row).drop width

theorem dedentedBy_outdent {row : Text}
    (common : isEmptyLine row = false → width ≤ indentWidth row) :
    DedentedBy width row (outdent width row) where
  shown shown := ⟨common shown, if_pos (common shown), indentWidth_outdent (common shown)⟩
  hidden _ := rfl
  shows := isEmptyLine_outdent width row
  boundary deep := by
    obtain ⟨blanks, split, length, blank⟩ := exists_blanks_outdent deep
    have size : blanks.byteSize = width := by rw [byteSize_of_blank blank, length]
    constructor
    · rw [← size]
      apply isValid_byteSize
      rw [String.toList_ofList]
      exact split
    · rw [congrArg bytes split, bytes_append, ← size, ← length_bytes, List.drop_left]

/-! ### All lines -/

/-- If some line shows something, one that does comes to the margin. -/
theorem exists_flush_dedentLines (shows : ∃ part ∈ parts, isEmptyLine part = false) :
    ∃ line ∈ dedentLines parts, isEmptyLine line = false ∧ indentWidth line = 0 := by
  rcases (isCommonIndent_commonIndent parts).reached with ⟨part, member, shown, exact⟩ | ⟨hidden, -⟩
  · refine ⟨_, List.mem_map_of_mem member, ?_, ?_⟩
    · rw [isEmptyLine_outdent, shown]
    · have width := indentWidth_outdent (Nat.le_of_eq exact.symm)
      omega
  · obtain ⟨part, member, shown⟩ := shows
    rw [hidden part member] at shown
    cases shown

theorem commonIndent_dedentLines (parts : List Text) : commonIndent (dedentLines parts) = 0 := by
  by_cases shows : ∃ part ∈ parts, isEmptyLine part = false
  · exact commonIndent_eq (exists_flush_dedentLines shows) fun _ _ _ => Nat.zero_le _
  · rcases (isCommonIndent_commonIndent (dedentLines parts)).reached with
      ⟨line, member, shown, -⟩ | ⟨-, zero⟩
    · obtain ⟨part, present, rfl⟩ := List.mem_map.mp member
      rw [isEmptyLine_outdent] at shown
      exact absurd ⟨part, present, shown⟩ shows
    · exact zero

/-- Once dedented, lines have no column left to lose. -/
theorem dedentLines_dedentLines (parts : List Text) :
    dedentLines (dedentLines parts) = dedentLines parts := by
  have unchanged : outdent 0 = id := funext outdent_zero
  rw [dedentLines, commonIndent_dedentLines, unchanged, List.map_id]

theorem lines_dedent (text : Text) : lines (dedent text) = dedentLines (lines text) := by
  have joined := lines_dedent_joinLines (unbroken_lines text) (lines_ne_nil text)
  rw [joinLines_lines] at joined
  exact joined

theorem dedent_dedent (text : Text) : dedent (dedent text) = dedent text := by
  rw [dedent, lines_dedent, dedentLines_dedentLines]
  rfl

end Text

open Text

/-- Dedenting a text takes off every line that shows something the least indentation of these lines,
and the same off the other lines if they have as much. So the number and the order of the lines stay,
the lines that show something keep their places relative to each other, and one of them comes to the
margin. Indentation may as well be counted in bytes. Dedenting again changes nothing. -/
theorem dedent_exact (text : String) :
    let rows := Text.lines text.toList
    let dedented := Text.lines (dedent text).toList
    let width := commonIndent rows
    IsCommonIndent rows width ∧ List.Forall₂ (DedentedBy width) rows dedented ∧
    (∀ row ∈ rows, indentWidth row = ((bytes row).takeWhile isBlankByte).length) ∧
    (∀ row line other next, (row, line) ∈ rows.zip dedented → (other, next) ∈ rows.zip dedented →
      isEmptyLine row = false → isEmptyLine other = false →
      indentWidth row + indentWidth next = indentWidth other + indentWidth line) ∧
    ((∃ row ∈ rows, isEmptyLine row = false) →
      ∃ line ∈ dedented, isEmptyLine line = false ∧ line.head?.any isBlank = false) ∧
    dedent (dedent text) = dedent text := by
  intro rows dedented width
  have common := isCommonIndent_commonIndent rows
  have same : dedented = dedentLines rows := by
    show Text.lines (String.ofList (Text.dedent text.toList)).toList = _
    rw [String.toList_ofList, lines_dedent]
  have each : List.Forall₂ (DedentedBy width) rows dedented := by
    rw [same, dedentLines, List.forall₂_map_right_iff, List.forall₂_same]
    intro row member
    exact dedentedBy_outdent (common.least row member)
  refine ⟨common, each, fun row _ => (length_takeWhile_bytes row).symm, ?_, ?_, ?_⟩
  · intro row line other next first second shown otherShown
    obtain ⟨-, paired⟩ := List.forall₂_iff_zip.mp each
    have rowWidth := ((paired first).shown shown).2.2
    have otherWidth := ((paired second).shown otherShown).2.2
    omega
  · intro shows
    obtain ⟨line, member, shown, margin⟩ := exists_flush_dedentLines shows
    rw [same]
    exact ⟨line, member, shown, indentWidth_eq_zero_iff.mp margin⟩
  · simp only [dedent, String.toList_ofList, dedent_dedent]

/-- A line may be empty and yet have characters that do not count as indentation. -/
theorem dedent_exact_ideographic :
    let text := "    a\n\t \t  b\n  \u3000\n     "
    let rows := ["    a".toList, "\t \t  b".toList, "  \u3000".toList, "     ".toList]
    let dedented := ["a".toList, " b".toList, "  \u3000".toList, " ".toList]
    IsCommonIndent rows 4 ∧ List.Forall₂ (DedentedBy 4) rows dedented ∧
      indentWidth "    a".toList + indentWidth " b".toList =
        indentWidth "\t \t  b".toList + indentWidth "a".toList ∧
      (∃ line ∈ dedented, isEmptyLine line = false ∧ line.head?.any isBlank = false) ∧
      dedent (dedent text) = dedent text := by
  intro text rows dedented
  have split : Text.lines text.toList = rows := by decide +kernel
  have result : Text.lines (dedent text).toList = dedented := by decide +kernel
  have width : commonIndent rows = 4 := by decide +kernel
  obtain ⟨common, each, -, relative, flush, again⟩ := dedent_exact text
  rw [split, width] at common
  rw [split, result, width] at each
  rw [split, result] at relative flush
  exact ⟨common, each, relative _ _ _ _ (.head _) (.tail _ (.head _)) (by decide +kernel)
    (by decide +kernel), flush ⟨"    a".toList, .head _, by decide +kernel⟩, again⟩

end DocComments
