import DocComments.Comment.Basic
import DocComments.Proofs.Comment.Opening

/-!
# Scanning line by line

The scan passes a text in stretches of whole lines: one line on which no comment opens, or all lines
of a comment. `Reading` is that walk over the lines, with the numbers of the lines each comment
covers. `scan_eq_of_reading` and `exists_reading` say that it is the scan. Every statement about the
comments of a text is made through two facts: a comment that was found opens on its first line
(`Reading.opening_of_mem`), with the rest of the walk below it (`Reading.resumes`), and on a line that
no comment covers none opens (`Reading.matchAt?_eq_none`).
-/

namespace DocComments

open Text

/-- Whether a line lies in a range. -/
def LineRange.Covers (range : LineRange) (line : Nat) : Prop :=
  range.first ≤ line ∧ line ≤ range.last

instance (range : LineRange) (line : Nat) : Decidable (range.Covers line) :=
  inferInstanceAs (Decidable (_ ∧ _))

namespace Markers

variable {markers : Markers} {offset : Nat} {before rows : List Text}
  {located : List (LineRange × Match)}

/-! ### The lines of one comment -/

/-- The lines below the one on which a comment opens are those that the comment covers, as many as
it has line breaks, and those that are left. -/
theorem Opening.stretch {row : Text} {later : List Text} {found : Match}
    (opening : Opening markers offset row later found) (whole : Unbroken (row :: later)) :
    ∃ covered below lead trail, later = covered ++ below ∧ covered.length = found.raw.breaks ∧
      '\n' ∉ lead ∧ '\n' ∉ trail ∧ found.start = offset + lead.byteSize ∧
      row ++ lineTail covered = lead ++ found.raw ++ trail ∧
      found.rest = trail ++ lineTail below := by
  have unbroken := unbroken_cons.mp whole
  obtain ⟨lead, leadWhole, parts, start⟩ := opening.placed unbroken.1
  obtain ⟨below, split, rest⟩ := exists_lines_eq_cons found.rest
  have belowWhole : Unbroken below := by
    have restWhole := unbroken_lines found.rest
    rw [split] at restWhole
    exact (unbroken_cons.mp restWhole).2
  have trailWhole := unbroken_firstLine found.rest
  -- The same text, split once after `row` and once after the line in which the comment ends.
  have sameLines : row :: later = (lead ++ found.raw ++ found.rest.firstLine).lines ++ below := by
    rw [← lines_append_lineTail _ belowWhole, List.append_assoc, ← rest, ← parts,
      lines_append_lineTail _ unbroken.2, lines_of_unbroken unbroken.1]
    rfl
  have count := length_lines (lead ++ found.raw ++ found.rest.firstLine)
  rw [breaks_append, breaks_append, breaks_eq_zero.mpr leadWhole,
    breaks_eq_zero.mpr trailWhole] at count
  obtain ⟨first, covered, taken⟩ :=
    List.exists_cons_of_ne_nil (lines_ne_nil (lead ++ found.raw ++ found.rest.firstLine))
  rw [taken, List.cons_append, List.cons.injEq] at sameLines
  obtain ⟨rfl, rfl⟩ := sameLines
  refine ⟨covered, below, lead, found.rest.firstLine, rfl, ?_, leadWhole, trailWhole, start, ?_,
    rest⟩
  · rw [taken, List.length_cons] at count
    omega
  · rw [← joinLines_cons, ← taken, joinLines_lines]

/-! ### The walk -/

/-- The comments that the scan finds in the lines `rows`, with the lines `before` above them. Each
comes with the numbers of its first and its last line. -/
inductive Reading (markers : Markers) :
    (before rows : List Text) → List (LineRange × Match) → Prop
  | nil {before : List Text} : Reading markers before [] []
  | passed {before later : List Text} {row : Text} {located : List (LineRange × Match)}
      (opensNone : markers.matchAt? (lineHead before).byteSize (row ++ lineTail later) = none)
      (rest : Reading markers (before ++ [row]) later located) :
      Reading markers before (row :: later) located
  | comment {before covered below : List Text} {row : Text} {found : Match}
      {located : List (LineRange × Match)}
      (opening : Opening markers (lineHead before).byteSize row (covered ++ below) found)
      (covers : covered.length = found.raw.breaks)
      (rest : Reading markers (before ++ row :: covered) below located) :
      Reading markers before (row :: (covered ++ below))
        ((⟨before.length + 1, before.length + 1 + covered.length⟩, found) :: located)

/-- Every list of lines can be walked to its end. -/
theorem exists_reading (markers : Markers) (before : List Text) {rows : List Text}
    (whole : Unbroken rows) : ∃ located, Reading markers before rows located := by
  match rows with
  | [] => exact ⟨[], .nil⟩
  | row :: later =>
      have unbroken := unbroken_cons.mp whole
      cases attempt : markers.matchAt? (lineHead before).byteSize (row ++ lineTail later) with
      | none =>
          obtain ⟨located, rest⟩ := exists_reading markers (before ++ [row]) unbroken.2
          exact ⟨located, .passed attempt rest⟩
      | some found =>
          have opening := (matchAt?_eq_some_iff unbroken.1).mp attempt
          obtain ⟨covered, below, -, -, divided, covers, -⟩ := opening.stretch whole
          have shorter : below.length < (row :: later).length := by
            rw [divided, List.length_cons, List.length_append]
            omega
          rw [divided, unbroken_append] at unbroken
          obtain ⟨located, rest⟩ := exists_reading markers (before ++ row :: covered) unbroken.2.2
          subst divided
          exact ⟨_, .comment opening covers rest⟩
termination_by rows.length
decreasing_by
  · exact Nat.lt_succ_self later.length
  · exact shorter

/-! ### The walk is the scan -/

theorem scan_of_matchAt?_eq_none {text : Text} (opensNone : markers.matchAt? offset text = none) :
    markers.scan offset text =
      match text.nextLines? with
      | some next => markers.scan (offset + text.firstLine.byteSize + 1) next
      | none => [] := by
  rw [scan]
  split
  next found located => rw [opensNone] at located; cases located
  next =>
    split
    next next more => rw [more]
    next last => rw [last]

theorem scan_of_matchAt?_eq_some {text : Text} {found : Match}
    (opens : markers.matchAt? offset text = some found) :
    markers.scan offset text =
      found :: match found.rest.nextLines? with
        | some next => markers.scan (found.stop + found.rest.firstLine.byteSize + 1) next
        | none => [] := by
  rw [scan]
  split
  next other located =>
    rw [opens] at located
    obtain rfl := Option.some.inj located
    split
    next next more => rw [more]
    next last => rw [last]
  next opensNone => rw [opens] at opensNone; cases opensNone

theorem byteSize_lineHead_concat (before : List Text) (row : Text) :
    (lineHead (before ++ [row])).byteSize = (lineHead before).byteSize + row.byteSize + 1 := by
  have breakSize : '\n'.utf8Size = 1 := rfl
  rw [lineHead_append, byteSize_append, lineHead_cons, lineHead_nil, byteSize_append, byteSize_cons,
    byteSize_nil, breakSize]
  omega

theorem scan_eq_of_reading (reading : Reading markers before rows located) (whole : Unbroken rows)
    (inhabited : rows ≠ []) :
    markers.scan (lineHead before).byteSize (joinLines rows) = located.map Prod.snd := by
  induction reading with
  | nil => exact absurd rfl inhabited
  | passed opensNone rest ih =>
      rename_i before later row located
      obtain ⟨rowWhole, laterWhole⟩ := unbroken_cons.mp whole
      rw [joinLines_cons, scan_of_matchAt?_eq_none opensNone,
        nextLines?_append_lineTail later rowWhole, firstLine_append_lineTail later rowWhole,
        ← byteSize_lineHead_concat]
      by_cases last : later = []
      · subst last
        cases rest
        rfl
      · rw [if_neg last]
        exact ih laterWhole last
  | comment opening covers rest ih =>
      rename_i before covered below row found located
      obtain ⟨rowWhole, laterWhole⟩ := unbroken_cons.mp whole
      obtain ⟨covered', below', lead, trail, same, covers', -, trailWhole, start, taken, left⟩ :=
        opening.stretch whole
      obtain ⟨rfl, rfl⟩ := List.append_inj same (covers.trans covers'.symm)
      have stop : found.stop + trail.byteSize + 1 =
          (lineHead (before ++ row :: covered)).byteSize := by
        have size := congrArg byteSize taken
        simp only [byteSize_append] at size
        rw [lineHead_append, lineHead_eq_joinLines (List.cons_ne_nil row covered), joinLines_cons,
          ← List.append_assoc, byteSize_append, byteSize_append, byteSize_append, Match.stop, start]
        have breakSize : byteSize ['\n'] = 1 := rfl
        omega
      rw [joinLines_cons, scan_of_matchAt?_eq_some ((matchAt?_eq_some_iff rowWhole).mpr opening),
        left, nextLines?_append_lineTail below trailWhole,
        firstLine_append_lineTail below trailWhole, stop, List.map_cons]
      by_cases last : below = []
      · subst last
        cases rest
        rfl
      · rw [if_neg last]
        exact congrArg (found :: ·) (ih (unbroken_append.mp laterWhole).2 last)

/-- Lines can be walked in one way only. -/
theorem Reading.unique {located' : List (LineRange × Match)}
    (reading : Reading markers before rows located) (whole : Unbroken rows)
    (other : Reading markers before rows located') : located' = located := by
  induction reading generalizing located' with
  | nil =>
      cases other
      rfl
  | passed opensNone rest ih =>
      obtain ⟨rowWhole, laterWhole⟩ := unbroken_cons.mp whole
      cases other with
      | passed _ rest' => exact ih laterWhole rest'
      | comment opening _ _ =>
          rw [(matchAt?_eq_some_iff rowWhole).mpr opening] at opensNone
          cases opensNone
  | comment opening covers rest ih =>
      rename_i before covered below row found located
      obtain ⟨rowWhole, laterWhole⟩ := unbroken_cons.mp whole
      have opens := (matchAt?_eq_some_iff rowWhole).mpr opening
      generalize lines : row :: (covered ++ below) = rows at other
      cases other with
      | nil => cases lines
      | passed opensNone _ =>
          obtain ⟨rfl, rfl⟩ := List.cons.inj lines
          rw [opens] at opensNone
          cases opensNone
      | comment opening' covers' rest' =>
          rename_i covered' below' row' found' located'
          obtain ⟨rfl, same⟩ := List.cons.inj lines
          rw [same, (matchAt?_eq_some_iff rowWhole).mpr opening', Option.some.injEq] at opens
          subst opens
          obtain ⟨rfl, rfl⟩ := List.append_inj same (covers.trans covers'.symm)
          rw [ih (unbroken_append.mp laterWhole).2 rest']

/-! ### What the walk finds -/

/-- Where a comment was found the walk was made up to the line on which it opens, and it goes on with
the lines below. -/
theorem Reading.resumes {upper lower : List (LineRange × Match)} {entry : LineRange × Match}
    (reading : Reading markers before rows (upper ++ entry :: lower)) :
    ∃ above row covered below, before ++ rows = above ++ row :: (covered ++ below) ∧
      before.length ≤ above.length ∧
      Opening markers (lineHead above).byteSize row (covered ++ below) entry.2 ∧
      covered.length = entry.2.raw.breaks ∧
      entry.1 = ⟨above.length + 1, above.length + 1 + covered.length⟩ ∧
      Reading markers (above ++ row :: covered) below lower := by
  generalize all : upper ++ entry :: lower = located at reading
  induction reading generalizing upper with
  | nil => simp at all
  | passed opensNone rest ih =>
      obtain ⟨above, row, covered, below, split, further, found⟩ := ih all
      refine ⟨above, row, covered, below, ?_, ?_, found⟩
      · rw [← split, List.append_assoc]
        rfl
      · rw [List.length_append] at further
        omega
  | comment opening covers rest ih =>
      rename_i before covered below row found located
      cases upper with
      | nil =>
          obtain ⟨rfl, rfl⟩ := List.cons.inj all
          exact ⟨before, row, covered, below, rfl, Nat.le_refl _, opening, covers, rfl, rest⟩
      | cons first upper =>
          obtain ⟨above, line, covered', below', split, further, found⟩ := ih (List.cons.inj all).2
          refine ⟨above, line, covered', below', ?_, ?_, found⟩
          · rw [← split, List.append_assoc]
            rfl
          · rw [List.length_append] at further
            omega

/-- A comment that was found opens on the first line of its range, and the range has as many further
lines as the comment has line breaks. -/
theorem Reading.opening_of_mem (reading : Reading markers before rows located) {range : LineRange}
    {found : Match} (member : (range, found) ∈ located) :
    ∃ above row covered below, before ++ rows = above ++ row :: (covered ++ below) ∧
      before.length ≤ above.length ∧
      Opening markers (lineHead above).byteSize row (covered ++ below) found ∧
      covered.length = found.raw.breaks ∧
      range = ⟨above.length + 1, above.length + 1 + covered.length⟩ := by
  obtain ⟨upper, lower, rfl⟩ := List.append_of_mem member
  obtain ⟨above, row, covered, below, split, further, opening, covers, same, -⟩ := reading.resumes
  exact ⟨above, row, covered, below, split, further, opening, covers, same⟩

theorem Reading.length_lt_first (reading : Reading markers before rows located)
    {entry : LineRange × Match} (member : entry ∈ located) : before.length < entry.1.first := by
  obtain ⟨above, row, covered, below, -, further, -, -, same⟩ := reading.opening_of_mem member
  rw [same]
  exact Nat.lt_succ_of_le further

/-- The comments are found from the top to the bottom, and no two of them share a line. -/
theorem Reading.pairwise_ranges (reading : Reading markers before rows located) :
    located.Pairwise fun upper lower => upper.1.last < lower.1.first := by
  induction reading with
  | nil => exact List.Pairwise.nil
  | passed _ _ ih => exact ih
  | comment opening covers rest ih =>
      rename_i before covered below row _ _
      refine List.pairwise_cons.mpr ⟨?_, ih⟩
      intro entry member
      have further := rest.length_lt_first member
      rw [List.length_append, List.length_cons] at further
      show before.length + 1 + covered.length < entry.1.first
      omega

/-- On a line that no comment covers no comment opens. -/
theorem Reading.matchAt?_eq_none (reading : Reading markers before rows located)
    {above below : List Text} {row : Text} (split : before ++ rows = above ++ row :: below)
    (further : before.length ≤ above.length)
    (outside : ∀ entry ∈ located, ¬ entry.1.Covers (above.length + 1)) :
    markers.matchAt? (lineHead above).byteSize (row ++ lineTail below) = none := by
  induction reading with
  | nil =>
      have size := congrArg List.length split
      simp only [List.append_nil, List.length_append, List.length_cons] at size
      omega
  | passed opensNone rest ih =>
      rename_i before later first located
      rcases Nat.eq_or_lt_of_le further with same | beyond
      · obtain ⟨rfl, lines⟩ := List.append_inj split same
        obtain ⟨rfl, rfl⟩ := List.cons.inj lines
        exact opensNone
      · refine ih ?_ ?_ outside
        · rw [← split, List.append_assoc]
          rfl
        · rw [List.length_append]
          exact beyond
  | comment opening covers rest ih =>
      rename_i before covered later first found located
      have beyond := outside _ List.mem_cons_self
      simp only [LineRange.Covers, not_and] at beyond
      refine ih ?_ ?_ fun entry member => outside entry (List.mem_cons_of_mem _ member)
      · rw [← split, List.append_assoc]
        rfl
      · rw [List.length_append, List.length_cons]
        omega

end Markers

end DocComments
