import DocComments.Proofs.Comment.Extraction

/-!
# The lines that comments cover

Which lines of a source belong to comments can be said without the scan. A run starts where its
marker occurs and goes on as long as lines start with it (`RunLines`), and a block ends where its
closing delimiter first occurs (`BlockLines`). The main statement, `extract_covers_exactly`, is that
the ranges of the extracted comments are these, and that a line outside of them either has nothing
on it that could open a comment or opens a block that is never closed.
-/

namespace DocComments

open Text Markers

variable {markers : Markers} {offset : Nat} {row : Text} {covered below : List Text}
  {found : Match}

/-- A run on the line `row` and the lines `covered`, with the lines `below` after it. -/
structure RunLines (markers : Markers) (row : Text) (covered below : List Text) : Prop where
  occurs : markers.lineDoc <:+: row.dropBlanks
  joins : ∀ line ∈ covered, markers.lineDoc <+: line.dropBlanks
  ends : ∀ line ∈ below.head?, ¬ markers.lineDoc <+: line.dropBlanks

/-- A block on the line `row` and the lines `covered`, with the lines `below` after it. Behind the
opening delimiter, up to the end of the text, the closing one first occurs after `between`. -/
structure BlockLines (markers : Markers) (row : Text) (covered below : List Text) : Prop where
  opens : markers.blockOpen <+: row.dropBlanks
  closes : ∃ between rest,
    row.dropBlanks ++ lineTail (covered ++ below) =
      markers.blockOpen ++ (between ++ markers.blockClose ++ rest) ∧
    (∀ place < between.length,
      ¬ markers.blockClose <+: (between ++ markers.blockClose ++ rest).drop place) ∧
    covered.length = (between ++ markers.blockClose).breaks

theorem joins_and_ends {joins : Text → Bool}
    (size : covered.length = ((covered ++ below).takeWhile joins).length) :
    (∀ line ∈ covered, joins line = true) ∧ ∀ line ∈ below.head?, joins line = false := by
  have parts := List.takeWhile_append_dropWhile (p := joins) (l := covered ++ below)
  obtain ⟨taken, left⟩ := List.append_inj parts size.symm
  constructor
  · intro line member
    rw [← taken] at member
    exact List.mem_takeWhile_imp member
  · intro line first
    have stop := List.head?_dropWhile_not joins (covered ++ below)
    rw [left, Option.mem_def.mp first] at stop
    simpa using stop

theorem runLines_of_breaks {marked : Text} (occurs : markers.lineDoc <:+: row.dropBlanks)
    (opens : markers.lineDoc <+: marked) (whole : Unbroken (marked :: (covered ++ below)))
    (covers : covered.length =
      (markers.runAt offset (marked ++ lineTail (covered ++ below))).raw.breaks) :
    RunLines markers row covered below := by
  rw [breaks_raw_runAt offset opens whole] at covers
  obtain ⟨joins, ends⟩ := joins_and_ends covers
  refine ⟨occurs, fun line member => continues_iff.mp (joins line member), ?_⟩
  intro line first opensNext
  have stop := ends line first
  rw [continues_iff.mpr opensNext] at stop
  cases stop

theorem Markers.Opening.runLines_or_blockLines
    (opening : Opening markers offset row (covered ++ below) found)
    (whole : Unbroken (row :: (covered ++ below))) (covers : covered.length = found.raw.breaks) :
    ((¬ markers.blockOpen <+: row.dropBlanks ∨ markers.lineDoc <+: row.dropBlanks) ∧
        RunLines markers row covered below) ∨
      (markers.blockOpen <+: row.dropBlanks ∧ ¬ markers.lineDoc <+: row.dropBlanks ∧
        BlockLines markers row covered below) := by
  obtain ⟨rowWhole, laterWhole⟩ := unbroken_cons.mp whole
  have codeWhole : '\n' ∉ row.dropBlanks := fun member =>
    rowWhole ((List.dropWhile_sublist isBlank).mem member)
  cases opening with
  | marked opens =>
      left
      exact ⟨Or.inr opens, runLines_of_breaks opens.isInfix opens
        (unbroken_cons.mpr ⟨codeWhole, laterWhole⟩) covers⟩
  | block unmarked opens closes =>
      rename_i tail between rest
      right
      obtain ⟨inner, first⟩ := cut?_eq_some_iff.mp closes
      have opened : markers.blockOpen <+: row.dropBlanks := ⟨tail, opens.symm⟩
      refine ⟨opened, unmarked, opened, between, rest, ?_, ?_, ?_⟩
      · rw [opens, List.append_assoc, inner]
      · rw [← inner]
        exact first
      · have openWhole : '\n' ∉ markers.blockOpen := fun member =>
          codeWhole (opened.subset member)
        rw [covers, blockMatch, List.append_assoc, breaks_append, breaks_append,
          breaks_eq_zero.mpr (unbroken_takeBlanks row), breaks_eq_zero.mpr openWhole,
          Nat.zero_add]
  | behind unmarked unopened occurs =>
      left
      have split := eq_append_of_cut? occurs
      refine ⟨Or.inl unopened, runLines_of_breaks ?_ (List.prefix_append _ _) ?_ covers⟩
      · rw [split]
        exact List.infix_append _ _ _
      · refine unbroken_cons.mpr ⟨fun member => codeWhole ?_, laterWhole⟩
        rw [split, List.append_assoc]
        exact List.mem_append_right _ member

/-- The ranges of the comments of a source are exactly those of its runs and closed blocks. -/
theorem extract_covers_exactly (resolver : Resolver) (delimiters : Delimiters) (source : String) :
    let markers := delimiters.markers
    let rows := Text.lines source.toList
    let comments := (Extractor.ofDelimiters resolver delimiters).extract source
    (∀ comment ∈ comments, ∃ above row covered below,
      rows = above ++ row :: (covered ++ below) ∧
      comment.range = ⟨above.length + 1, above.length + 1 + covered.length⟩ ∧
      (¬ markers.blockOpen <+: row.dropBlanks ∨ markers.lineDoc <+: row.dropBlanks →
        RunLines markers row covered below) ∧
      (¬ (¬ markers.blockOpen <+: row.dropBlanks ∨ markers.lineDoc <+: row.dropBlanks) →
        BlockLines markers row covered below)) ∧
    ∀ above row below, rows = above ++ row :: below →
      (∀ comment ∈ comments, ¬ comment.range.Covers (above.length + 1)) →
      (¬ markers.lineDoc <:+: row.dropBlanks ∧ ¬ markers.blockOpen <+: row.dropBlanks) ∨
        (¬ markers.lineDoc <+: row.dropBlanks ∧
          ∃ tail, row.dropBlanks = markers.blockOpen ++ tail ∧
            ¬ markers.blockClose <:+: tail ++ lineTail below) := by
  intro markers rows comments
  have whole : Unbroken rows := unbroken_lines source.toList
  obtain ⟨located, reading⟩ := exists_reading markers [] whole
  have same : comments = _ := reading.extract_eq resolver
  constructor
  · intro comment member
    rw [same] at member
    obtain ⟨⟨range, found⟩, present, rfl⟩ := List.mem_map.mp member
    obtain ⟨above, row, covered, below, split, -, opening, covers, rfl⟩ :=
      reading.opening_of_mem present
    have stretch : Unbroken (row :: (covered ++ below)) := by
      rw [show rows = above ++ row :: (covered ++ below) from split, unbroken_append] at whole
      exact whole.2
    refine ⟨above, row, covered, below, split, rfl, ?_, ?_⟩
    · intro run
      rcases opening.runLines_or_blockLines stretch covers with ⟨-, lines⟩ | ⟨opens, unmarked, -⟩
      · exact lines
      · exact run.elim (fun unopened => absurd opens unopened) (fun marked => absurd marked unmarked)
    · intro block
      rcases opening.runLines_or_blockLines stretch covers with ⟨run, -⟩ | ⟨-, -, lines⟩
      · exact absurd run block
      · exact lines
  · intro above row below split outside
    have rowWhole : '\n' ∉ row := by
      rw [split] at whole
      exact whole row (by simp)
    refine (matchAt?_eq_none_iff rowWhole).mp
      (reading.matchAt?_eq_none split (Nat.zero_le _) ?_)
    intro entry present
    have covered := outside _ (same ▸ List.mem_map_of_mem present)
    exact covered

theorem extract_covers_exactly_unclosed :
    let markers := ({} : Delimiters).markers
    RunLines markers "/// a".toList [] ["b".toList] ∧
      ∃ tail, "/** open".toList = markers.blockOpen ++ tail ∧
        ¬ markers.blockClose <:+: tail ++ lineTail ["/// a".toList, "b".toList] := by
  intro markers
  let comments := (Extractor.ofDelimiters (fun _ _ => {}) {}).extract "/** open\n/// a\nb"
  have exactly := extract_covers_exactly (fun _ _ => {}) {} "/** open\n/// a\nb"
  have rows : Text.lines "/** open\n/// a\nb".toList =
      ["/** open".toList, "/// a".toList, "b".toList] := by decide +kernel
  constructor
  · obtain ⟨comment, member, range⟩ : ∃ comment ∈ comments, comment.range = ⟨2, 2⟩ := by
      decide +kernel
    obtain ⟨above, row, covered, below, split, placed, run, -⟩ := exactly.1 comment member
    rw [range, LineRange.mk.injEq] at placed
    obtain ⟨first, rfl⟩ := List.length_eq_one_iff.mp (show above.length = 1 by omega)
    obtain rfl := List.length_eq_zero_iff.mp (show covered.length = 0 by omega)
    rw [rows] at split
    obtain ⟨-, rfl, rfl⟩ := And.imp_right List.cons.inj (List.cons.inj split)
    exact run (Or.inr (by decide +kernel))
  · have outside : ∀ comment ∈ comments, ¬ comment.range.Covers 1 := by decide +kernel
    rcases exactly.2 [] _ _ rows outside with ⟨-, unopened⟩ | ⟨-, unclosed⟩
    · exact absurd (by decide +kernel) unopened
    · exact unclosed

end DocComments
