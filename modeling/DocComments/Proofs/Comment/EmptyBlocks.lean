import DocComments.Proofs.Comment.Resuming

/-!
# Empty blocks that are no documentation

The shortest block of the usual delimiters, `/**/`, starts like a documentation block: the star that
begins its closing delimiter is taken for the end of the opening one. So it is closed nowhere on its
line, and all that follows is read as if the line were `/**` (`extract_empty_block`). The lines
below it are read for what they are only if they have no closing delimiter.

What a first line that opens a block does to a source is known for all delimiters: see
`extract_unclosed` and `extract_closed`.
-/

namespace DocComments

open Text Markers

variable {markers : Markers} {row tail between behind : Text} {lower : String}

/-! ### A block that opens on the first line -/

namespace Markers

/-- The comment that a block at the head of a source is, by the text between its delimiters. -/
def headBlock (markers : Markers) (context : Context) (between : Text) : Comment :=
  let (body, extra) := markers.splitExtra between
  { lines := ((Shape.block body extra).lines markers).map String.ofList
    role := (Shape.block body extra).role markers
    range := ⟨1, 1 + between.breaks⟩
    context }

/-- What a block shows does not depend on the text that stands behind its opening delimiter, if its
line ends before the block. -/
theorem headBlock_append_break (context : Context) (other : markers.blockChar ≠ '\n')
    {front : Text} (inline : ∀ c ∈ front, Shape.isLineBreak c = false) (between : Text) :
    markers.headBlock context (front ++ '\n' :: between) =
      markers.headBlock context ('\n' :: between) := by
  have gapBreaks : ∀ c ∈ ['\n'], Shape.isLineBreak c = true := by
    intro c member
    rw [List.mem_singleton.mp member]
    rfl
  have shown (body : Text) :
      Shape.interior (front ++ '\n' :: body) = Shape.interior ('\n' :: body) :=
    Shape.interior_append_gap inline gapBreaks (List.cons_ne_nil _ _)
  have unbroken : '\n' ∉ front := by
    intro member
    cases inline _ member
  have alone := splitExtra_append_break other [] between
  rw [List.nil_append, List.nil_append] at alone
  simp only [headBlock, splitExtra_append_break other front, alone, Shape.lines, Shape.blockTexts,
    shown, Shape.role, breaks_append, breaks_eq_zero.mpr unbroken, Nat.zero_add]

end Markers

section OpenedLine

variable (whole : '\n' ∉ row) (unmarked : ¬ markers.lineDoc <+: row.dropBlanks)
  (opens : row.dropBlanks = markers.blockOpen ++ tail)

include whole

theorem lines_row_append (lower : String) :
    Text.lines (String.ofList row ++ "\n" ++ lower).toList = row :: Text.lines lower.toList := by
  rw [lines_append_source, String.toList_ofList, lines_of_unbroken whole, List.singleton_append]

include opens

/-- A block has as many line breaks as the text between its delimiters. -/
theorem breaks_raw_blockMatch (regular : markers.Regular) (offset : Nat) (between rest : Text) :
    (markers.blockMatch offset row.takeBlanks between rest).raw.breaks = between.breaks := by
  have openWhole : '\n' ∉ markers.blockOpen := by
    intro member
    apply whole
    rw [← takeBlanks_append_dropBlanks row, opens]
    simp [member]
  have closeWhole := (regular.not_mem_blockClose (by decide) openWhole).1
  simp only [blockMatch, breaks_append, breaks_eq_zero.mpr (unbroken_takeBlanks row),
    breaks_eq_zero.mpr openWhole, breaks_eq_zero.mpr closeWhole, Nat.zero_add, Nat.add_zero]

include unmarked

/-- A line that opens a block which is never closed is passed over. -/
theorem extract_unclosed (regular : markers.Regular) (context : Context)
    (unclosed : ¬ markers.blockClose <:+: tail ++ '\n' :: lower.toList) :
    let extractor : Extractor := ⟨fun _ _ => context, markers⟩
    extractor.extract (String.ofList row ++ "\n" ++ lower) =
      (extractor.extract lower).map (Comment.shift · 1) := by
  intro extractor
  have below := unbroken_lines lower.toList
  obtain ⟨located, rest⟩ := exists_reading markers [row] below
  have opensNone : markers.matchAt? (lineHead []).byteSize
      (row ++ lineTail (Text.lines lower.toList)) = none := by
    refine (matchAt?_eq_none_iff whole).mpr (Or.inr ⟨unmarked, tail, opens, ?_⟩)
    rw [lineTail_eq_cons_joinLines (lines_ne_nil _), joinLines_lines]
    exact unclosed
  have reading : Reading markers [] (row :: Text.lines lower.toList) located :=
    .passed opensNone rest
  rw [← lines_row_append whole] at reading
  rw [reading.extract_eq, rest.extract_below regular below context, joinLines_lines,
    String.ofList_toList]
  rfl

/-- A block that opens on the first line is closed by the first closing delimiter behind it, and the
lines below that delimiter are read like a source of their own. -/
theorem extract_closed (regular : markers.Regular) (context : Context)
    (closes : cut? markers.blockClose (tail ++ '\n' :: lower.toList) = some (between, behind)) :
    let extractor : Extractor := ⟨fun _ _ => context, markers⟩
    extractor.extract (String.ofList row ++ "\n" ++ lower) =
      markers.headBlock context between ::
        (extractor.extract (String.ofList (behind.nextLines?.getD []))).map
          (Comment.shift · (1 + between.breaks)) := by
  intro extractor
  have lowerWhole := unbroken_lines lower.toList
  rw [← joinLines_lines lower.toList, ← lineTail_eq_cons_joinLines (lines_ne_nil _)] at closes
  have opening : Opening markers (lineHead []).byteSize row (Text.lines lower.toList) _ :=
    .block unmarked opens closes
  obtain ⟨covered, below, -, trail, split, covers, -, trailWhole, -, -, left⟩ :=
    opening.stretch (unbroken_cons.mpr ⟨whole, lowerWhole⟩)
  rw [split, unbroken_append] at lowerWhole
  obtain ⟨located, rest⟩ := exists_reading markers (row :: covered) lowerWhole.2
  have size := covers.trans (breaks_raw_blockMatch whole opens regular _ between behind)
  have next : behind.nextLines?.getD [] = joinLines below := by
    obtain rfl : behind = trail ++ lineTail below := left
    exact getD_nextLines?_append_lineTail below trailWhole
  rw [split] at opening
  have reading : Reading markers [] (row :: (covered ++ below)) _ := .comment opening covers rest
  rw [← split, ← lines_row_append whole] at reading
  rw [reading.extract_eq, List.map_cons, rest.extract_below regular lowerWhole.2 context, next,
    List.length_cons, size, Nat.add_comm between.breaks]
  simp only [Extractor.commentOf, headBlock, blockMatch, List.length_nil, Nat.zero_add]
  rfl

end OpenedLine

/-! ### The usual delimiters -/

/-- What is found below a line that opens a block, if the block is not closed on that line. It does
not depend on the text behind the opening delimiter. -/
theorem extract_opened_above (front : Text) (starless : '*' ∉ front)
    (inline : ∀ c ∈ front, Shape.isLineBreak c = false) (context : Context) (lower : String) :
    let markers := ({} : Delimiters).markers
    let extractor := Extractor.ofDelimiters (fun _ _ => context) {}
    extractor.extract (String.ofList ("/**".toList ++ front) ++ "\n" ++ lower) =
      match cut? "*/".toList lower.toList with
      | none => (extractor.extract lower).map (Comment.shift · 1)
      | some (between, behind) =>
          markers.headBlock context ('\n' :: between) ::
            (extractor.extract (String.ofList (behind.nextLines?.getD []))).map
              (Comment.shift · (2 + between.breaks)) := by
  intro markers extractor
  have regular : markers.Regular := ({} : Delimiters).regular_markers
  have unbroken : '\n' ∉ front := by
    intro member
    cases inline _ member
  have whole : '\n' ∉ "/**".toList ++ front := by
    simpa using unbroken
  have unmarked : ¬ markers.lineDoc <+: dropBlanks ("/**".toList ++ front) := by
    rintro ⟨tail, same⟩
    cases (List.cons.inj (List.cons.inj same).2).1
  have opens : dropBlanks ("/**".toList ++ front) = markers.blockOpen ++ front := rfl
  have starless : '*' ∉ front ++ ['\n'] := by
    simpa using starless
  have cut : cut? markers.blockClose (front ++ '\n' :: lower.toList) =
      (cut? "*/".toList lower.toList).map (Prod.map (front ++ ['\n'] ++ ·) id) := by
    rw [← List.singleton_append, ← List.append_assoc]
    exact cut?_append_of_not_mem starless _
  cases found : cut? "*/".toList lower.toList with
  | none =>
      rw [found] at cut
      exact extract_unclosed whole unmarked opens regular context (cut?_eq_none_iff.mp cut)
  | some pieces =>
      obtain ⟨between, behind⟩ := pieces
      rw [found] at cut
      have count : 1 + (front ++ '\n' :: between).breaks = 2 + between.breaks := by
        rw [breaks_append, breaks_eq_zero.mpr unbroken, breaks_cons_break]
        omega
      have closed := extract_closed whole unmarked opens regular context cut
      simp only [List.append_assoc, List.singleton_append, count] at closed
      rw [headBlock_append_break context (by decide) inline] at closed
      exact closed

/-- The shortest block of the usual delimiters is read like an opening delimiter alone. So what is
below it is found exactly if there is no closing delimiter; otherwise all the text before the first
of them is taken for the lines of a block. -/
theorem extract_empty_block (context : Context) (lower : String) :
    let markers := ({} : Delimiters).markers
    let extractor := Extractor.ofDelimiters (fun _ _ => context) {}
    let close := "*/".toList
    extractor.extract ("/**/\n" ++ lower) = extractor.extract ("/**\n" ++ lower) ∧
    (extractor.extract ("/**/\n" ++ lower) = (extractor.extract lower).map (Comment.shift · 1) ↔
      ¬ close <:+: lower.toList) ∧
    ∀ between behind : Text, lower.toList = between ++ close ++ behind →
      ¬ close <:+: between ++ ['*'] →
      extractor.extract ("/**/\n" ++ lower) = markers.headBlock context ('\n' :: between) ::
        (extractor.extract (String.ofList (behind.nextLines?.getD []))).map
          (Comment.shift · (2 + between.breaks)) := by
  intro markers extractor close
  have shut := extract_opened_above ['/'] (by decide) (List.forall_mem_singleton.mpr rfl)
    context lower
  have bare := extract_opened_above [] (by decide) (List.forall_mem_nil _) context lower
  refine ⟨shut.trans bare.symm, ⟨?_, ?_⟩, ?_⟩
  · intro inert occurs
    obtain ⟨⟨between, behind⟩, found⟩ :=
      Option.ne_none_iff_exists'.mp (mt cut?_eq_none_iff.mp (not_not_intro occurs))
    rw [found] at shut
    -- The block would be one of the comments below, and these do not reach up to the first line.
    have head : markers.headBlock context ('\n' :: between) ∈
        (extractor.extract lower).map (Comment.shift · 1) := by
      rw [← inert]
      exact List.mem_of_mem_head? (congrArg List.head? shut)
    obtain ⟨comment, member, same⟩ := List.mem_map.mp head
    have first : comment.range.first + 1 = 1 := congrArg (·.range.first) same
    obtain ⟨above, row, covered, below, found, -, -, -, -, rfl⟩ := Extractor.exists_opening member
    exact absurd first (Nat.succ_ne_succ_iff.mpr (Nat.succ_ne_zero _))
  · intro absent
    rw [cut?_eq_none_iff.mpr absent] at shut
    exact shut
  · intro between behind split first
    rw [split, cut?_eq_some_of_not_isInfix behind first] at shut
    exact shut

theorem extract_empty_block_above_comments :
    let markers := ({} : Delimiters).markers
    let extractor := Extractor.ofDelimiters (fun _ _ => {}) {}
    let lower := "/// a\n/** b */ x\n/// c"
    let between := "/// a\n/** b ".toList
    lower.toList = between ++ "*/".toList ++ " x\n/// c".toList ∧
    ¬ "*/".toList <:+: between ++ ['*'] ∧
    extractor.extract ("/**/\n" ++ lower) = markers.headBlock {} ('\n' :: between) ::
      (extractor.extract "/// c").map (Comment.shift · 3) := by
  intro markers extractor lower between
  have split : lower.toList = between ++ "*/".toList ++ " x\n/// c".toList := by decide +kernel
  have first : ¬ "*/".toList <:+: between ++ ['*'] := by decide +kernel
  have next : String.ofList (Text.nextLines? " x\n/// c".toList |>.getD []) = "/// c" := by
    decide +kernel
  have count : 2 + Text.breaks between = 3 := by decide +kernel
  obtain ⟨-, -, closed⟩ := extract_empty_block {} lower
  have found := closed between _ split first
  rw [next, count] at found
  exact ⟨split, first, found⟩

/-- A documented item below an empty block is lost: its comment is shown as a line of a block that
opens above it. -/
theorem extract_empty_block_swallows :
    let extractor := Extractor.ofDelimiters (fun _ _ => {}) {}
    let shown (comments : List Comment) :=
      comments.map fun comment => (comment.lines, comment.range)
    let alone := (extractor.extract "/** doc */").map (Comment.shift · 1)
    shown (extractor.extract "/**/\n/** doc */") = [(["/** doc "], ⟨1, 2⟩)] ∧
    shown alone = [(["doc "], ⟨2, 2⟩)] ∧
    extractor.extract "/**/\n/** doc */" ≠ alone := by
  intro extractor shown alone
  have swallowed : shown (extractor.extract "/**/\n/** doc */") = [(["/** doc "], ⟨1, 2⟩)] := by
    decide +kernel
  have found : shown alone = [(["doc "], ⟨2, 2⟩)] := by decide +kernel
  refine ⟨swallowed, found, ?_⟩
  intro same
  rw [same, found] at swallowed
  exact absurd swallowed (by decide)

end DocComments
