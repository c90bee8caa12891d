import DocComments.Proofs.Comment.Decoding
import DocComments.Proofs.Comment.Delimiters
import DocComments.Proofs.Comment.Extraction
import DocComments.Proofs.Text.Indent
import DocComments.Proofs.Text.LineEndings

/-!
# What the lines of a block say

A block stands in the source between its two delimiters (`BlockText`). What it says is the text on
its one line, or the lines between those of the delimiters, from the first one on that is not empty
(`BlockShows`). Each of them may open with a marker character, which goes (`Unmarks`), and all of
them lose the indentation they have in common. `extract_block_exact` says that the extractor returns
exactly these lines.

A return ends a line inside a block, wherever it stands. The statements about lines are therefore
made for sources in which every return stands before a line break.
-/

namespace DocComments

open Text Markers

variable {markers : Markers} {offset : Nat} {row body rest : Text} {extra : Nat}
  {later covered below : List Text} {found : Match}

/-! ### The text of a block -/

/-- A block that opens on the line `row`, where the lines `later` stand below it. Behind its body
come `extra` marker characters and the closing delimiter, which does not occur earlier. -/
structure BlockText (markers : Markers) (row : Text) (later : List Text) (body : Text) (extra : Nat)
    (rest : Text) : Prop where
  unmarked : ¬ markers.lineDoc <+: row.dropBlanks
  opens : markers.blockOpen <+: row.dropBlanks
  written : row.dropBlanks ++ lineTail later = markers.blockOpen ++
    (body ++ List.replicate extra markers.blockChar ++ markers.blockClose ++ rest)
  closes : ∀ place < (body ++ List.replicate extra markers.blockChar).length,
    ¬ markers.blockClose <+:
      (body ++ List.replicate extra markers.blockChar ++ markers.blockClose ++ rest).drop place
  ends : body.getLast? ≠ some markers.blockChar

instance : Decidable (BlockText markers row later body extra rest) :=
  decidable_of_iff (_ ∧ _ ∧ _ ∧ _ ∧ _)
    ⟨fun ⟨unmarked, opens, written, closes, ends⟩ => ⟨unmarked, opens, written, closes, ends⟩,
      fun block => ⟨block.unmarked, block.opens, block.written, block.closes, block.ends⟩⟩

namespace BlockText

/-- The match for a block. -/
def toMatch (markers : Markers) (offset : Nat) (row body : Text) (extra : Nat) (rest : Text) :
    Match where
  start := offset
  raw := row.takeBlanks ++ markers.blockOpen ++
    (body ++ List.replicate extra markers.blockChar) ++ markers.blockClose
  shape := .block body extra
  rest := rest

theorem opening (block : BlockText markers row later body extra rest) (offset : Nat) :
    Opening markers offset row later (toMatch markers offset row body extra rest) := by
  obtain ⟨tail, opened⟩ := block.opens
  have inner : tail ++ lineTail later =
      body ++ List.replicate extra markers.blockChar ++ markers.blockClose ++ rest := by
    have written := block.written
    rw [← opened, List.append_assoc] at written
    exact List.append_cancel_left written
  have closes : cut? markers.blockClose (tail ++ lineTail later) =
      some (body ++ List.replicate extra markers.blockChar, rest) := by
    rw [cut?_eq_some_iff, inner]
    exact ⟨rfl, block.closes⟩
  have match_eq : toMatch markers offset row body extra rest = markers.blockMatch offset
      row.takeBlanks (body ++ List.replicate extra markers.blockChar) rest := by
    rw [blockMatch, splitExtra_append_replicate extra block.ends]
    rfl
  rw [match_eq]
  exact .block block.unmarked opened.symm closes

theorem text_eq (block : BlockText markers row later body extra rest) :
    row ++ lineTail later = row.takeBlanks ++ (markers.blockOpen ++
      (body ++ List.replicate extra markers.blockChar ++ markers.blockClose ++ rest)) := by
  rw [← block.written, ← List.append_assoc, takeBlanks_append_dropBlanks]

/-- A block has one body, and nothing else about it can be read in two ways. -/
theorem unique {body' rest' : Text} {extra' : Nat} (whole : '\n' ∉ row)
    (block : BlockText markers row later body extra rest)
    (other : BlockText markers row later body' extra' rest') :
    body' = body ∧ extra' = extra ∧ rest' = rest := by
  have located := (matchAt?_eq_some_iff whole).mpr (block.opening 0)
  rw [(matchAt?_eq_some_iff whole).mpr (other.opening 0), Option.some.injEq] at located
  obtain ⟨sameBody, sameExtra⟩ := Shape.block.inj (congrArg Match.shape located)
  exact ⟨sameBody, sameExtra, congrArg Match.rest located⟩

/-- The delimiters of a block stand inside lines. -/
theorem unbroken_delimiters (block : BlockText markers row later body extra rest)
    (regular : markers.Regular) (whole : '\n' ∉ row) :
    '\n' ∉ markers.blockOpen ∧
      '\n' ∉ List.replicate extra markers.blockChar ++ markers.blockClose := by
  have openWhole : '\n' ∉ markers.blockOpen := fun member =>
    whole ((List.dropWhile_sublist isBlank).mem (block.opens.sublist.mem member))
  obtain ⟨closeWhole, other⟩ := regular.not_mem_blockClose (by decide) openWhole
  refine ⟨openWhole, ?_⟩
  rw [List.mem_append, not_or]
  exact ⟨fun member => other (List.eq_of_mem_replicate member), closeWhole⟩

/-- A block has as many line breaks as its body. -/
theorem breaks_raw (block : BlockText markers row later body extra rest) (regular : markers.Regular)
    (whole : '\n' ∉ row) (offset : Nat) :
    (toMatch markers offset row body extra rest).raw.breaks = body.breaks := by
  obtain ⟨openWhole, closingWhole⟩ := block.unbroken_delimiters regular whole
  have parts : (toMatch markers offset row body extra rest).raw =
      row.takeBlanks ++ (markers.blockOpen ++
        (body ++ (List.replicate extra markers.blockChar ++ markers.blockClose))) := by
    simp only [toMatch, List.append_assoc]
  rw [parts, breaks_append, breaks_append, breaks_append,
    breaks_eq_zero.mpr (unbroken_takeBlanks row), breaks_eq_zero.mpr openWhole,
    breaks_eq_zero.mpr closingWhole, Nat.zero_add, Nat.zero_add, Nat.add_zero]

/-- The first line of a body stands behind the opening delimiter, the last one before the closing
one, and the others are lines of the source. -/
theorem rows_eq (block : BlockText markers row (covered ++ below) body extra rest)
    (regular : markers.Regular) (whole : Unbroken (row :: (covered ++ below)))
    (covers : covered.length = body.breaks) {first last : Text} {inner : List Text}
    (split : lines body = first :: (inner ++ [last])) :
    row.dropBlanks = markers.blockOpen ++ first ∧
      covered = inner ++ [last ++ (List.replicate extra markers.blockChar ++ markers.blockClose) ++
        rest.firstLine] := by
  obtain ⟨rowWhole, laterWhole⟩ := unbroken_cons.mp whole
  have codeWhole : '\n' ∉ row.dropBlanks := fun member =>
    rowWhole ((List.dropWhile_sublist isBlank).mem member)
  obtain ⟨openWhole, closingWhole⟩ := block.unbroken_delimiters regular rowWhole
  generalize closing : List.replicate extra markers.blockChar ++ markers.blockClose = closer
    at closingWhole ⊢
  have lastWhole : '\n' ∉ last := unbroken_lines body last (by simp [split])
  have closerWhole : '\n' ∉ last ++ closer := by
    rw [List.mem_append, not_or]
    exact ⟨lastWhole, closingWhole⟩
  obtain ⟨rows, restLines, joined⟩ := exists_lines_eq_cons rest
  have endLines : lines (last ++ (closer ++ rest)) = (last ++ closer ++ rest.firstLine) :: rows := by
    have lineWhole : '\n' ∉ last ++ closer ++ rest.firstLine := by
      rw [List.mem_append, not_or]
      exact ⟨closerWhole, unbroken_firstLine rest⟩
    have rowsWhole := unbroken_lines rest
    rw [restLines, unbroken_cons] at rowsWhole
    rw [← List.append_assoc, congrArg ((last ++ closer) ++ ·) joined, ← List.append_assoc,
      lines_append_lineTail _ rowsWhole.2, lines_of_unbroken lineWhole, List.singleton_append]
  -- The same text once by the lines of the source and once by those of the body.
  have written : row.dropBlanks ++ lineTail (covered ++ below) =
      markers.blockOpen ++ body ++ (closer ++ rest) := by
    rw [block.written, ← closing]
    simp only [List.append_assoc]
  have sameLines := congrArg lines written
  rw [lines_append_lineTail _ laterWhole, lines_of_unbroken codeWhole, List.singleton_append,
    lines_append_append openWhole split, endLines, List.cons.injEq] at sameLines
  obtain ⟨sameRow, sameLater⟩ := sameLines
  have size := length_lines body
  rw [split, List.length_cons, List.length_append, List.length_singleton] at size
  rw [← List.singleton_append, ← List.append_assoc] at sameLater
  refine ⟨sameRow, (List.append_inj sameLater ?_).1⟩
  rw [List.length_append, List.length_singleton]
  omega

end BlockText

theorem Markers.Opening.exists_blockText (opening : Opening markers offset row later found)
    (opened : markers.blockOpen <+: row.dropBlanks)
    (unmarked : ¬ markers.lineDoc <+: row.dropBlanks) :
    ∃ body extra rest, BlockText markers row later body extra rest ∧
      found = BlockText.toMatch markers offset row body extra rest := by
  cases opening with
  | marked opens => exact absurd opens unmarked
  | behind unmarked unopened occurs => exact absurd opened unopened
  | block unmarked opens closes =>
      rename_i tail between rest
      obtain ⟨inner, first⟩ := cut?_eq_some_iff.mp closes
      have parts := markers.append_replicate_splitExtra between
      refine ⟨(markers.splitExtra between).1, (markers.splitExtra between).2, rest,
        ⟨unmarked, opened, ?_, ?_, markers.getLast?_splitExtra between⟩, ?_⟩
      · rw [parts, opens, List.append_assoc, inner]
      · rw [parts, ← inner]
        exact first
      · rw [BlockText.toMatch, parts]
        rfl

/-! ### The lines of a body -/

namespace Shape

theorem isLineBreak_eq_false_of_inline {text : Text} (inline : Inline text) :
    ∀ c ∈ text, isLineBreak c = false := by
  intro c member
  rw [isLineBreak, Bool.or_eq_false_iff, beq_eq_false_iff_ne, beq_eq_false_iff_ne]
  constructor
  · rintro rfl
    exact inline.1 member
  · rintro rfl
    exact inline.2 member

variable {first next last : Text} {empties shown rows : List Text}

theorem isLineBreak_of_mem_lineTail (empty : ∀ line ∈ empties, line.dropReturn = []) :
    ∀ c ∈ lineTail empties, isLineBreak c = true := by
  intro c member
  obtain ⟨line, inside, atLine⟩ := List.mem_flatMap.mp member
  rcases List.mem_cons.mp atLine with rfl | inLine
  · rfl
  · obtain ⟨ending, ends, parts⟩ := exists_eq_dropReturn_append line
    rw [parts, empty line inside, List.nil_append] at inLine
    rcases ends with rfl | rfl
    · cases inLine
    · obtain rfl := List.mem_singleton.mp inLine
      rfl

/-- Between the first line of a body and the next one that is not empty stand only line breaks. -/
theorem exists_gap (split : Text.lines body = first :: (empties ++ next :: rows))
    (empty : ∀ line ∈ empties, line.dropReturn = []) :
    ∃ gap, body = first.dropReturn ++ (gap ++ joinLines (next :: rows)) ∧ gap ≠ [] ∧
      ∀ c ∈ gap, isLineBreak c = true := by
  obtain ⟨ending, ends, parts⟩ := exists_eq_dropReturn_append first
  refine ⟨ending ++ lineTail empties ++ ['\n'], ?_, ?_, ?_⟩
  · rw [← joinLines_lines body, split, joinLines_cons, lineTail_append,
      lineTail_eq_cons_joinLines (List.cons_ne_nil next rows)]
    nth_rewrite 1 [parts]
    simp
  · exact List.append_ne_nil_of_right_ne_nil _ (List.cons_ne_nil _ _)
  · intro c member
    rw [List.mem_append, List.mem_append, List.mem_singleton] at member
    rcases member with (atEnd | inEmpty) | rfl
    · rcases ends with rfl | rfl
      · cases atEnd
      · obtain rfl := List.mem_singleton.mp atEnd
        rfl
    · exact isLineBreak_of_mem_lineTail empty c inEmpty
    · rfl

section Lines

variable (ends : ReturnsEndLines body)

include ends

/-- The interior of a body are its lines without the empty ones at the top and without the first and
the last one. -/
theorem interior_eq_joinLines (split : Text.lines body = first :: (empties ++ shown ++ [last]))
    (empty : ∀ line ∈ empties, line.dropReturn = []) (inhabited : shown ≠ [])
    (opens : ∀ line ∈ shown.head?, line.dropReturn ≠ []) :
    interior body = joinLines shown := by
  obtain ⟨next, more, rfl⟩ := List.exists_cons_of_ne_nil inhabited
  have firstInline := ends.inline_dropReturn (show first ∈ Text.lines body by simp [split])
  have nextInline := ends.inline_dropReturn (show next ∈ Text.lines body by simp [split])
  have lastInline : Inline last := ends.inline_last (by rw [split, ← List.cons_append])
  have rows : Text.lines body = first :: (empties ++ next :: (more ++ [last])) := by
    rw [split, List.append_assoc, List.cons_append]
  obtain ⟨gap, parts, gapInhabited, gapBreaks⟩ := exists_gap rows empty
  have joined : joinLines (next :: (more ++ [last])) = joinLines (next :: more) ++ '\n' :: last := by
    rw [joinLines_cons, joinLines_cons, lineTail_append, lineTail_cons, lineTail_nil,
      List.append_nil, List.append_assoc]
  have shownOpens : ∀ c ∈ (joinLines (next :: (more ++ [last]))).head?, isLineBreak c = false := by
    intro c head
    obtain ⟨ending, -, line⟩ := exists_eq_dropReturn_append next
    obtain ⟨d, visible, opened⟩ := List.exists_cons_of_ne_nil (opens next rfl)
    rw [joinLines_cons, line, opened] at head
    obtain rfl := Option.some.inj head
    apply isLineBreak_eq_false_of_inline nextInline
    rw [opened]
    exact List.mem_cons_self
  rw [parts, interior_append (isLineBreak_eq_false_of_inline firstInline) gapBreaks gapInhabited
    shownOpens, joined, untilLastBreak_append rfl (isLineBreak_eq_false_of_inline lastInline)]

theorem belowOpening_eq_last (split : Text.lines body = first :: (empties ++ [last]))
    (empty : ∀ line ∈ empties, line.dropReturn = []) : belowOpening body = last := by
  have firstInline := ends.inline_dropReturn (show first ∈ Text.lines body by simp [split])
  have lastInline : Inline last := ends.inline_last (by rw [split, ← List.cons_append])
  obtain ⟨gap, parts, gapInhabited, gapBreaks⟩ := exists_gap split empty
  have alone : joinLines [last] = last := by rw [joinLines_cons, lineTail_nil, List.append_nil]
  rw [parts, alone, belowOpening_append (isLineBreak_eq_false_of_inline firstInline) gapBreaks
    gapInhabited]
  intro c head
  exact isLineBreak_eq_false_of_inline lastInline c (List.mem_of_mem_head? head)

/-- A body that goes on behind its first line and the empty lines below it has lines to show. -/
theorem exists_shown (broken : ∃ c ∈ belowOpening body, isLineBreak c = true) :
    ∃ first empties shown last, Text.lines body = first :: (empties ++ shown ++ [last]) ∧
      (∀ line ∈ empties, line.dropReturn = []) ∧ shown ≠ [] ∧
      ∀ line ∈ shown.head?, line.dropReturn ≠ [] := by
  obtain ⟨c, inside, isBreak⟩ := broken
  obtain ⟨first, rows, split⟩ := List.exists_cons_of_ne_nil (lines_ne_nil body)
  have unshown : ∀ last, Inline last → c ∉ last := by
    intro last inline member
    rw [isLineBreak_eq_false_of_inline inline c member] at isBreak
    cases isBreak
  rcases List.eq_nil_or_concat' rows with rfl | ⟨inner, last, rfl⟩
  · exfalso
    have whole : body = first := by
      rw [← joinLines_lines body, split, joinLines_cons, lineTail_nil, List.append_nil]
    apply unshown first (ends.inline_last (show Text.lines body = [] ++ [first] from split))
    rw [← whole]
    exact (List.dropWhile_sublist _).mem ((List.dropWhile_sublist _).mem inside)
  · let isEmpty : Text → Bool := fun line => line.dropReturn.isEmpty
    have parts : inner.takeWhile isEmpty ++ inner.dropWhile isEmpty = inner :=
      List.takeWhile_append_dropWhile
    have empty : ∀ line ∈ inner.takeWhile isEmpty, line.dropReturn = [] := by
      intro line member
      have passes : isEmpty line = true := List.mem_takeWhile_imp member
      exact List.isEmpty_iff.mp passes
    refine ⟨first, inner.takeWhile isEmpty, inner.dropWhile isEmpty, last, ?_, empty, ?_, ?_⟩
    · rw [parts, split]
    · intro none
      rw [none, List.append_nil] at parts
      rw [← parts] at split
      rw [belowOpening_eq_last ends split empty] at inside
      exact unshown last (ends.inline_last (by rw [split, ← List.cons_append])) inside
    · intro line head none
      have stop := List.head?_dropWhile_not isEmpty inner
      rw [head] at stop
      simp [isEmpty, none] at stop

end Lines

end Shape

/-- What a block on the line of its opening delimiter and the lines `covered` shows. -/
inductive BlockShows (body : Text) (covered : List Text) : List Text → Prop
  /-- A body without a line break is shown whole. -/
  | inline (whole : ∀ c ∈ body, Shape.isLineBreak c = false) : BlockShows body covered [body]
  /-- Otherwise the lines below that of the opening delimiter are shown, without the empty ones at
  the top and without the line of the closing delimiter. -/
  | between {empties shown : List Text} {closing : Text}
      (rows : covered = empties ++ shown ++ [closing])
      (empty : ∀ line ∈ empties, line.dropReturn = []) (inhabited : shown ≠ [])
      (opens : ∀ line ∈ shown.head?, line.dropReturn ≠ []) : BlockShows body covered shown

/-- What a line inside a block says: what stands behind the marker character it may open with, or all
of it, in both cases without one carriage return at its end. -/
def Unmarks (blockChar : Char) (line text : Text) : Prop :=
  line.dropReturn.dropBlanks = blockChar :: text ∨
    ¬ [blockChar] <+: line.dropReturn.dropBlanks ∧ text = line.dropReturn

theorem unmarks_blockLine (blockChar : Char) (line : Text) :
    Unmarks blockChar line (Shape.blockLine blockChar line) := by
  unfold Unmarks Shape.blockLine
  dsimp only
  cases code : line.dropReturn.dropBlanks with
  | nil => exact Or.inr ⟨by simp, rfl⟩
  | cons c rest =>
      by_cases marked : c = blockChar
      · left
        simp [marked]
      · right
        simp [marked, Ne.symm marked]

namespace BlockText

/-- The returns of a body end its lines if those of the source do. -/
theorem returnsEndLines (block : BlockText markers row later body extra rest)
    (regular : markers.Regular) (whole : '\n' ∉ row) (closer : markers.blockClose ≠ [])
    {front : Text} (ends : ReturnsEndLines (front ++ (row ++ lineTail later))) :
    ReturnsEndLines body := by
  have closingWhole := (block.unbroken_delimiters regular whole).2
  have closing : List.replicate extra markers.blockChar ++ markers.blockClose ≠ [] :=
    List.append_ne_nil_of_right_ne_nil _ closer
  have text : front ++ (row ++ lineTail later) =
      (front ++ row.takeBlanks ++ markers.blockOpen) ++ body ++
        ((List.replicate extra markers.blockChar ++ markers.blockClose) ++ rest) := by
    rw [block.text_eq]
    simp only [List.append_assoc]
  rw [text] at ends
  apply ends.of_append
  obtain ⟨c, more, opens⟩ := List.exists_cons_of_ne_nil closing
  rw [opens] at closingWhole ⊢
  intro head
  obtain rfl := Option.some.inj head
  exact closingWhole List.mem_cons_self

/-- The interior of a body are the lines that its block shows. -/
theorem exists_shows (block : BlockText markers row (covered ++ below) body extra rest)
    (regular : markers.Regular) (whole : Unbroken (row :: (covered ++ below)))
    (covers : covered.length = body.breaks) (ends : ReturnsEndLines body)
    (shows : (∀ c ∈ body, Shape.isLineBreak c = false) ∨
      ∃ c ∈ Shape.belowOpening body, Shape.isLineBreak c = true) :
    ∃ shown, BlockShows body covered shown ∧ (Shape.interior body).lines = shown := by
  rcases shows with single | broken
  · have bodyWhole : '\n' ∉ body := by
      intro member
      have plain := single '\n' member
      cases plain
    refine ⟨[body], .inline single, ?_⟩
    rw [Shape.interior_of_unbroken single, lines_of_unbroken bodyWhole]
  · obtain ⟨first, empties, shown, last, split, empty, inhabited, opens⟩ :=
      Shape.exists_shown ends broken
    have rows := (block.rows_eq regular whole covers split).2
    have shownWhole : Unbroken shown := by
      intro line member
      exact unbroken_lines body line (by simp [split, member])
    refine ⟨shown, .between rows empty inhabited opens, ?_⟩
    rw [Shape.interior_eq_joinLines ends split empty inhabited opens,
      lines_joinLines shownWhole inhabited]

end BlockText

theorem unbroken_blockTexts (blockChar : Char) (body : Text) :
    Unbroken (Shape.blockTexts blockChar body) := by
  intro text member
  obtain ⟨line, inside, rfl⟩ := List.mem_map.mp member
  have whole := unbroken_lines (Shape.interior body) line inside
  obtain ⟨ending, -, parts⟩ := exists_eq_dropReturn_append line
  have shorter : '\n' ∉ line.dropReturn := by
    intro broken
    apply whole
    rw [parts]
    exact List.mem_append_left _ broken
  rcases unmarks_blockLine blockChar line with marked | ⟨-, plain⟩
  · intro broken
    apply shorter
    apply (List.dropWhile_sublist isBlank).mem
    show '\n' ∈ line.dropReturn.dropBlanks
    rw [marked]
    exact List.mem_cons_of_mem _ broken
  · rw [plain]
    exact shorter

/-- The comment of a block has the texts of its lines, with the indentation they have in common taken
off. -/
theorem dedented_blockTexts (markers : Markers) (body : Text) (extra : Nat) :
    Dedented (Shape.blockTexts markers.blockChar body)
      ((((Shape.block body extra).lines markers).map String.ofList).map String.toList) := by
  have restored : String.toList ∘ String.ofList = id := funext fun _ => String.toList_ofList
  rw [List.map_map, restored, List.map_id]
  exact dedented_dedentLines _

/-! ### Comments of blocks -/

/-- The comment of a block says what its lines say, with the indentation they have in common taken
off, and nothing is lost or broken when its texts are joined and split again. -/
theorem extract_block_exact (resolver : Resolver) (delimiters : Delimiters) (source : String)
    (returns : ReturnsEndLines source.toList) :
    let markers := delimiters.markers
    ∀ comment ∈ (Extractor.ofDelimiters resolver delimiters).extract source,
      ∃ above row covered below,
        Text.lines source.toList = above ++ row :: (covered ++ below) ∧
        comment.range = ⟨above.length + 1, above.length + 1 + covered.length⟩ ∧
        (markers.blockOpen <+: row.dropBlanks → ¬ markers.lineDoc <+: row.dropBlanks →
          ∃ body extra rest, BlockText markers row (covered ++ below) body extra rest ∧
            ((∀ c ∈ body, Shape.isLineBreak c = false) ∨
                (∃ c ∈ Shape.belowOpening body, Shape.isLineBreak c = true) →
              ∃ shown texts, BlockShows body covered shown ∧
                List.Forall₂ (Unmarks markers.blockChar) shown texts ∧
                Dedented texts (comment.lines.map String.toList) ∧
                comment.lines =
                  (Text.lines (Text.dedent (joinLines texts))).map String.ofList)) := by
  intro markers comment member
  obtain ⟨above, row, covered, below, found, split, whole, opening, covers, rfl⟩ :=
    Extractor.exists_opening member
  refine ⟨above, row, covered, below, split, rfl, ?_⟩
  intro opened unmarked
  obtain ⟨body, extra, rest, block, rfl⟩ := opening.exists_blockText opened unmarked
  refine ⟨body, extra, rest, block, ?_⟩
  intro shows
  have regular := delimiters.regular_markers
  have rowWhole := (unbroken_cons.mp whole).1
  have ends : ReturnsEndLines body := by
    apply block.returnsEndLines regular rowWhole delimiters.blockClose_ne_nil
    rw [← joinLines_lines source.toList, split,
      lineHead_append_joinLines above (List.cons_ne_nil _ _), joinLines_cons] at returns
    exact returns
  obtain ⟨shown, shows, interior⟩ := block.exists_shows regular whole
    (covers.trans (block.breaks_raw regular rowWhole _)) ends shows
  let texts := Shape.blockTexts markers.blockChar body
  have spoken : List.Forall₂ (Unmarks markers.blockChar) shown texts := by
    show List.Forall₂ _ _ ((Shape.interior body).lines.map _)
    rw [interior, List.forall₂_map_right_iff, List.forall₂_same]
    intro line _
    exact unmarks_blockLine markers.blockChar line
  have inhabited : texts ≠ [] := by
    intro none
    exact lines_ne_nil _ (List.map_eq_nil_iff.mp none)
  refine ⟨shown, texts, shows, spoken, ?_, ?_⟩
  · exact dedented_blockTexts markers body extra
  · show (dedentLines texts).map String.ofList = _
    rw [lines_dedent_joinLines (unbroken_blockTexts _ _) inhabited]

theorem extract_block_exact_starred :
    let source := "x\r\n\t/** a\r\n\r\n   * b\r\n\r\n     c\r\n d **/ e\r\nf"
    let covered := ["\r".toList, "   * b\r".toList, "\r".toList, "     c\r".toList,
      " d **/ e\r".toList]
    ReturnsEndLines source.toList ∧
      ∃ shown texts, BlockShows " a\r\n\r\n   * b\r\n\r\n     c\r\n d ".toList covered shown ∧
        List.Forall₂ (Unmarks '*') shown texts ∧
        Dedented texts ["b".toList, [], "    c".toList] := by
  intro source covered
  have returns : ReturnsEndLines source.toList := by decide +kernel
  refine ⟨returns, ?_⟩
  obtain ⟨comment, member, range, lines⟩ :
      ∃ comment ∈ (Extractor.ofDelimiters (fun _ _ => {}) {}).extract source,
        comment.range = ⟨2, 7⟩ ∧ comment.lines = ["b", "", "    c"] := by
    decide +kernel
  obtain ⟨above, row, covered', below, split, placed, block⟩ :=
    extract_block_exact (fun _ _ => {}) {} source returns comment member
  rw [range, LineRange.mk.injEq] at placed
  obtain ⟨first, rfl⟩ := List.length_eq_one_iff.mp (show above.length = 1 by omega)
  have rows : Text.lines source.toList =
      ["x\r".toList] ++ "\t/** a\r".toList :: (covered ++ ["f".toList]) := by
    decide +kernel
  rw [rows] at split
  obtain ⟨-, rest⟩ := List.append_inj split rfl
  obtain ⟨rfl, later⟩ := List.cons.inj rest
  have size : covered.length = covered'.length := by
    simp only [covered, List.length_cons, List.length_nil]
    omega
  obtain ⟨rfl, rfl⟩ := List.append_inj later size
  obtain ⟨body, extra, rest, text, shows⟩ := block (by decide +kernel) (by decide +kernel)
  have written : BlockText ({} : Delimiters).markers "\t/** a\r".toList (covered ++ ["f".toList])
      " a\r\n\r\n   * b\r\n\r\n     c\r\n d ".toList 1 " e\r\nf".toList := by
    decide +kernel
  obtain ⟨rfl, -, -⟩ := written.unique (by decide +kernel) text
  obtain ⟨shown, texts, shows, unmarked, dedented, -⟩ :=
    shows (Or.inr ⟨'\n', by decide +kernel, rfl⟩)
  rw [lines] at dedented
  exact ⟨shown, texts, shows, unmarked, dedented⟩

end DocComments
