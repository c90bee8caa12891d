import DocComments.Proofs.Comment.Append
import DocComments.Proofs.Comment.Blocks

/-!
# The lines of the delimiters

A block of several lines may have text behind its opening delimiter, text before its closing one, and
lines between (`Framed`). Where anything but line breaks stands between, the comment shows nothing of
the other two texts: every block in the same place with the same lines between has the same comment.
Where there are only line breaks, the text before the closing delimiter is taken for the lines of the
block. Both are part of `extract_block_fragments`.

The first part compares two sources, which are the same down to the line on which the block opens. For
that `Reading.exists_replaced` puts another block in the place of one that a walk has found.
-/

namespace DocComments

open Text Markers

variable {markers : Markers} {row row' front inner back body body' rest rest' : Text}
  {extra extra' : Nat} {above later later' : List Text}

/-- A body of several lines: `front` on that of the opening delimiter, `back` on that of the closing
one, and `inner` between. -/
structure Framed (front inner back body : Text) : Prop where
  parts : body = front ++ '\n' :: (inner ++ '\n' :: back)
  front_whole : '\n' ∉ front
  back_whole : '\n' ∉ back
  plain : '\r' ∉ body

instance : Decidable (Framed front inner back body) :=
  decidable_of_iff (_ ∧ _ ∧ _ ∧ _)
    ⟨fun ⟨parts, frontWhole, backWhole, plain⟩ => ⟨parts, frontWhole, backWhole, plain⟩,
      fun framed => ⟨framed.parts, framed.front_whole, framed.back_whole, framed.plain⟩⟩

namespace Framed

theorem inline_front (framed : Framed front inner back body) : Inline front := by
  refine ⟨framed.front_whole, ?_⟩
  intro member
  apply framed.plain
  rw [framed.parts]
  exact List.mem_append_left _ member

theorem inline_back (framed : Framed front inner back body) : Inline back := by
  refine ⟨framed.back_whole, ?_⟩
  intro member
  apply framed.plain
  rw [framed.parts]
  simp [member]

theorem breaks_eq (framed : Framed front inner back body) : body.breaks = inner.breaks + 2 := by
  rw [framed.parts, breaks_append, breaks_cons_break, breaks_append, breaks_cons_break,
    breaks_eq_zero.mpr framed.front_whole, breaks_eq_zero.mpr framed.back_whole]
  omega

/-- What a body shows is between the lines of the delimiters, and starts there with the first
character that is no line break. -/
theorem interior_eq (framed : Framed front inner back body) (shown : ∃ c ∈ inner, c ≠ '\n') :
    Shape.interior body = inner.dropWhile (· == '\n') := by
  let gap := inner.takeWhile (· == '\n')
  have parts : body =
      front ++ (('\n' :: gap) ++ (inner.dropWhile (· == '\n') ++ '\n' :: back)) := by
    rw [framed.parts, List.cons_append, ← List.append_assoc gap, List.takeWhile_append_dropWhile]
  have gapBreaks : ∀ c ∈ '\n' :: gap, Shape.isLineBreak c = true := by
    intro c member
    rcases List.mem_cons.mp member with rfl | inside
    · rfl
    · have isBreak := List.mem_takeWhile_imp inside
      obtain rfl := beq_iff_eq.mp isBreak
      rfl
  have inhabited : inner.dropWhile (· == '\n') ≠ [] := by
    intro none
    obtain ⟨c, member, other⟩ := shown
    exact other (beq_iff_eq.mp (List.dropWhile_eq_nil_iff.mp none c member))
  obtain ⟨c, text, opens⟩ := List.exists_cons_of_ne_nil inhabited
  have visible : Shape.isLineBreak c = false := by
    have stop := List.head?_dropWhile_not (· == '\n') inner
    rw [opens] at stop
    have inside : c ∈ body := by
      rw [parts, opens]
      simp
    have other : (c == '\r') = false := by
      rw [beq_eq_false_iff_ne]
      rintro rfl
      exact framed.plain inside
    rw [Shape.isLineBreak, other, Bool.or_false]
    simpa using stop
  have opensVisible : ∀ d ∈ (inner.dropWhile (· == '\n') ++ '\n' :: back).head?,
      Shape.isLineBreak d = false := by
    rw [opens]
    intro d head
    obtain rfl := Option.some.inj head
    exact visible
  rw [parts, Shape.interior_append (Shape.isLineBreak_eq_false_of_inline framed.inline_front)
    gapBreaks (List.cons_ne_nil _ _) opensVisible, Shape.untilLastBreak_append rfl
    (Shape.isLineBreak_eq_false_of_inline framed.inline_back)]

end Framed

/-- A body without lines between those of its delimiters shows the last of these. -/
theorem Shape.interior_of_gap {gap : Text} (frontInline : Inline front) (backInline : Inline back)
    (breaks : ∀ c ∈ gap, c = '\n') (inhabited : gap ≠ []) :
    interior (front ++ (gap ++ back)) = back := by
  have backShown := isLineBreak_eq_false_of_inline backInline
  rw [interior_append (isLineBreak_eq_false_of_inline frontInline) ?_ inhabited,
    untilLastBreak_of_unbroken backShown]
  · intro c head
    exact backShown c (List.mem_of_mem_head? head)
  · intro c member
    rw [breaks c member]
    rfl

/-! ### Another block in the same place -/

/-- The closing delimiter of a block stands on or below the line on which it opens. -/
theorem BlockText.blockClose_isInfix (block : BlockText markers row later body extra rest)
    (above : List Text) : markers.blockClose <:+: lineTail (above ++ row :: later) := by
  have text : lineTail (above ++ row :: later) =
      (lineTail above ++ '\n' :: (row.takeBlanks ++ (markers.blockOpen ++
        (body ++ List.replicate extra markers.blockChar)))) ++ markers.blockClose ++ rest := by
    rw [lineTail_append, lineTail_cons, block.text_eq]
    simp only [List.append_assoc, List.cons_append]
  exact ⟨_, _, text.symm⟩

namespace Markers

variable {located : List (LineRange × Match)}

/-- No line above a block opens one, unless it belongs to a comment: the closing delimiter of the lower
block would close it. -/
theorem Reading.not_isPrefix_above (reading : Reading markers [] (above ++ row :: later) located)
    (whole : Unbroken (above ++ row :: later))
    (block : BlockText markers row later body extra rest) {line : Text} {upper lower : List Text}
    (split : above = upper ++ line :: lower)
    (outside : ∀ entry ∈ located, ¬ entry.1.Covers (upper.length + 1)) :
    ¬ markers.blockOpen <+: line.dropBlanks := by
  intro opened
  subst split
  have lineWhole : '\n' ∉ line := whole line (by simp)
  have unopened : markers.matchAt? (lineHead upper).byteSize
      (line ++ lineTail (lower ++ row :: later)) = none :=
    reading.matchAt?_eq_none (by simp) (Nat.zero_le _) outside
  rcases (matchAt?_eq_none_iff lineWhole).mp unopened with ⟨-, free⟩ | ⟨-, tail, -, unclosed⟩
  · exact free opened
  · apply unclosed
    exact (block.blockClose_isInfix lower).trans (List.suffix_append _ _).isInfix

/-- A walk that finds a block finds any other block in the place of it. -/
theorem Reading.exists_replaced (reading : Reading markers [] (above ++ row :: later) located)
    (whole : Unbroken (above ++ row :: later))
    (reached : ∃ entry ∈ located, entry.1.first = above.length + 1)
    (block : BlockText markers row later body extra rest) (regular : markers.Regular)
    (other : BlockText markers row' later' body' extra' rest')
    (whole' : Unbroken (row' :: later')) :
    ∃ located', Reading markers [] (above ++ row' :: later') located' ∧
      (⟨above.length + 1, above.length + 1 + body'.breaks⟩,
        BlockText.toMatch markers (lineHead above).byteSize row' body' extra' rest') ∈ located' := by
  obtain ⟨upper, lower, split, walked, next⟩ := reading.exists_split whole reached
  have opening := other.opening (lineHead above).byteSize
  obtain ⟨covered, below, -, -, rfl, covers, -⟩ := opening.stretch whole'
  obtain ⟨rowWhole, belowWhole⟩ := unbroken_cons.mp whole'
  obtain ⟨following, rest⟩ := exists_reading markers (above ++ row' :: covered)
    (unbroken_append.mp belowWhole).2
  refine ⟨_, walked.append ?_ ?_ ?_ (.comment opening covers rest), ?_⟩
  · exact unbroken_append.mpr ⟨(unbroken_append.mp whole).1, whole'⟩
  · intro above' line below' parts _ outside
    rw [List.nil_append] at parts
    apply reading.not_isPrefix_above whole block parts
    rw [split]
    intro entry member
    -- What the walk finds from the block on starts below the line.
    rcases List.mem_append.mp member with inUpper | inLower
    · obtain ⟨entry, inside, rfl⟩ := List.mem_map.mp inUpper
      exact outside entry inside
    · have further := next.length_lt_first inLower
      rw [List.nil_append, parts, List.length_append, List.length_cons] at further
      simp only [LineRange.Covers]
      omega
  · intro entry _ _ _ line first
    obtain rfl := Option.some.inj first
    rw [← Bool.not_eq_true, continues_iff]
    exact other.unmarked
  · apply List.mem_append_right
    rw [other.breaks_raw regular rowWhole] at covers
    rw [← covers]
    exact List.mem_cons_self

end Markers

/-- A comment does not depend on the text on the lines of its delimiters if it has other lines to
show. If not, the text before the closing delimiter is its only line. -/
theorem extract_block_fragments (resolver : Resolver) (delimiters : Delimiters) (source : String) :
    let markers := delimiters.markers
    let extractor := Extractor.ofDelimiters resolver delimiters
    ∀ comment ∈ extractor.extract source, ∃ above row covered below,
      Text.lines source.toList = above ++ row :: (covered ++ below) ∧
      comment.range = ⟨above.length + 1, above.length + 1 + covered.length⟩ ∧
      (markers.blockOpen <+: row.dropBlanks → ¬ markers.lineDoc <+: row.dropBlanks →
        ∃ body extra rest, BlockText markers row (covered ++ below) body extra rest ∧
          (∀ front inner back, Framed front inner back body → (∃ c ∈ inner, c ≠ '\n') →
            ∀ row' later' front' back' body' extra' rest', Unbroken (row' :: later') →
              Framed front' inner back' body' →
              BlockText markers row' later' body' extra' rest' →
              ∃ comment' ∈
                  extractor.extract (String.ofList (joinLines (above ++ row' :: later'))),
                comment'.range = comment.range ∧ comment'.lines = comment.lines) ∧
          (∀ front gap back, body = front ++ (gap ++ back) → Inline front → Inline back →
            (∀ c ∈ gap, c = '\n') → gap ≠ [] →
            ∃ text, Unmarks markers.blockChar back text ∧
              Dedented [text] (comment.lines.map String.toList))) := by
  intro markers extractor comment member
  have whole := unbroken_lines source.toList
  obtain ⟨located, reading⟩ := exists_reading markers [] whole
  rw [show extractor.extract source = _ from reading.extract_eq resolver] at member
  obtain ⟨⟨range, found⟩, present, rfl⟩ := List.mem_map.mp member
  obtain ⟨above, row, covered, below, split, -, opening, covers, rfl⟩ :=
    reading.opening_of_mem present
  rw [List.nil_append] at split
  refine ⟨above, row, covered, below, split, rfl, ?_⟩
  intro opened unmarked
  rw [split] at reading whole
  have regular := delimiters.regular_markers
  have rowWhole : '\n' ∉ row := whole row (by simp)
  obtain ⟨body, extra, rest, block, rfl⟩ := opening.exists_blockText opened unmarked
  refine ⟨body, extra, rest, block, ?_, ?_⟩
  · intro front inner back framed shown row' later' front' back' body' extra' rest' whole' framed'
      other
    obtain ⟨located', reading', found'⟩ :=
      reading.exists_replaced whole ⟨_, present, rfl⟩ block regular other whole'
    have replaced : Unbroken (above ++ row' :: later') :=
      unbroken_append.mpr ⟨(unbroken_append.mp whole).1, whole'⟩
    rw [show extractor.extract _ = _ from reading'.extract_joinLines replaced (by simp) resolver]
    refine ⟨_, List.mem_map_of_mem found', ?_, ?_⟩
    · rw [block.breaks_raw regular rowWhole, framed.breaks_eq] at covers
      show LineRange.mk _ _ = LineRange.mk _ _
      rw [framed'.breaks_eq, covers]
    · show ((Shape.block body' extra').lines markers).map String.ofList =
        ((Shape.block body extra).lines markers).map String.ofList
      rw [Shape.lines, Shape.lines, Shape.blockTexts, Shape.blockTexts, framed.interior_eq shown,
        framed'.interior_eq shown]
  · rintro front gap back rfl frontInline backInline breaks inhabited
    refine ⟨Shape.blockLine markers.blockChar back, unmarks_blockLine _ _, ?_⟩
    have spoken := dedented_blockTexts markers (front ++ (gap ++ back)) extra
    rw [Shape.blockTexts, Shape.interior_of_gap frontInline backInline breaks inhabited,
      lines_of_unbroken backInline.1] at spoken
    exact spoken

theorem extract_block_fragments_starred :
    (∃ comment ∈ (Extractor.ofDelimiters (fun _ _ => {}) {}).extract "\t/** x\n * b\n*/ y",
      comment.range = ⟨1, 3⟩ ∧ comment.lines = ["b"]) ∧
    ∃ text, Unmarks '*' " b ".toList text ∧ Dedented [text] ["b ".toList] := by
  constructor
  · let later := [" * b".toList, " c */".toList]
    obtain ⟨comment, member, range, lines⟩ :
        ∃ comment ∈ (Extractor.ofDelimiters (fun _ _ => {}) {}).extract "/** a\n * b\n c */",
          comment.range = ⟨1, 3⟩ ∧ comment.lines = ["b"] := by
      decide +kernel
    obtain ⟨above, row, covered, below, split, placed, block⟩ :=
      extract_block_fragments (fun _ _ => {}) {} "/** a\n * b\n c */" comment member
    rw [range, LineRange.mk.injEq] at placed
    obtain rfl := List.length_eq_zero_iff.mp (show above.length = 0 by omega)
    have rows : Text.lines "/** a\n * b\n c */".toList = "/** a".toList :: later := by
      decide +kernel
    rw [rows] at split
    obtain ⟨rfl, same⟩ := List.cons.inj split
    obtain ⟨body, extra, rest, text, fragments, -⟩ := block (by decide +kernel) (by decide +kernel)
    have written : BlockText ({} : Delimiters).markers "/** a".toList later
        " a\n * b\n c ".toList 0 [] := by
      decide +kernel
    rw [← same] at text
    obtain ⟨rfl, -, -⟩ := written.unique (by decide +kernel) text
    have whole : Unbroken ["\t/** x".toList, " * b".toList, "*/ y".toList] :=
      show ∀ row ∈ _, '\n' ∉ row by decide +kernel
    rw [← range, ← lines]
    exact fragments " a".toList " * b".toList " c ".toList (by decide +kernel)
      ⟨'b', by decide +kernel, by decide⟩
      "\t/** x".toList [" * b".toList, "*/ y".toList] " x".toList [] " x\n * b\n".toList 0
      " y".toList whole (by decide +kernel) (by decide +kernel)
  · obtain ⟨comment, member, range, lines⟩ :
        ∃ comment ∈ (Extractor.ofDelimiters (fun _ _ => {}) {}).extract "/** a\n b */",
          comment.range = ⟨1, 2⟩ ∧ comment.lines = ["b "] := by
      decide +kernel
    obtain ⟨above, row, covered, below, split, placed, block⟩ :=
      extract_block_fragments (fun _ _ => {}) {} "/** a\n b */" comment member
    rw [range, LineRange.mk.injEq] at placed
    obtain rfl := List.length_eq_zero_iff.mp (show above.length = 0 by omega)
    have rows : Text.lines "/** a\n b */".toList = ["/** a".toList, " b */".toList] := by
      decide +kernel
    rw [rows] at split
    obtain ⟨rfl, same⟩ := List.cons.inj split
    obtain ⟨body, extra, rest, text, -, adjacent⟩ := block (by decide +kernel) (by decide +kernel)
    have written : BlockText ({} : Delimiters).markers "/** a".toList [" b */".toList]
        " a\n b ".toList 0 [] := by
      decide +kernel
    rw [← same] at text
    obtain ⟨rfl, -, -⟩ := written.unique (by decide +kernel) text
    rw [lines] at adjacent
    exact adjacent " a".toList ['\n'] " b ".toList rfl ⟨by decide, by decide⟩ ⟨by decide, by decide⟩
      (fun c member => List.mem_singleton.mp member) (List.cons_ne_nil _ _)

/-- With no lines between those of its delimiters a block shows the text before the closing one, so
that its lines depend on that text. -/
theorem extract_block_fragments_shown :
    let extractor := Extractor.ofDelimiters (fun _ _ => {}) {}
    BlockText ({} : Delimiters).markers "/** a".toList [" b */".toList] " a\n b ".toList 0 [] ∧
      (extractor.extract "/** a\n b */").map Comment.lines = [["b "]] ∧
      Framed " a".toList [] " b ".toList " a\n\n b ".toList ∧
      (extractor.extract "/** a\n\n b */").map Comment.lines = [["b "]] ∧
      (extractor.extract "/** a\n\n c */").map Comment.lines = [["c "]] := by
  decide +kernel

end DocComments
