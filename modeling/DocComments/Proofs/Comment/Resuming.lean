import DocComments.Proofs.Comment.Append
import DocComments.Proofs.Comment.Blocks
import DocComments.Proofs.Comment.Runs

/-!
# Where a scan goes on

A scan looks at the beginnings of lines. Behind a comment it goes on with the line below, and there it
finds what it would find in the lines below alone: `Reading.extract_below`. A run takes all of its
last line, but behind the closing delimiter of a block there may be more text, and
`extract_resumes_below` says that no comment opens in it. On a line that is not part of a comment
from above, on the other hand, a run opens at the first marker, whatever the code before it.
-/

namespace DocComments

open Text Markers

variable {markers : Markers}

namespace Markers

/-- No comment opens where there is no text. -/
theorem extract_empty (regular : markers.Regular) (resolver : Resolver) :
    Extractor.extract ⟨resolver, markers⟩ "" = [] := by
  have whole := unbroken_lines "".toList
  obtain ⟨located, reading⟩ := exists_reading markers [] whole
  have none : located = [] := by
    apply reading.eq_nil_of_unmarked whole
    intro row member
    obtain rfl : row = [] := List.mem_singleton.mp member
    obtain ⟨lineFront, lineDoc⟩ := regular.lineDoc
    obtain ⟨blockFront, blockOpen⟩ := regular.blockOpen
    rw [lineDoc, blockOpen]
    simp [dropBlanks]
  rw [reading.extract_eq resolver, none, List.map_nil]

/-- The comments that a walk finds in the lines `below` are those of these lines alone, counted on
from the lines above them. -/
theorem Reading.extract_below {before below : List Text} {located : List (LineRange × Match)}
    (reading : Reading markers before below located) (regular : markers.Regular)
    (whole : Unbroken below) (context : Context) (map : LineMap) :
    let extractor : Extractor := ⟨fun _ _ => context, markers⟩
    located.map (fun entry => extractor.commentOf map entry.1 entry.2) =
      (extractor.extract (String.ofList (joinLines below))).map (Comment.shift · before.length) := by
  intro extractor
  by_cases inhabited : below = []
  · subst inhabited
    cases reading
    rw [show extractor.extract (String.ofList (joinLines [])) = [] from
      extract_empty regular _]
    rfl
  · obtain ⟨alone, readingAlone⟩ := exists_reading markers [] whole
    have lowered := readingAlone.lowered whole before
    rw [List.append_nil] at lowered
    obtain rfl := lowered.unique whole reading
    rw [readingAlone.extract_joinLines whole inhabited, List.map_map, List.map_map]
    rfl

end Markers

/-- Behind a comment the extraction goes on with the line below. So nothing is found in the text
behind the closing delimiter of a block, up to the end of its line, while on a line that belongs to
no comment from above a run opens at the first marker. -/
theorem extract_resumes_below (delimiters : Delimiters) (context : Context) (source : String) :
    let markers := delimiters.markers
    let extractor := Extractor.ofDelimiters (fun _ _ => context) delimiters
    (∀ upper comment lower, extractor.extract source = upper ++ comment :: lower →
      ∃ above row covered below,
        Text.lines source.toList = above ++ row :: (covered ++ below) ∧
        comment.range = ⟨above.length + 1, above.length + 1 + covered.length⟩ ∧
        lower = (extractor.extract (String.ofList (joinLines below))).map
          (Comment.shift · (above.length + 1 + covered.length)) ∧
        (markers.blockOpen <+: row.dropBlanks → ¬ markers.lineDoc <+: row.dropBlanks →
          ∃ body extra trail, '\n' ∉ trail ∧
            BlockText markers row (covered ++ below) body extra (trail ++ lineTail below))) ∧
    ((∀ c ∈ delimiters.line.toList.head?, isBlank c = false) →
      ∀ above row later, Text.lines source.toList = above ++ row :: later →
        (∀ comment ∈ extractor.extract source, comment.range.Covers (above.length + 1) →
          comment.range.first = above.length + 1) →
        ¬ markers.blockOpen <+: row.dropBlanks → markers.lineDoc <:+: row.dropBlanks →
        ∃ comment ∈ extractor.extract source, ∃ covered below texts,
          later = covered ++ below ∧
          comment.range = ⟨above.length + 1, above.length + 1 + covered.length⟩ ∧
          RunTexts markers row covered texts ∧
          comment.lines = ((Shape.run texts).lines markers).map String.ofList ∧
          comment.role = (Shape.run texts).role markers) := by
  intro markers extractor
  have whole := unbroken_lines source.toList
  obtain ⟨located, reading⟩ := exists_reading markers [] whole
  have extracted : extractor.extract source = _ := reading.extract_eq fun _ _ => context
  have regular := delimiters.regular_markers
  constructor
  · intro upper comment lower found
    rw [extracted] at found
    obtain ⟨first, remaining, rfl, rfl, next⟩ := List.map_eq_append_iff.mp found
    obtain ⟨entry, last, rfl, rfl, rfl⟩ := List.map_eq_cons_iff.mp next
    obtain ⟨above, row, covered, below, split, -, opening, covers, range, rest⟩ := reading.resumes
    rw [List.nil_append] at split
    rw [split, unbroken_append] at whole
    have belowWhole : Unbroken below := (unbroken_append.mp (unbroken_cons.mp whole.2).2).2
    have count : (above ++ row :: covered).length = above.length + 1 + covered.length := by
      rw [List.length_append, List.length_cons]
      omega
    refine ⟨above, row, covered, below, split, range, ?_, ?_⟩
    · rw [← count]
      exact rest.extract_below regular belowWhole context (LineMap.ofString source)
    · intro opened unmarked
      obtain ⟨body, extra, behind, block, same⟩ := opening.exists_blockText opened unmarked
      obtain ⟨covered', below', -, trail, divided, size, -, trailWhole, -, -, left⟩ :=
        opening.stretch whole.2
      obtain ⟨rfl, rfl⟩ := List.append_inj divided (covers.trans size.symm)
      rw [same] at left
      obtain rfl : behind = trail ++ lineTail below := left
      exact ⟨body, extra, trail, trailWhole, block⟩
  · intro visible above row later split fresh unopened occurs
    have rowWhole : '\n' ∉ row := whole row (by simp [split])
    have reached : ∃ entry ∈ located, entry.1.Covers (above.length + 1) := by
      by_contra none
      push Not at none
      have opensNone := reading.matchAt?_eq_none split (Nat.zero_le _) none
      rcases (matchAt?_eq_none_iff rowWhole).mp opensNone with ⟨absent, -⟩ | ⟨-, tail, opens, -⟩
      · exact absent occurs
      · exact unopened ⟨tail, opens.symm⟩
    obtain ⟨⟨range, found⟩, member, covers⟩ := reached
    let comment := extractor.commentOf (LineMap.ofString source) range found
    have present : comment ∈ extractor.extract source := by
      rw [extracted]
      exact List.mem_map_of_mem member
    have opens : range.first = above.length + 1 := fresh comment present covers
    obtain ⟨above', row', covered, below, divided, -, opening, size, same⟩ :=
      reading.opening_of_mem member
    rw [List.nil_append, split] at divided
    obtain ⟨rfl, line⟩ := List.append_inj divided (by
      rw [same] at opens
      exact Nat.succ.inj opens.symm)
    obtain ⟨rfl, rfl⟩ := List.cons.inj line
    rw [split, unbroken_append] at whole
    obtain ⟨texts, decoded, shape⟩ := opening.exists_runTexts (delimiters.visible_markers visible)
      whole.2 size (Or.inl unopened)
    refine ⟨comment, present, covered, below, texts, rfl, same, decoded, ?_, ?_⟩
    · show (found.shape.lines markers).map String.ofList = _
      rw [shape]
    · show found.shape.role markers = _
      rw [shape]

theorem extract_resumes_below_trailing :
    let extractor := Extractor.ofDelimiters (fun _ _ => {}) {}
    let source := "/** a */ /// b\nx /// c"
    (∃ comment, extractor.extract source =
      comment :: (extractor.extract "x /// c").map (Comment.shift · 1)) ∧
    ∃ comment ∈ extractor.extract source, ∃ texts, comment.range = ⟨2, 2⟩ ∧
      RunTexts ({} : Delimiters).markers "x /// c".toList [] texts := by
  intro extractor source
  have rows : Text.lines source.toList = ["/** a */ /// b".toList, "x /// c".toList] := by
    decide +kernel
  constructor
  · obtain ⟨comment, lower, found⟩ :=
      List.exists_cons_of_ne_nil (show extractor.extract source ≠ [] by decide +kernel)
    have range : comment.range = ⟨1, 1⟩ := by
      have first : ((extractor.extract source).map Comment.range).head? = some ⟨1, 1⟩ := by
        decide +kernel
      rw [found] at first
      exact Option.some.inj first
    obtain ⟨above, row, covered, below, split, placed, next, -⟩ :=
      (extract_resumes_below {} {} source).1 [] comment lower found
    rw [range, LineRange.mk.injEq] at placed
    obtain rfl := List.length_eq_zero_iff.mp (show above.length = 0 by omega)
    obtain rfl := List.length_eq_zero_iff.mp (show covered.length = 0 by omega)
    rw [rows] at split
    obtain ⟨-, rfl⟩ := List.cons.inj split
    refine ⟨comment, ?_⟩
    rw [found, next]
    rfl
  · have visible : ∀ c ∈ ({} : Delimiters).line.toList.head?, isBlank c = false := by
      intro c head
      obtain rfl : '/' = c := Option.some.inj head
      rfl
    obtain ⟨comment, member, covered, below, texts, all, range, decoded, -⟩ :=
      (extract_resumes_below {} {} source).2 visible ["/** a */ /// b".toList]
        "x /// c".toList [] rows (by decide +kernel) (by decide +kernel) (by decide +kernel)
    obtain ⟨rfl, -⟩ := List.append_eq_nil_iff.mp all.symm
    exact ⟨comment, member, texts, range, decoded⟩

/-- The text behind the closing delimiter of a block is not read, even if there is code before a
marker in it. -/
theorem extract_block_trail_unread :
    ((Extractor.ofDelimiters (fun _ _ => {}) {}).extract "/** a */ x /// b").map
      (fun comment => (comment.lines, comment.range)) = [(["a "], ⟨1, 1⟩)] := by
  decide +kernel

end DocComments
