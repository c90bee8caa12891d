import DocComments.Proofs.Comment.Decoding
import DocComments.Proofs.Comment.Delimiters
import DocComments.Proofs.Comment.Rewriting
import DocComments.Proofs.Text.LineEndings

/-!
# Comments do not depend on line endings

A source that ends its lines with `\r\n` has the comments that it has with `\n`
(`extract_withReturns`). The return at the end of a line is taken off in runs when the line is read.
In a block it counts as a line break of its own when the first and the last line of the body are
dropped, and is taken off the lines between them afterwards: `blockTexts_withReturns`.

No marker reaches over the return at the end of a line, because every marker repeats its last
character and no line has two returns.
-/

namespace DocComments

open Text Markers

variable {markers : Markers}

/-! ### The end of a line -/

namespace Text

theorem dropReturn_append_return (text : Text) : dropReturn (text ++ ['\r']) = text := by
  rw [dropReturn, if_pos (by simp), List.dropLast_concat]

theorem dropBlanks_append_return (line : Text) :
    dropBlanks (line ++ ['\r']) = dropBlanks line ++ ['\r'] := by
  rw [dropBlanks, List.dropWhile_append]
  split
  · rename_i blank
    rw [dropBlanks, List.isEmpty_iff.mp blank]
    rfl
  · rfl

/-- What repeats its last character does not end with the return of a line. -/
theorem not_isSuffix_append_return {front code : Text} {c : Char} (none : '\r' ∉ code) :
    ¬ front ++ [c, c] <:+ code ++ ['\r'] := by
  rintro ⟨start, whole⟩
  have split : (start ++ front ++ [c]) ++ [c] = code ++ ['\r'] := by
    rw [← whole]
    simp
  obtain ⟨rfl, same⟩ := List.append_inj' split rfl
  obtain rfl := List.singleton_inj.mp same
  exact none (by simp)

variable {front code ending : Text} {c : Char}

theorem isPrefix_append_ending (none : '\r' ∉ code) (ends : ending = [] ∨ ending = ['\r']) :
    front ++ [c, c] <+: code ++ ending ↔ front ++ [c, c] <+: code := by
  rcases ends with rfl | rfl
  · rw [List.append_nil]
  · rw [List.prefix_concat_iff, or_iff_right]
    intro whole
    exact not_isSuffix_append_return none ⟨[], whole⟩

theorem isInfix_append_ending (none : '\r' ∉ code) (ends : ending = [] ∨ ending = ['\r']) :
    front ++ [c, c] <:+: code ++ ending ↔ front ++ [c, c] <:+: code := by
  rcases ends with rfl | rfl
  · rw [List.append_nil]
  · rw [List.infix_concat_iff, or_iff_right (not_isSuffix_append_return none)]

theorem cut?_append_ending (none : '\r' ∉ code) (ends : ending = [] ∨ ending = ['\r']) :
    cut? (front ++ [c, c]) (code ++ ending) =
      (cut? (front ++ [c, c]) code).map (Prod.map id (· ++ ending)) := by
  cases attempt : cut? (front ++ [c, c]) code with
  | some pieces => exact cut?_append ending attempt
  | none =>
      rw [cut?_eq_none_iff] at attempt
      rw [Option.map_none, cut?_eq_none_iff, isInfix_append_ending none ends]
      exact attempt

end Text

namespace Markers

/-! ### Runs -/

theorem runText?_append_return (regular : markers.Regular) {line : Text} (none : '\r' ∉ line) :
    markers.runText? (line ++ ['\r']) = markers.runText? line := by
  have clean : '\r' ∉ line.dropBlanks := fun member =>
    none ((List.dropWhile_sublist isBlank).mem member)
  rw [runText?, runText?, dropBlanks_append_return]
  by_cases opens : markers.lineDoc <+: line.dropBlanks
  · obtain ⟨rest, split⟩ := opens
    have plain : after? markers.lineDoc line.dropBlanks = some rest :=
      after?_eq_some_iff.mpr split.symm
    have returned : after? markers.lineDoc (line.dropBlanks ++ ['\r']) = some (rest ++ ['\r']) := by
      rw [after?_eq_some_iff, ← split, List.append_assoc]
    have restClean : '\r' ∉ rest := fun member =>
      clean (split ▸ List.mem_append_right _ member)
    rw [plain, returned, Option.map_some, Option.map_some, dropReturn_append_return,
      dropReturn_of_not_mem restClean]
  · have returned : ¬ markers.lineDoc <+: line.dropBlanks ++ ['\r'] := by
      obtain ⟨front, doubled⟩ := regular.lineDoc
      rw [doubled] at opens ⊢
      rwa [isPrefix_append_ending clean (Or.inr rfl)]
    rw [after?_eq_none_iff.mpr opens, after?_eq_none_iff.mpr returned]

theorem breaks_joinLines {rows : List Text} (whole : Unbroken rows) :
    breaks (joinLines rows) = rows.length - 1 := by
  cases rows with
  | nil => rfl
  | cons row rows =>
      obtain ⟨unbroken, below⟩ := unbroken_cons.mp whole
      rw [joinLines_cons, breaks_append, breaks_eq_zero.mpr unbroken, breaks_lineTail below,
        List.length_cons, Nat.zero_add, Nat.add_sub_cancel]

/-- What a run says, and how many lines it has, depends on what its lines say. -/
theorem runAt_eq_of_map_runText? {text text' : Text} (offset offset' : Nat)
    (same : text'.lines.map markers.runText? = text.lines.map markers.runText?) :
    (markers.runAt offset' text').shape = (markers.runAt offset text).shape ∧
      (markers.runAt offset' text').raw.breaks = (markers.runAt offset text).raw.breaks := by
  have taken (rows : List Text) :
      (rows.takeWhile fun line => (markers.runText? line).isSome).map markers.runText? =
        (rows.map markers.runText?).takeWhile Option.isSome := by
    rw [List.takeWhile_map]
    rfl
  have sameTaken := (taken text'.lines).trans ((congrArg _ same).trans (taken text.lines).symm)
  have unbroken (text : Text) :
      Unbroken (text.lines.takeWhile fun line => (markers.runText? line).isSome) :=
    fun row member => unbroken_lines text row ((List.takeWhile_sublist _).mem member)
  constructor
  · have said := congrArg (List.filterMap id) sameTaken
    rw [List.filterMap_map, List.filterMap_map] at said
    exact congrArg Shape.run said
  · have size := congrArg List.length sameTaken
    rw [List.length_map, List.length_map] at size
    simp only [runAt, breaks_joinLines (unbroken _), size]

theorem runAt_withReturns (regular : markers.Regular) {text : Text} (offset offset' : Nat)
    (none : '\r' ∉ text) :
    (markers.runAt offset' (withReturns text)).shape = (markers.runAt offset text).shape ∧
      (markers.runAt offset' (withReturns text)).raw.breaks =
        (markers.runAt offset text).raw.breaks := by
  apply runAt_eq_of_map_runText?
  rw [lines_withReturns]
  apply map_rewriteLines_withReturn
  intro row member
  apply runText?_append_return regular
  exact fun inside => none (mem_of_mem_lines member inside)

/-! ### Blocks -/

theorem splitExtra_withReturns (between : Text) (inline : Inline [markers.blockChar]) :
    markers.splitExtra (withReturns between) =
      Prod.map withReturns id (markers.splitExtra between) := by
  have split := congrArg withReturns (markers.append_replicate_splitExtra between)
  have extra : '\n' ∉ List.replicate (markers.splitExtra between).2 markers.blockChar := by
    intro member
    apply inline.1
    rw [List.eq_of_mem_replicate member]
    exact List.mem_cons_self
  rw [withReturns_append, withReturns_of_unbroken extra] at split
  rw [← split, splitExtra_append_replicate]
  · rfl
  · rw [getLast?_withReturns]
    exact markers.getLast?_splitExtra between

end Markers

namespace Shape

/-- The last line goes with the break before it, and leaves a return behind if the lines end with
`\r\n`. -/
theorem map_lines_untilLastBreak_withReturns {α : Type} {f : Text → α} {text : Text}
    (none : '\r' ∉ text) (same : ∀ line, '\r' ∉ line → f (line ++ ['\r']) = f line) :
    (untilLastBreak (withReturns text)).lines.map f = (untilLastBreak text).lines.map f := by
  by_cases broken : '\n' ∈ text
  · obtain ⟨trail, upper, reversed, last⟩ :=
      List.eq_append_cons_of_mem (List.mem_reverse.mpr broken)
    have split : text = upper.reverse ++ '\n' :: trail.reverse := by
      rw [← List.reverse_reverse text, reversed]
      simp
    have trailWhole : '\n' ∉ trail.reverse := fun member => last (List.mem_reverse.mp member)
    have trailPlain : ∀ c ∈ trail.reverse, isLineBreak c = false := by
      intro c member
      rw [isLineBreak, Bool.or_eq_false_iff, beq_eq_false_iff_ne, beq_eq_false_iff_ne]
      constructor
      · rintro rfl
        exact trailWhole member
      · rintro rfl
        exact none (split ▸ List.mem_append_right _ (List.mem_cons_of_mem _ member))
    have returned : withReturns text =
        (withReturns upper.reverse ++ ['\r']) ++ '\n' :: trail.reverse := by
      rw [split, withReturns_append, withReturns_cons_break, withReturns_of_unbroken trailWhole]
      simp
    rw [returned, untilLastBreak_append (by decide) trailPlain, lines_withReturns_append_return,
      split, untilLastBreak_append (by decide) trailPlain, List.map_map]
    refine List.map_congr_left fun line member => same line fun inside => none ?_
    rw [split]
    exact List.mem_append_left _ (mem_of_mem_lines member inside)
  · rw [withReturns_of_unbroken broken]

theorem blockLine_append_return {blockChar : Char} {line : Text} (none : '\r' ∉ line) :
    blockLine blockChar (line ++ ['\r']) = blockLine blockChar line := by
  rw [blockLine, blockLine, dropReturn_append_return, dropReturn_of_not_mem none]

theorem blockTexts_withReturns {body : Text} (blockChar : Char) (none : '\r' ∉ body) :
    blockTexts blockChar (withReturns body) = blockTexts blockChar body := by
  have dropped := dropWhile_withReturns (p := (!isLineBreak ·)) rfl body
  rw [blockTexts, blockTexts, interior_eq_ite, interior_eq_ite, dropped]
  by_cases single : body.dropWhile (!isLineBreak ·) = []
  · have whole : '\n' ∉ body := by
      intro member
      have passes := List.dropWhile_eq_nil_iff.mp single '\n' member
      exact absurd passes (by decide)
    rw [if_pos single, if_pos (by rw [single]; rfl), withReturns_of_unbroken whole]
  · have broken : ¬ withReturns (body.dropWhile (!isLineBreak ·)) = [] := by
      rw [withReturns_eq_nil_iff]
      exact single
    rw [if_neg single, if_neg broken, dropWhile_withReturns rfl]
    apply map_lines_untilLastBreak_withReturns
    · intro member
      exact none ((List.dropWhile_sublist _).mem ((List.dropWhile_sublist _).mem member))
    · intro line clean
      exact blockLine_append_return clean

end Shape

namespace Markers

/-! ### Where a comment opens -/

/-- Two matches that say the same. -/
def SaysSame (markers : Markers) (found found' : Match) : Prop :=
  found'.shape.lines markers = found.shape.lines markers ∧
    found'.shape.role markers = found.shape.role markers

theorem matchesAlike_runAt (regular : markers.Regular) {text : Text} (offset offset' : Nat)
    (none : '\r' ∉ text) :
    MatchesAlike markers.SaysSame (markers.runAt offset text)
      (markers.runAt offset' (withReturns text)) := by
  obtain ⟨said, count⟩ := runAt_withReturns regular offset offset' none
  exact ⟨count, by rw [said], by rw [said]⟩

theorem rel_blockAt?_withReturns {indent inner : Text} (offset offset' : Nat)
    (inlineClose : Inline markers.blockClose) (inlineChar : Inline [markers.blockChar])
    (none : '\r' ∉ inner) :
    Option.Rel (MatchesAlike markers.SaysSame) (markers.blockAt? offset indent inner)
      (markers.blockAt? offset' indent (withReturns inner)) := by
  rw [blockAt?, blockAt?, cut?_withReturns inlineClose]
  cases cut : cut? markers.blockClose inner with
  | none => exact .none
  | some pieces =>
      obtain ⟨between, rest⟩ := pieces
      have body : '\r' ∉ (markers.splitExtra between).1 := by
        intro member
        apply none
        rw [eq_append_of_cut? cut, ← markers.append_replicate_splitExtra between]
        simp [member]
      simp only [Option.map_some, Prod.map, splitExtra_withReturns between inlineChar]
      refine .some ⟨?_, ?_, rfl⟩
      · simp only [breaks_append, breaks_withReturns]
      · simp only [Shape.lines, Shape.blockTexts_withReturns markers.blockChar body]

/-- An opening delimiter inside a line comes with a closing one that stands inside a line. -/
theorem Regular.inline_blockClose (regular : markers.Regular) (inline : Inline markers.blockOpen) :
    Inline markers.blockClose ∧ Inline [markers.blockChar] := by
  obtain ⟨closeWhole, charWhole⟩ := regular.not_mem_blockClose (by decide) inline.1
  obtain ⟨closeClean, charClean⟩ := regular.not_mem_blockClose (by decide) inline.2
  exact ⟨⟨closeWhole, closeClean⟩, by simpa using charWhole, by simpa using charClean⟩

/-- With a return before every line break the same comment opens on a line, if any does. -/
theorem rel_matchAt?_withReturns (regular : markers.Regular) {text : Text} (offset offset' : Nat)
    (none : '\r' ∉ text) :
    Option.Rel (MatchesAlike markers.SaysSame) (markers.matchAt? offset text)
      (markers.matchAt? offset' (withReturns text)) := by
  obtain ⟨ending, ends, first⟩ := exists_firstLine_withReturns text.dropBlanks
  have codeClean : '\r' ∉ text.dropBlanks := fun member =>
    none ((List.dropWhile_sublist isBlank).mem member)
  have inCode : text.dropBlanks.firstLine <+: text.dropBlanks := List.takeWhile_prefix _
  have lineWhole := unbroken_firstLine text.dropBlanks
  have lineClean : '\r' ∉ text.dropBlanks.firstLine := fun member =>
    codeClean (inCode.sublist.mem member)
  simp only [matchAt?, takeBlanks_withReturns, dropBlanks_withReturns, first]
  generalize text.dropBlanks = code at *
  generalize code.firstLine = line at *
  have lineOpens : opensWith markers.lineDoc (line ++ ending) = opensWith markers.lineDoc line := by
    obtain ⟨front, doubled⟩ := regular.lineDoc
    rw [Bool.eq_iff_iff, opensWith_iff, opensWith_iff, doubled,
      isPrefix_append_ending lineClean ends]
  have blockOpens :
      opensWith markers.blockOpen (line ++ ending) = opensWith markers.blockOpen line := by
    obtain ⟨front, doubled⟩ := regular.blockOpen
    rw [Bool.eq_iff_iff, opensWith_iff, opensWith_iff, doubled,
      isPrefix_append_ending lineClean ends]
  have occurs : cut? markers.lineDoc (line ++ ending) =
      (cut? markers.lineDoc line).map (Prod.map id (· ++ ending)) := by
    obtain ⟨front, doubled⟩ := regular.lineDoc
    rw [doubled, cut?_append_ending lineClean ends]
  rw [lineOpens, blockOpens, occurs]
  split
  · exact .some (matchesAlike_runAt regular _ _ codeClean)
  · split
    · rename_i opens
      rw [opensWith_iff] at opens
      have inline : Inline markers.blockOpen :=
        ⟨fun member => lineWhole (opens.sublist.mem member),
          fun member => lineClean (opens.sublist.mem member)⟩
      obtain ⟨inlineClose, inlineChar⟩ := regular.inline_blockClose inline
      obtain ⟨inner, rfl⟩ := opens.trans inCode
      rw [List.drop_left, drop_withReturns inner inline.1]
      refine rel_blockAt?_withReturns _ _ inlineClose inlineChar ?_
      exact fun member => codeClean (List.mem_append_right _ member)
    · cases cut : cut? markers.lineDoc line with
      | none => exact .none
      | some pieces =>
          obtain ⟨before, after⟩ := pieces
          have front : before <+: line := by
            rw [eq_append_of_cut? cut, List.append_assoc]
            exact List.prefix_append _ _
          obtain ⟨marked, rfl⟩ := front.trans inCode
          have beforeWhole : '\n' ∉ before := fun member => lineWhole (front.sublist.mem member)
          simp only [Option.map_some, Prod.map, id_eq, drop_withReturns marked beforeWhole,
            List.drop_left]
          refine .some (matchesAlike_runAt regular _ _ ?_)
          exact fun member => codeClean (List.mem_append_right _ member)

end Markers

/-- The comments of a source do not depend on how its lines end. -/
theorem extract_withReturns (delimiters : Delimiters) (resolver resolver' : Resolver)
    (source : String) (none : '\r' ∉ source.toList) :
    ((Extractor.ofDelimiters resolver' delimiters).extract
        (String.ofList (withReturns source.toList))).map
        (fun comment => (comment.lines, comment.role, comment.range)) =
      ((Extractor.ofDelimiters resolver delimiters).extract source).map
        fun comment => (comment.lines, comment.role, comment.range) := by
  have whole := unbroken_lines source.toList
  obtain ⟨located, reading⟩ := exists_reading delimiters.markers [] whole
  obtain ⟨located', reading', alike⟩ :
      ∃ located', Reading delimiters.markers []
          (Text.lines (String.ofList (withReturns source.toList)).toList) located' ∧
        List.Forall₂ (fun entry entry' =>
          entry'.1 = entry.1 ∧ delimiters.markers.SaysSame entry.2 entry'.2) located located' := by
    rw [String.toList_ofList, lines_withReturns]
    refine reading.rewritten whole (unbroken_rewriteLines_withReturn whole) ?_ rfl
    intro row later suffix offset offset'
    have below : Unbroken (row :: later) := fun line member => whole line (suffix.mem member)
    rw [← withReturns_append_lineTail below]
    refine rel_matchAt?_withReturns delimiters.regular_markers _ _ fun member => none ?_
    obtain ⟨above, split⟩ := suffix
    rw [← joinLines_lines source.toList, ← split,
      lineHead_append_joinLines above (List.cons_ne_nil _ _), joinLines_cons]
    exact List.mem_append_right _ member
  rw [Extractor.ofDelimiters, reading'.extract_eq resolver', Extractor.ofDelimiters,
    reading.extract_eq resolver, List.map_map, List.map_map]
  refine map_eq_map_of_forall₂ alike ?_
  rintro entry entry' - ⟨sameRange, sameLines, sameRole⟩
  simp only [Function.comp_apply, Extractor.commentOf, sameLines, sameRole, sameRange]

theorem extract_withReturns_starred :
    let resolver : Resolver := fun text _ => { kind := text }
    let source := "/**\n * a\n\n * é\n **/\nx /// b\n///\n/** c\n d */"
    '\r' ∉ source.toList ∧
      ((Extractor.ofDelimiters resolver {}).extract
          "/**\r\n * a\r\n\r\n * é\r\n **/\r\nx /// b\r\n///\r\n/** c\r\n d */").map
          (fun comment => (comment.lines, comment.role, comment.range)) =
        [(["a", "", "é"], .poster, ⟨1, 5⟩), (["b", ""], .normal, ⟨6, 7⟩),
          (["d "], .normal, ⟨8, 9⟩)] := by
  intro resolver source
  have none : '\r' ∉ source.toList := by decide +kernel
  have returned : String.ofList (withReturns source.toList) =
      "/**\r\n * a\r\n\r\n * é\r\n **/\r\nx /// b\r\n///\r\n/** c\r\n d */" := by
    decide +kernel
  have same := extract_withReturns {} resolver resolver source none
  rw [returned] at same
  exact ⟨none, same.trans (by decide +kernel)⟩

end DocComments
