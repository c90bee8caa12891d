import DocComments.Proofs.Comment.Delimiters
import DocComments.Proofs.Comment.Rewriting
import DocComments.Proofs.Text.Renaming
import Mathlib.Logic.Equiv.Basic

/-!
# Other delimiters

Comments are found by their delimiters, whatever characters these are made of. If the characters of
a source are renamed together with those of the delimiters, the same comments are found on the same
lines, and they say the same in the new characters (`extract_renamed`).

Renaming changes the bytes of a text, so the offsets of two matches that correspond differ, and
nothing else does: `matchAt?_text` says so for one comment. The rest is the walk over the lines.
-/

namespace DocComments

open Text Markers

namespace Renaming

variable (rename : Renaming)

/-! ### Delimiters and markers -/

/-- A string in other characters. -/
def string (source : String) : String := source.map rename.image

/-- Delimiters in other characters. -/
def delimiters (delimiters : Delimiters) : Delimiters where
  block := rename.string delimiters.block
  line := rename.string delimiters.line

/-- Markers in other characters. -/
def markers (markers : Markers) : Markers where
  blockOpen := rename.text markers.blockOpen
  blockClose := rename.text markers.blockClose
  blockChar := rename.image markers.blockChar
  lineDoc := rename.text markers.lineDoc
  lineChar := rename.image markers.lineChar

/-- What a comment says in other characters. -/
def shape : Shape → Shape
  | .run texts => .run (texts.map rename.text)
  | .block body extra => .block (rename.text body) extra

@[simp] theorem toList_string (source : String) :
    (rename.string source).toList = rename.text source.toList := String.toList_map

theorem ofList_text (text : Text) :
    String.ofList (rename.text text) = rename.string (.ofList text) := by
  rw [← String.toList_inj, String.toList_ofList, toList_string, String.toList_ofList]

theorem getLastD_text {style : Text} (usual usual' : Char) (inhabited : style ≠ []) :
    (rename.text style).getLastD usual' = rename.image (style.getLastD usual) := by
  rw [Renaming.text, List.getLastD_eq_getLast?, List.getLast?_map, List.getLastD_eq_getLast?,
    List.getLast?_eq_some_getLast inhabited]
  rfl

theorem map_counterpart_text (style : Text) :
    (rename.text style).map counterpart = rename.text (style.map counterpart) := by
  rw [Renaming.text, Renaming.text, List.map_map, List.map_map]
  exact List.map_congr_left fun c _ => (rename.turns c).symm

theorem ofStyles_text {block line : Text} (blockStyle : block ≠ []) (lineStyle : line ≠ []) :
    ofStyles (rename.text block) (rename.text line) = rename.markers (ofStyles block line) := by
  simp only [ofStyles, rename.getLastD_text '*' '*' blockStyle,
    rename.getLastD_text '/' '/' lineStyle, reverse_text, map_counterpart_text, markers,
    text_append, text_cons, text_nil]

theorem markers_delimiters {delimiters : Delimiters} (blockStyle : delimiters.block ≠ "")
    (lineStyle : delimiters.line ≠ "") :
    (rename.delimiters delimiters).markers = rename.markers delimiters.markers := by
  have own (style usual : String) (inhabited : style ≠ "") :
      Delimiters.orUsual style usual = style.toList := by
    rw [Delimiters.orUsual, if_neg (by rwa [String.isEmpty_iff])]
  have renamed (style : String) (inhabited : style ≠ "") : rename.string style ≠ "" := by
    rw [Ne, ← String.toList_eq_nil_iff, toList_string, Renaming.text, List.map_eq_nil_iff,
      String.toList_eq_nil_iff]
    exact inhabited
  have blockText : delimiters.block.toList ≠ [] := String.toList_eq_nil_iff.not.mpr blockStyle
  have lineText : delimiters.line.toList ≠ [] := String.toList_eq_nil_iff.not.mpr lineStyle
  simp only [Delimiters.markers, Renaming.delimiters, own _ _ blockStyle, own _ _ lineStyle,
    own _ _ (renamed _ blockStyle), own _ _ (renamed _ lineStyle), toList_string,
    rename.ofStyles_text blockText lineText]

variable (markers : Markers)

/-! ### What a comment says -/

theorem isLineBreak_comp_image : Shape.isLineBreak ∘ rename.image = Shape.isLineBreak := by
  funext c
  rw [Function.comp_apply, Shape.isLineBreak, rename.image_beq_of_white c (by decide),
    rename.image_beq_of_white c (by decide)]
  rfl

theorem dropWhile_unbroken_text (text : Text) :
    (rename.text text).dropWhile (!Shape.isLineBreak ·) =
      rename.text (text.dropWhile (!Shape.isLineBreak ·)) := by
  rw [Renaming.text, List.dropWhile_map]
  refine congrArg (List.map rename.image) (congrArg (List.dropWhile · text) ?_)
  funext c
  exact congrArg not (congrFun rename.isLineBreak_comp_image c)

theorem isMarkerLine_text (lineChar : Char) (text : Text) :
    Shape.isMarkerLine (rename.image lineChar) (rename.text text) =
      Shape.isMarkerLine lineChar text := by
  simp only [Shape.isMarkerLine, trim_text]
  rw [Renaming.text, List.isEmpty_map, List.all_map]
  congr 2
  funext c
  exact rename.image_beq c lineChar

theorem opensPoster_map_text (lineChar : Char) (texts : List Text) :
    Shape.opensPoster (rename.image lineChar) (texts.map rename.text) =
      Shape.opensPoster lineChar texts := by
  rcases texts with _ | ⟨_ | ⟨c, text⟩, texts⟩
  · rfl
  · rfl
  · simp [Shape.opensPoster, rename.injective.eq_iff]

theorem runTexts_map_text (lineChar : Char) (texts : List Text) :
    Shape.runTexts (rename.image lineChar) (texts.map rename.text) =
      (Shape.runTexts lineChar texts).map rename.text := by
  have poster : Shape.posterTexts (rename.image lineChar) (texts.map rename.text) =
      (Shape.posterTexts lineChar texts).map rename.text := by
    simp only [Shape.posterTexts, ← List.map_drop, List.getLast?_map, Option.any_map,
      isMarkerLine_text]
    split
    · exact List.map_dropLast.symm
    · rfl
  rw [Shape.runTexts, opensPoster_map_text, poster, Shape.runTexts]
  split
  · rfl
  · rfl

theorem untilLastBreak_text (text : Text) :
    Shape.untilLastBreak (rename.text text) = rename.text (Shape.untilLastBreak text) := by
  rw [Shape.untilLastBreak, reverse_text, dropWhile_unbroken_text, Shape.untilLastBreak]
  cases text.reverse.dropWhile (!Shape.isLineBreak ·) with
  | nil => rfl
  | cons c before => exact rename.reverse_text before

theorem interior_text (body : Text) :
    Shape.interior (rename.text body) = rename.text (Shape.interior body) := by
  rw [Shape.interior, dropWhile_unbroken_text, Shape.interior]
  cases body.dropWhile (!Shape.isLineBreak ·) with
  | nil => rfl
  | cons c rest =>
      show Shape.untilLastBreak (List.dropWhile _ (rename.text (c :: rest))) = _
      rw [Renaming.text, List.dropWhile_map, isLineBreak_comp_image]
      exact rename.untilLastBreak_text _

theorem blockLine_text (blockChar : Char) (line : Text) :
    Shape.blockLine (rename.image blockChar) (rename.text line) =
      rename.text (Shape.blockLine blockChar line) := by
  simp only [Shape.blockLine, dropReturn_text, dropBlanks_text]
  cases line.dropReturn.dropBlanks with
  | nil => rfl
  | cons c rest =>
      simp only [text_cons, rename.injective.eq_iff]
      split
      · rfl
      · rfl

theorem blockTexts_text (blockChar : Char) (body : Text) :
    Shape.blockTexts (rename.image blockChar) (rename.text body) =
      (Shape.blockTexts blockChar body).map rename.text := by
  rw [Shape.blockTexts, interior_text, lines_text, List.map_map, Shape.blockTexts, List.map_map]
  exact List.map_congr_left fun line _ => rename.blockLine_text blockChar line

theorem lines_shape (said : Shape) :
    (rename.shape said).lines (rename.markers markers) = (said.lines markers).map rename.text := by
  cases said with
  | run texts =>
      simp only [shape, Shape.lines, Renaming.markers, runTexts_map_text]
      cases Shape.runTexts markers.lineChar texts with
      | nil => rfl
      | cons first rest => exact rename.dedentLines_map_text (first :: rest)
  | block body extra =>
      simp only [shape, Shape.lines, Renaming.markers, blockTexts_text, dedentLines_map_text]

theorem role_shape (said : Shape) :
    (rename.shape said).role (rename.markers markers) = said.role markers := by
  cases said with
  | run texts => simp only [shape, Shape.role, Renaming.markers, opensPoster_map_text]
  | block body extra =>
      have count : Shape.closerCount (rename.markers markers) = Shape.closerCount markers := by
        simp only [Shape.closerCount, Renaming.markers, Renaming.text, List.takeWhile_map,
          List.length_map]
        congr 2
        funext c
        exact rename.image_beq c markers.blockChar
      simp only [shape, Shape.role, count]

/-! ### Where a comment opens -/

/-- Two matches that differ by renaming, wherever they start. -/
def MatchRenamed (found found' : Match) : Prop :=
  found'.raw = rename.text found.raw ∧ found'.shape = rename.shape found.shape ∧
    found'.rest = rename.text found.rest

theorem runText?_text (line : Text) :
    (rename.markers markers).runText? (rename.text line) =
      (markers.runText? line).map rename.text := by
  simp only [runText?, Renaming.markers, dropBlanks_text, after?_text, Option.map_map,
    Function.comp_def, dropReturn_text]

theorem matchRenamed_runAt (offset offset' : Nat) (text : Text) :
    rename.MatchRenamed (markers.runAt offset text)
      ((rename.markers markers).runAt offset' (rename.text text)) := by
  have taken : (rename.text text).lines.takeWhile
        (fun line => ((rename.markers markers).runText? line).isSome) =
      (text.lines.takeWhile fun line => (markers.runText? line).isSome).map rename.text := by
    rw [lines_text, List.takeWhile_map]
    congr 2
    funext line
    rw [Function.comp_apply, runText?_text, Option.isSome_map]
  simp only [MatchRenamed, runAt, taken, joinLines_map_text, length_text, drop_text, shape,
    true_and, and_true, Shape.run.injEq, List.filterMap_map, List.map_filterMap]
  congr 1
  funext line
  exact rename.runText?_text markers line

theorem splitExtra_text (body : Text) :
    (rename.markers markers).splitExtra (rename.text body) =
      Prod.map rename.text id (markers.splitExtra body) := by
  have same : (· == rename.image markers.blockChar) ∘ rename.image = (· == markers.blockChar) := by
    funext c
    exact rename.image_beq c markers.blockChar
  have taken (text : Text) : (rename.text text).takeWhile (· == rename.image markers.blockChar) =
      rename.text (text.takeWhile (· == markers.blockChar)) := by
    rw [Renaming.text, List.takeWhile_map, same]
    rfl
  have dropped (text : Text) : (rename.text text).dropWhile (· == rename.image markers.blockChar) =
      rename.text (text.dropWhile (· == markers.blockChar)) := by
    rw [Renaming.text, List.dropWhile_map, same]
    rfl
  simp only [splitExtra, Renaming.markers, reverse_text, taken, dropped, length_text]
  rfl

theorem rel_blockAt? (offset offset' : Nat) (indent inner : Text) :
    Option.Rel rename.MatchRenamed (markers.blockAt? offset indent inner)
      ((rename.markers markers).blockAt? offset' (rename.text indent) (rename.text inner)) := by
  have cut := rename.cut?_text markers.blockClose inner
  rw [blockAt?, blockAt?]
  show Option.Rel _ _ (Option.map _ (cut? (rename.text markers.blockClose) (rename.text inner)))
  rw [cut]
  cases cut? markers.blockClose inner with
  | none => exact .none
  | some pieces =>
      obtain ⟨between, rest⟩ := pieces
      refine .some ⟨?_, ?_, rfl⟩
      · simp only [Prod.map, text_append]
        rfl
      · simp only [Prod.map, splitExtra_text]
        rfl

/-- In other characters the same comment opens on a line, if any does. -/
theorem matchAt?_text (offset offset' : Nat) (text : Text) :
    Option.Rel rename.MatchRenamed (markers.matchAt? offset text)
      ((rename.markers markers).matchAt? offset' (rename.text text)) := by
  have lineDoc : (rename.markers markers).lineDoc = rename.text markers.lineDoc := rfl
  have blockOpen : (rename.markers markers).blockOpen = rename.text markers.blockOpen := rfl
  simp only [matchAt?, lineDoc, blockOpen, takeBlanks_text, dropBlanks_text, firstLine_text,
    opensWith_text, cut?_text, length_text, drop_text]
  split
  · exact .some (rename.matchRenamed_runAt markers _ _ _)
  · split
    · exact rename.rel_blockAt? markers _ _ _ _
    · cases cut? markers.lineDoc text.dropBlanks.firstLine with
      | none => exact .none
      | some pieces =>
          simp only [Option.map_some, Prod.map, length_text]
          exact .some (rename.matchRenamed_runAt markers _ _ _)

/-! ### Whole sources -/

theorem rewriteLines_text (rows : List Text) :
    rewriteLines (fun row _ => rename.text row) rows = rows.map rename.text := by
  induction rows with
  | nil => rfl
  | cons row rows ih => rw [rewriteLines, ih, List.map_cons]

/-- The walks over a source and over the renamed one find their comments on the same lines, and
these differ by renaming. -/
theorem exists_reading_text {text : Text} {located : List (LineRange × Match)}
    (reading : Reading markers [] text.lines located) :
    ∃ located', Reading (rename.markers markers) [] (rename.text text).lines located' ∧
      List.Forall₂ (fun entry entry' => entry'.1 = entry.1 ∧ rename.MatchRenamed entry.2 entry'.2)
        located located' := by
  have whole' := rename.unbroken_map_text (unbroken_lines text)
  rw [lines_text]
  rw [← rewriteLines_text] at whole' ⊢
  refine reading.rewritten (unbroken_lines text) whole' ?_ rfl
  intro row later _ offset offset'
  have opens := rename.matchAt?_text markers offset offset' (row ++ lineTail later)
  rw [text_append, ← lineTail_map_text] at opens
  rw [rewriteLines_text]
  generalize attempt : markers.matchAt? _ _ = result at opens ⊢
  generalize attempt' : Markers.matchAt? _ _ _ = result' at opens ⊢
  cases opens with
  | none => exact .none
  | some renamed => exact .some ⟨by rw [renamed.1, breaks_text], renamed⟩

end Renaming

/-- The line numbers of a text with which a source ends, as seen from its start. -/
def LineLookup.behind (source text : String) : LineLookup :=
  ⟨LineMap.ofString source, source.utf8ByteSize - text.utf8ByteSize⟩

/-- A resolver gets the text behind a comment and the line numbers of that text. -/
theorem Markers.Reading.context_eq {markers : Markers} {source : String}
    {located : List (LineRange × Match)} {range : LineRange} {found : Match}
    (reading : Reading markers [] (Text.lines source.toList) located)
    (member : (range, found) ∈ located) (resolver : Resolver) :
    (Extractor.commentOf ⟨resolver, markers⟩ (LineMap.ofString source) range found).context =
      resolver (.ofList found.rest) (.behind source (.ofList found.rest)) := by
  obtain ⟨front, whole, start, -⟩ := reading.exists_front member
  have size := congrArg byteSize whole
  rw [byteSize_toList, byteSize_append, byteSize_append] at size
  have stop : found.stop = source.utf8ByteSize - (String.ofList found.rest).utf8ByteSize := by
    rw [← byteSize_toList (.ofList found.rest), String.toList_ofList, Match.stop, start]
    omega
  rw [LineLookup.behind, ← stop]
  rfl

/-- With other characters in the source and in its delimiters the same comments are found on the
same lines. They say the same in the new characters, and the resolver is asked about the same texts
in the new characters. -/
theorem extract_renamed (rename : Renaming) (delimiters : Delimiters)
    (blockStyle : delimiters.block ≠ "") (lineStyle : delimiters.line ≠ "") (source : String) :
    ∃ following : List String, ∀ resolver resolver' : Resolver,
      let plain := (Extractor.ofDelimiters resolver delimiters).extract source
      let renamed := (Extractor.ofDelimiters resolver' (rename.delimiters delimiters)).extract
        (rename.string source)
      renamed.map (fun comment => (comment.role, comment.range, comment.lines)) =
        plain.map (fun comment =>
          (comment.role, comment.range, comment.lines.map rename.string)) ∧
      plain.map Comment.context =
        following.map (fun text => resolver text (.behind source text)) ∧
      renamed.map Comment.context =
        (following.map rename.string).map
          (fun text => resolver' text (.behind (rename.string source) text)) := by
  obtain ⟨located, reading⟩ :=
    exists_reading delimiters.markers [] (unbroken_lines source.toList)
  obtain ⟨located', reading', alike⟩ := rename.exists_reading_text delimiters.markers reading
  rw [← rename.markers_delimiters blockStyle lineStyle, ← rename.toList_string] at reading'
  refine ⟨located.map fun entry => .ofList entry.2.rest, ?_⟩
  intro resolver resolver' plain renamed
  have found : plain = _ := reading.extract_eq resolver
  have found' : renamed = _ := reading'.extract_eq resolver'
  rw [found, found']
  refine ⟨?_, ?_, ?_⟩
  · rw [List.map_map, List.map_map]
    refine map_eq_map_of_forall₂ alike ?_
    rintro ⟨range, found⟩ ⟨range', found'⟩ - ⟨sameRange, -, said, -⟩
    simp only [Function.comp_apply, Extractor.commentOf, Prod.mk.injEq]
    rw [said, rename.markers_delimiters blockStyle lineStyle]
    refine ⟨rename.role_shape _ _, sameRange, ?_⟩
    rw [rename.lines_shape, List.map_map, List.map_map]
    exact List.map_congr_left fun line _ => rename.ofList_text line
  · rw [List.map_map, List.map_map]
    exact List.map_congr_left fun entry member => reading.context_eq member resolver
  · rw [List.map_map, List.map_map, List.map_map]
    refine map_eq_map_of_forall₂ alike ?_
    rintro ⟨range, found⟩ ⟨range', found'⟩ member' ⟨-, -, -, rest⟩
    rw [Function.comp_apply, reading'.context_eq member' resolver', rest, rename.ofList_text]
    rfl

/-- The exchange of two characters that are neither white space nor brackets. -/
def Renaming.exchange (a b : Char) (visible : isWhiteSpace a = false ∧ isWhiteSpace b = false)
    (straight : ∀ c ∈ brackets, c ≠ a ∧ c ≠ b) : Renaming where
  image := Equiv.swap a b
  injective := (Equiv.swap a b).injective
  fixes := by
    intro c white
    apply Equiv.swap_apply_of_ne_of_ne
    · rintro rfl
      rw [visible.1] at white
      cases white
    · rintro rfl
      rw [visible.2] at white
      cases white
  shows := by
    intro c shown
    rw [Equiv.swap_apply_def]
    split
    · exact visible.2
    · split
      · exact visible.1
      · exact shown
  turns := by
    intro c
    have kept : ∀ d ∈ brackets, Equiv.swap a b d = d := fun d bracket =>
      Equiv.swap_apply_of_ne_of_ne (straight d bracket).1 (straight d bracket).2
    rcases counterpart_eq_or_mem c with same | ⟨opens, closes⟩
    · rw [same]
      rcases counterpart_eq_or_mem (Equiv.swap a b c) with turned | ⟨bracket, -⟩
      · exact turned.symm
      · -- Only a bracket is exchanged for a bracket, and it is exchanged for itself.
        have fixed : Equiv.swap a b c = c := by
          have back := kept _ bracket
          rw [Equiv.swap_apply_self] at back
          exact back.symm
        rw [fixed, same]
    · rw [kept _ closes, kept _ opens]

theorem extract_renamed_daggers :
    let resolver : Resolver := fun text _ => { kind := text }
    let comments := (Extractor.ofDelimiters resolver { block := "(†", line := "††" }).extract
      "x\n(††\n † ü (\n††)<\n††† z"
    comments.map (fun comment => (comment.role, comment.range, comment.lines)) =
      [(.poster, ⟨2, 4⟩, ["ü ("]), (.normal, ⟨5, 5⟩, ["z"])] := by
  intro resolver comments
  let rename : Renaming := .exchange '*' '†' (by decide) fun c member =>
    of_decide_eq_true (List.all_eq_true.mp
      (by decide +kernel : brackets.all (fun c => c ≠ '*' ∧ c ≠ '†') = true) c member)
  have delimiters : rename.delimiters ⟨"(*", "**"⟩ = ⟨"(†", "††"⟩ := by decide +kernel
  have source : rename.string "x\n(**\n * ü (\n**)<\n*** z" = "x\n(††\n † ü (\n††)<\n††† z" := by
    decide +kernel
  obtain ⟨following, same⟩ := extract_renamed rename ⟨"(*", "**"⟩ (by decide) (by decide)
    "x\n(**\n * ü (\n**)<\n*** z"
  have said := (same resolver resolver).1
  rw [delimiters, source] at said
  exact said.trans (by decide +kernel)

end DocComments
