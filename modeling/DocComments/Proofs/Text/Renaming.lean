import DocComments.Comment.Delimiters
import DocComments.Proofs.Text.Indent
import DocComments.Proofs.Text.Search
import Mathlib.Data.List.Count

/-!
# Other characters

A `Renaming` exchanges characters one for one and leaves white space alone. It may make a text
longer or shorter in bytes, but every operation on texts gives the same pieces of it: the lemmas
here say for one operation after the other that it may be carried out before or after renaming. They
are simp lemmas that move the renaming outwards.
-/

namespace DocComments

open Text

/-- An exchange of characters that no operation on texts can see. -/
structure Renaming where
  image : Char → Char
  injective : Function.Injective image
  /-- White space stays what it is. -/
  fixes : ∀ c, isWhiteSpace c = true → image c = c
  /-- Nothing else becomes white space. -/
  shows : ∀ c, isWhiteSpace c = false → isWhiteSpace (image c) = false
  /-- Brackets become brackets that close each other in the same way. -/
  turns : ∀ c, image (Markers.counterpart c) = Markers.counterpart (image c)

namespace Renaming

variable (rename : Renaming)

/-! ### Characters -/

@[simp] theorem isWhiteSpace_image (c : Char) :
    isWhiteSpace (rename.image c) = isWhiteSpace c := by
  cases white : isWhiteSpace c with
  | false => exact rename.shows c white
  | true => rw [rename.fixes c white, white]

theorem image_eq_iff {c d : Char} (white : isWhiteSpace d = true) :
    rename.image c = d ↔ c = d := by
  constructor
  · intro same
    exact rename.injective (same.trans (rename.fixes d white).symm)
  · rintro rfl
    exact rename.fixes c white

@[simp] theorem image_beq (c d : Char) : (rename.image c == rename.image d) = (c == d) :=
  Bool.eq_iff_iff.mpr (by rw [beq_iff_eq, beq_iff_eq, rename.injective.eq_iff])

theorem image_beq_of_white {d : Char} (c : Char) (white : isWhiteSpace d = true) :
    (rename.image c == d) = (c == d) :=
  Bool.eq_iff_iff.mpr (by rw [beq_iff_eq, beq_iff_eq, rename.image_eq_iff white])

theorem isBlank_comp_image : isBlank ∘ rename.image = isBlank := by
  funext c
  rw [Function.comp_apply, isBlank, rename.image_beq_of_white c (by decide),
    rename.image_beq_of_white c (by decide)]
  rfl

theorem isWhiteSpace_comp_image : isWhiteSpace ∘ rename.image = isWhiteSpace :=
  funext rename.isWhiteSpace_image

/-! ### Texts and lines -/

/-- A text in other characters. -/
def text (text : Text) : Text := text.map rename.image

@[simp] theorem text_nil : rename.text [] = [] := rfl

@[simp] theorem text_cons (c : Char) (text : Text) :
    rename.text (c :: text) = rename.image c :: rename.text text := rfl

@[simp] theorem text_append (first second : Text) :
    rename.text (first ++ second) = rename.text first ++ rename.text second := List.map_append

@[simp] theorem length_text (text : Text) : (rename.text text).length = text.length :=
  List.length_map _

@[simp] theorem drop_text (width : Nat) (text : Text) :
    (rename.text text).drop width = rename.text (text.drop width) := List.map_drop.symm

@[simp] theorem reverse_text (text : Text) :
    (rename.text text).reverse = rename.text text.reverse := List.map_reverse.symm

theorem mem_text_iff {c : Char} {text : Text} (white : isWhiteSpace c = true) :
    c ∈ rename.text text ↔ c ∈ text := by
  rw [Renaming.text, List.mem_map]
  constructor
  · rintro ⟨d, member, same⟩
    rwa [(rename.image_eq_iff white).mp same] at member
  · intro member
    exact ⟨c, member, rename.fixes c white⟩

@[simp] theorem breaks_text (text : Text) : breaks (rename.text text) = breaks text := by
  have fixed := rename.fixes '\n' (by decide)
  have count := List.count_map_of_injective text rename.image rename.injective '\n'
  rw [fixed] at count
  exact count

theorem unbroken_map_text {rows : List Text} (whole : Unbroken rows) :
    Unbroken (rows.map rename.text) := by
  intro row member
  obtain ⟨original, present, rfl⟩ := List.mem_map.mp member
  rw [rename.mem_text_iff (by decide)]
  exact whole original present

@[simp] theorem lineTail_map_text (rows : List Text) :
    lineTail (rows.map rename.text) = rename.text (lineTail rows) := by
  induction rows with
  | nil => rfl
  | cons row rows ih =>
      rw [List.map_cons, lineTail_cons, ih, lineTail_cons, text_cons, text_append,
        rename.fixes '\n' (by decide)]

@[simp] theorem joinLines_map_text (rows : List Text) :
    joinLines (rows.map rename.text) = rename.text (joinLines rows) := by
  cases rows with
  | nil => rfl
  | cons row rows =>
      rw [List.map_cons, joinLines_cons, lineTail_map_text, joinLines_cons, text_append]

@[simp] theorem lines_text (text : Text) :
    lines (rename.text text) = (lines text).map rename.text := by
  have joined : rename.text text = joinLines ((lines text).map rename.text) := by
    rw [joinLines_map_text, joinLines_lines]
  rw [joined]
  refine lines_joinLines (rename.unbroken_map_text (unbroken_lines text)) ?_
  rw [Ne, List.map_eq_nil_iff]
  exact lines_ne_nil text

@[simp] theorem firstLine_text (text : Text) :
    firstLine (rename.text text) = rename.text (firstLine text) := by
  rw [firstLine, Renaming.text, List.takeWhile_map]
  refine congrArg (List.map rename.image) (congrArg (List.takeWhile · text) ?_)
  funext c
  exact congrArg not (rename.image_beq_of_white c (by decide))

@[simp] theorem takeBlanks_text (text : Text) :
    takeBlanks (rename.text text) = rename.text (takeBlanks text) := by
  rw [takeBlanks, Renaming.text, List.takeWhile_map, isBlank_comp_image]
  rfl

@[simp] theorem dropBlanks_text (text : Text) :
    dropBlanks (rename.text text) = rename.text (dropBlanks text) := by
  rw [dropBlanks, Renaming.text, List.dropWhile_map, isBlank_comp_image]
  rfl

@[simp] theorem dropReturn_text (text : Text) :
    dropReturn (rename.text text) = rename.text (dropReturn text) := by
  have last : (rename.text text).getLast? = some '\r' ↔ text.getLast? = some '\r' := by
    rw [Renaming.text, List.getLast?_map, Option.map_eq_some_iff]
    constructor
    · rintro ⟨c, ends, same⟩
      rwa [(rename.image_eq_iff (by decide)).mp same] at ends
    · intro ends
      exact ⟨'\r', ends, rename.fixes '\r' (by decide)⟩
  rw [dropReturn, dropReturn, if_congr last rfl rfl]
  split
  · exact List.map_dropLast.symm
  · rfl

/-! ### Searching -/

@[simp] theorem after?_text (marker text : Text) :
    after? (rename.text marker) (rename.text text) = (after? marker text).map rename.text := by
  induction marker generalizing text with
  | nil => rfl
  | cons m marker ih =>
      cases text with
      | nil => rfl
      | cons c text =>
          rw [text_cons, text_cons, after?_cons_cons, after?_cons_cons, ih,
            if_congr rename.injective.eq_iff rfl rfl, apply_ite (Option.map rename.text),
            Option.map_none]

@[simp] theorem opensWith_text (marker text : Text) :
    opensWith (rename.text marker) (rename.text text) = opensWith marker text := by
  rw [opensWith, after?_text, Option.isSome_map]
  rfl

@[simp] theorem cut?_text (marker text : Text) :
    cut? (rename.text marker) (rename.text text) =
      (cut? marker text).map (Prod.map rename.text rename.text) := by
  induction text with
  | nil =>
      cases marker with
      | nil => rfl
      | cons m marker => rfl
  | cons c text ih =>
      have opens := rename.after?_text marker (c :: text)
      cases attempt : after? marker (c :: text) with
      | some rest =>
          rw [attempt, Option.map_some] at opens
          rw [cut?_of_after?_eq_some opens, cut?_of_after?_eq_some attempt]
          rfl
      | none =>
          rw [attempt, Option.map_none, text_cons] at opens
          rw [cut?_cons_of_after?_eq_none attempt, text_cons, cut?_cons_of_after?_eq_none opens, ih,
            Option.map_map, Option.map_map]
          rfl

/-! ### Indentation -/

@[simp] theorem isEmptyLine_text (line : Text) :
    isEmptyLine (rename.text line) = isEmptyLine line := by
  rw [isEmptyLine, Renaming.text, List.all_map, isWhiteSpace_comp_image]
  rfl

@[simp] theorem trim_text (text : Text) : trim (rename.text text) = rename.text (trim text) := by
  have dropped (text : Text) : (rename.text text).dropWhile isWhiteSpace =
      rename.text (text.dropWhile isWhiteSpace) := by
    rw [Renaming.text, List.dropWhile_map, isWhiteSpace_comp_image]
    rfl
  rw [trim, dropped, reverse_text, dropped, reverse_text]
  rfl

@[simp] theorem indentWidth_text (line : Text) :
    indentWidth (rename.text line) = indentWidth line := by
  rw [indentWidth, takeBlanks_text, length_text]
  rfl

theorem commonIndent_map_text (parts : List Text) :
    commonIndent (parts.map rename.text) = commonIndent parts := by
  have shown : (!isEmptyLine ·) ∘ rename.text = (!isEmptyLine ·) := by
    funext line
    exact congrArg not (rename.isEmptyLine_text line)
  have widths : indentWidth ∘ rename.text = indentWidth := funext rename.indentWidth_text
  rw [commonIndent, List.filter_map, shown, List.map_map, widths]
  rfl

theorem outdent_text (width : Nat) (line : Text) :
    outdent width (rename.text line) = rename.text (outdent width line) := by
  rw [outdent, outdent, indentWidth_text, drop_text]
  split
  · rfl
  · rfl

@[simp] theorem dedentLines_map_text (parts : List Text) :
    dedentLines (parts.map rename.text) = (dedentLines parts).map rename.text := by
  rw [dedentLines, commonIndent_map_text, List.map_map, dedentLines, List.map_map]
  exact List.map_congr_left fun line _ => rename.outdent_text _ line

end Renaming

end DocComments
