import DocComments.Documenter
import DocComments.Proofs.Comment.Blocks
import DocComments.Proofs.Comment.Runs
import DocComments.Proofs.Tag.Warnings

/-!
# Descriptions

The description of a comment is made of its lines that are no tag lines, each with a line break
behind it (`description_ownEntry`). No line of an extracted comment has a line break inside
(`unbroken_of_mem_extract`), so that the lines can be told from the description, and read once more
they are the same description and nothing else: `document_descriptions`. What is inherited or
computed goes to the fields of an entry and not to its description.
-/

namespace DocComments

open Text

/-! ### The lines of a comment -/

namespace Shape

variable {markers : Markers}

/-- A comment has a line, whatever stands between its marks. -/
theorem lines_ne_nil (markers : Markers) (shape : Shape) : shape.lines markers ≠ [] := by
  have inhabited {parts : List Text} (some : parts ≠ []) : dedentLines parts ≠ [] := by
    rw [dedentLines, ne_eq, List.map_eq_nil_iff]
    exact some
  cases shape with
  | run texts =>
      by_cases none : runTexts markers.lineChar texts = []
      · rw [lines_run_of_eq_nil none]
        exact List.cons_ne_nil _ _
      · rw [lines_run_of_ne_nil none]
        exact inhabited none
  | block body extra =>
      apply inhabited
      rw [blockTexts, ne_eq, List.map_eq_nil_iff]
      exact Text.lines_ne_nil _

theorem runTexts_sublist (markers : Markers) (texts : List Text) :
    (runTexts markers.lineChar texts).Sublist texts := by
  cases texts with
  | nil => exact List.Sublist.refl []
  | cons first rest => exact (runShows markers first rest).sublist

theorem unbroken_lines_run {texts : List Text} (whole : Unbroken texts) :
    Unbroken (lines markers (.run texts)) := by
  by_cases none : runTexts markers.lineChar texts = []
  · rw [lines_run_of_eq_nil none, unbroken_cons]
    exact ⟨List.not_mem_nil, fun _ member => absurd member List.not_mem_nil⟩
  · rw [lines_run_of_ne_nil none]
    apply unbroken_dedentLines
    exact fun text shown => whole text ((runTexts_sublist markers texts).mem shown)

end Shape

namespace Markers

variable {markers : Markers}

theorem unbroken_lines_runAt (offset : Nat) (text : Text) :
    Unbroken ((markers.runAt offset text).shape.lines markers) := by
  apply Shape.unbroken_lines_run
  intro content member
  obtain ⟨line, taken, marked⟩ := List.mem_filterMap.mp member
  obtain ⟨rest, opened, rfl⟩ := Option.map_eq_some_iff.mp marked
  have whole := unbroken_lines text line ((List.takeWhile_sublist _).mem taken)
  exact unbroken_dropReturn whole (after?_eq_some_iff.mp opened)

theorem Opening.unbroken_lines {offset : Nat} {row : Text} {later : List Text} {found : Match}
    (opening : Opening markers offset row later found) :
    Unbroken (found.shape.lines markers) := by
  cases opening with
  | marked opens => exact unbroken_lines_runAt _ _
  | block unmarked opens closes => exact unbroken_dedentLines (unbroken_blockTexts _ _)
  | behind unmarked unopened occurs => exact unbroken_lines_runAt _ _

end Markers

namespace Extractor

variable {extractor : Extractor} {source : String} {comment : Comment}

theorem lines_ne_nil_of_mem_extract (member : comment ∈ extractor.extract source) :
    comment.lines ≠ [] := by
  obtain ⟨_, _, _, _, found, -, -, -, -, rfl⟩ := exists_opening member
  show (found.shape.lines extractor.markers).map String.ofList ≠ []
  rw [ne_eq, List.map_eq_nil_iff]
  exact Shape.lines_ne_nil extractor.markers found.shape

theorem unbroken_of_mem_extract (member : comment ∈ extractor.extract source) :
    ∀ line ∈ comment.lines, '\n' ∉ line.toList := by
  obtain ⟨_, _, _, _, found, -, -, opening, -, rfl⟩ := exists_opening member
  intro line present
  obtain ⟨text, shown, rfl⟩ := List.mem_map.mp present
  rw [String.toList_ofList]
  exact opening.unbroken_lines text shown

end Extractor

/-! ### The description that lines make -/

/-- The lines of a comment that are no tag lines. -/
def Comment.textLines (comment : Comment) : List String :=
  comment.lines.filter fun line => !TagLine.opens line.toList

/-- Lines with a line break behind each of them. -/
def describeLines (lines : List String) : String := String.join (lines.map (· ++ "\n"))

theorem describeLines_cons (line : String) (lines : List String) :
    describeLines (line :: lines) = line ++ "\n" ++ describeLines lines := by
  rw [describeLines, List.map_cons, String.join_cons, describeLines]

/-- A description that was made of lines without line breaks gives them back. -/
theorem lines_describeLines {lines : List String} (whole : ∀ line ∈ lines, '\n' ∉ line.toList) :
    Text.lines (describeLines lines).toList = lines.map String.toList ++ [[]] := by
  have described : (describeLines lines).toList = lineHead (lines.map String.toList) := by
    simp [describeLines, lineHead, String.toList_join, List.flatMap_map]
  have joined := lineHead_append_joinLines (lines.map String.toList) (List.cons_ne_nil [] [])
  rw [joinLines_cons, lineTail_nil, List.append_nil, List.append_nil] at joined
  rw [described, ← joined]
  apply lines_joinLines
  · intro row member
    rcases List.mem_append.mp member with inside | last
    · obtain ⟨line, present, rfl⟩ := List.mem_map.mp inside
      exact whole line present
    · rw [List.mem_singleton.mp last]
      exact List.not_mem_nil
  · exact List.append_ne_nil_of_right_ne_nil _ (List.cons_ne_nil _ _)

namespace Entry

variable {registry : Registry} {role : Role}

theorem description_applyLine_of_ne_text (entry : Entry) (line : String) {reading : LineReading}
    (tagged : reading ≠ .text) :
    (entry.applyLine line reading).1.description = entry.description := by
  cases reading with
  | text => exact absurd rfl tagged
  | unknown name => rfl
  | notAllowed name => rfl
  | value name content repeatable read =>
      cases read with
      | none => rfl
      | some value =>
          rcases store?_cases entry name repeatable value with ⟨field, stored⟩ | ⟨refused, -⟩
          · simp only [applyLine, stored]
            rfl
          · simp only [applyLine, refused]

/-- A tag line leaves the description as it is, and any other line is added to it. -/
theorem description_applyLine (entry : Entry) (kind line : String) :
    (entry.applyLine line (registry.readLine role kind line)).1.description =
      entry.description ++ if TagLine.opens line.toList then "" else line ++ "\n" := by
  rw [← TagLine.isSome_read?]
  cases splits : TagLine.read? line with
  | none =>
      rw [(Registry.Reads.text splits).readLine_eq]
      exact String.append_assoc
  | some tag =>
      rw [description_applyLine_of_ne_text entry line (Registry.readLine_ne_text splits role kind)]
      exact String.append_empty.symm

theorem description_readLines (entry : Entry) (lines : List String) :
    (entry.readLines registry role lines).1.description =
      entry.description ++ describeLines (lines.filter fun line => !TagLine.opens line.toList) := by
  induction lines generalizing entry with
  | nil => simp [readLines, describeLines]
  | cons line lines ih =>
      rw [readLines_cons, ih, description_applyLine]
      cases opened : TagLine.opens line.toList with
      | true => simp [opened]
      | false => simp [opened, describeLines_cons, String.append_assoc]

/-- Lines of which none is a tag line are taken in without an event, and set no field. -/
theorem readLines_of_not_opens (entry : Entry) {lines : List String}
    (plain : ∀ line ∈ lines, TagLine.opens line.toList = false) :
    entry.readLines registry role lines =
      ({ entry with description := entry.description ++ describeLines lines }, []) := by
  induction lines generalizing entry with
  | nil => simp [readLines, describeLines]
  | cons line lines ih =>
      obtain ⟨here, later⟩ := List.forall_mem_cons.mp plain
      rw [← TagLine.isSome_read?, Option.isSome_eq_false_iff, Option.isNone_iff_eq_none] at here
      rw [readLines, (Registry.Reads.text here).readLine_eq]
      simp only [applyLine, ih _ later, addLine, describeLines_cons, String.append_assoc,
        List.nil_append]

end Entry

theorem Registry.description_ownEntry (registry : Registry) (comment : Comment) :
    (registry.ownEntry comment).1.description = describeLines comment.textLines := by
  rw [ownEntry, Entry.description_readLines]
  exact String.empty_append

/-- A comment made of the lines of a description has this description, and nothing happens while it
is read. -/
theorem Registry.ownEntry_of_lines_eq (registry : Registry) {comment again : Comment}
    (same : again.lines = comment.textLines) :
    registry.ownEntry again =
      ({ Entry.ofComment again with
          description := (registry.ownEntry comment).1.description }, []) := by
  have plain : ∀ line ∈ again.lines, TagLine.opens line.toList = false := by
    intro line present
    rw [same] at present
    simpa using List.of_mem_filter present
  have start : (Entry.ofComment again).description = "" := rfl
  rw [ownEntry, Entry.readLines_of_not_opens _ plain, start, String.empty_append, same,
    description_ownEntry]

/-! ### The description of an entry -/

/-- What is inherited or computed does not change a description. -/
theorem TagReader.description_finish (reader : TagReader) (poster : Option Entry) (own : Entry) :
    (reader.finish poster own).1.description = own.description := by
  obtain ⟨table, inherits, -⟩ := own.exists_inheriting_eq reader.registry poster
  obtain ⟨completed, same⟩ := (own.inheriting reader.registry poster).exists_complete_eq
    reader.autofill reader.registry.rules.entries
  rw [finish_eq, same, inherits]

namespace Documenter

/-- An extracted comment has a line, and no line break inside a line. Its description is made of its
lines that are no tag lines, which can be told from it, and a comment made of these lines has the
same description, no warnings and no fields of its own. Nothing that happens to an entry later
changes the description. -/
theorem document_descriptions (documenter : Documenter) (source : String) :
    let reader := documenter.reader
    (∀ comment ∈ documenter.extract source,
      let description := (reader.registry.ownEntry comment).1.description
      comment.lines ≠ [] ∧ (∀ line ∈ comment.lines, '\n' ∉ line.toList) ∧
      description = describeLines comment.textLines ∧
      (Text.lines description.toList).map String.ofList = comment.textLines ++ [""] ∧
      ∀ again : Comment, again.lines = comment.textLines →
        reader.registry.ownEntry again = ({ Entry.ofComment again with description }, []) ∧
        (reader.read [again]).warnings = []) ∧
    (∀ poster own, (reader.finish poster own).1.description = own.description) ∧
    ∀ (comments : List Comment) (index : Nat) (comment : Comment),
      comments[index]? = some comment → comment.role = .normal →
      ∃ entry, reader.entryFor? comments index = some entry ∧
        entry.description = (reader.registry.ownEntry comment).1.description := by
  intro reader
  refine ⟨?_, reader.description_finish, ?_⟩
  · intro comment member description
    have whole := Extractor.unbroken_of_mem_extract member
    have described : description = describeLines comment.textLines :=
      reader.registry.description_ownEntry comment
    have textWhole : ∀ line ∈ comment.textLines, '\n' ∉ line.toList := fun line present =>
      whole line (List.mem_of_mem_filter present)
    refine ⟨Extractor.lines_ne_nil_of_mem_extract member, whole, described, ?_, ?_⟩
    · have restored : String.ofList ∘ String.toList = id := funext fun _ => String.ofList_toList
      rw [described, lines_describeLines textWhole, List.map_append, List.map_map, restored,
        List.map_id]
      rfl
    · intro again same
      have own := reader.registry.ownEntry_of_lines_eq same
      refine ⟨own, ?_⟩
      rw [TagReader.warnings_read_single, own]
      rfl
  · intro comments index comment present normal
    exact ⟨_, TagReader.entryFor?_eq_entryOf present normal, reader.description_finish _ _⟩

/-- An indented tag line belongs to the description, and so does an empty line. -/
theorem document_descriptions_indented :
    let see : TagRule :=
      { parse := some fun content => some (.string content)
        autofill := some fun entry => some (.scalar (.string entry.description)) }
    let documenter : Documenter :=
      ⟨.ofDelimiters (fun _ _ => {}) {}, .new { rules := .ofList [("see", see)] } (.all true)⟩
    let reader := documenter.reader
    let source := "/**\n * a\n * @see x\n *  @see y\n *\n */"
    let again : Comment := { lines := ["a", " @see y", ""], context := {} }
    ∃ comment ∈ documenter.extract source,
      comment.lines = ["a", "@see x", " @see y", ""] ∧
      (Text.lines (reader.registry.ownEntry comment).1.description.toList).map String.ofList =
        ["a", " @see y", "", ""] ∧
      (reader.registry.ownEntry again).1.description = "a\n @see y\n\n" ∧
      (reader.read [again]).warnings = [] ∧
      ∃ entry, reader.entryFor? (documenter.extract source) 0 = some entry ∧
        entry.description = "a\n @see y\n\n" := by
  intro see documenter reader source again
  have first : (documenter.extract source)[0]?.map (fun comment => (comment.lines, comment.role)) =
      some (["a", "@see x", " @see y", ""], .normal) := by
    decide +kernel
  obtain ⟨comment, present, shown⟩ := Option.map_eq_some_iff.mp first
  obtain ⟨lines, role⟩ := Prod.mk.inj shown
  have texts : comment.textLines = ["a", " @see y", ""] := by
    rw [Comment.textLines, lines]
    decide +kernel
  have text : describeLines ["a", " @see y", ""] = "a\n @see y\n\n" := by decide +kernel
  obtain ⟨extracted, -, entries⟩ := documenter.document_descriptions source
  obtain ⟨-, -, described, split, reread⟩ := extracted comment (List.mem_of_getElem? present)
  obtain ⟨own, warnings⟩ := reread again texts.symm
  obtain ⟨entry, found, same⟩ := entries _ 0 comment present role
  rw [texts] at described split
  refine ⟨comment, List.mem_of_getElem? present, lines, split, ?_, warnings, entry, found, ?_⟩
  · rw [own, described, text]
  · rw [same, described, text]

end Documenter

end DocComments
