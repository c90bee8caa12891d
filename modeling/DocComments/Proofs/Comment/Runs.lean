import DocComments.Proofs.Comment.Coverage
import DocComments.Proofs.Comment.Delimiters
import DocComments.Proofs.Text.Indent

/-!
# What the lines of a run say

The text of a run stands in the source, line by line, behind the marker of documentation lines
(`RunTexts`). Which of these texts are shown depends on the first and the last of them (`RunShows`),
and those that are shown lose the indentation they have in common. `extract_run_exact` says that the
extractor returns exactly these lines.

A marker that opens with a blank is never found behind the blanks of a line, and then a run can be
empty. The statements about texts are therefore made for markers that are `Visible`.
-/

namespace DocComments

open Text Markers

variable {markers : Markers} {offset : Nat} {row : Text} {covered below : List Text}
  {found : Match}

/-! ### The texts of a run -/

/-- A line starts with the marker of documentation lines, and `text` is what stands behind it. -/
def Markers.Marks (markers : Markers) (line text : Text) : Prop :=
  line.dropBlanks = markers.lineDoc ++ text

/-- What a run on the line `row` and the lines `covered` says: what stands behind the first marker
on `row`, and behind the marker on each of the other lines, without one carriage return at its
end. -/
def RunTexts (markers : Markers) (row : Text) (covered texts : List Text) : Prop :=
  ∃ code first rest, texts = (first :: rest).map dropReturn ∧
    row.dropBlanks = code ++ markers.lineDoc ++ first ∧
    (∀ place < code.length, ¬ markers.lineDoc <+: row.dropBlanks.drop place) ∧
    List.Forall₂ markers.Marks covered rest

/-- No blank is dropped in front of a text that opens with the marker of documentation lines. -/
def Markers.Visible (markers : Markers) : Prop :=
  ∀ text, dropBlanks (markers.lineDoc ++ text) = markers.lineDoc ++ text

theorem Delimiters.visible_markers {delimiters : Delimiters}
    (visible : ∀ c ∈ delimiters.line.toList.head?, isBlank c = false) :
    delimiters.markers.Visible := by
  intro text
  have style : ∃ c rest, Delimiters.orUsual delimiters.line "//" = c :: rest ∧
      isBlank c = false := by
    unfold Delimiters.orUsual
    by_cases usual : delimiters.line.isEmpty = true
    · rw [if_pos usual]
      exact ⟨'/', ['/'], rfl, rfl⟩
    · rw [if_neg usual]
      rw [String.isEmpty_iff, ← String.toList_eq_nil_iff] at usual
      obtain ⟨c, rest, given⟩ := List.exists_cons_of_ne_nil usual
      rw [given] at visible
      exact ⟨c, rest, given, visible c rfl⟩
  obtain ⟨c, rest, given, shown⟩ := style
  have opens : ∃ front, delimiters.markers.lineDoc = c :: front := by
    refine ⟨rest ++ [(c :: rest).getLastD '/'], ?_⟩
    rw [← List.cons_append, ← given]
    rfl
  obtain ⟨front, opens⟩ := opens
  rw [opens, List.cons_append, dropBlanks, List.dropWhile_cons_of_neg]
  rw [shown]
  exact Bool.false_ne_true

theorem runText?_eq_some {line text : Text} (opens : markers.Marks line text) :
    markers.runText? line = some text.dropReturn := by
  rw [runText?, after?_eq_some_iff.mpr opens, Option.map_some]

theorem exists_filterMap_runText? {lines : List Text}
    (joins : ∀ line ∈ lines, markers.lineDoc <+: line.dropBlanks) :
    ∃ texts, List.Forall₂ markers.Marks lines texts ∧
      lines.filterMap markers.runText? = texts.map dropReturn := by
  induction lines with
  | nil => exact ⟨[], .nil, rfl⟩
  | cons line lines ih =>
      obtain ⟨⟨text, opens⟩, others⟩ := List.forall_mem_cons.mp joins
      obtain ⟨texts, behind, same⟩ := ih others
      refine ⟨text :: texts, .cons opens.symm behind, ?_⟩
      rw [List.filterMap_cons_some (runText?_eq_some opens.symm), same, List.map_cons]

/-- A run that starts with its marker has a text for each line that it covers. -/
theorem exists_texts_runAt {first : Text} (visible : markers.Visible)
    (whole : Unbroken ((markers.lineDoc ++ first) :: (covered ++ below)))
    (covers : covered.length =
      (markers.runAt offset (markers.lineDoc ++ first ++ lineTail (covered ++ below))).raw.breaks) :
    ∃ rest, List.Forall₂ markers.Marks covered rest ∧
      (markers.runAt offset (markers.lineDoc ++ first ++ lineTail (covered ++ below))).shape =
        .run ((first :: rest).map dropReturn) := by
  have opens : markers.lineDoc <+: dropBlanks (markers.lineDoc ++ first) := by
    rw [visible first]
    exact List.prefix_append _ _
  rw [breaks_raw_runAt offset (List.prefix_append _ _) whole] at covers
  -- The range has as many further lines as the run takes, so that these are the same lines.
  have taken : (covered ++ below).takeWhile markers.continues = covered :=
    (List.append_inj List.takeWhile_append_dropWhile covers.symm).1
  have joins : ∀ line ∈ covered, markers.lineDoc <+: line.dropBlanks := by
    intro line member
    rw [← taken] at member
    exact continues_iff.mp (List.mem_takeWhile_imp member)
  obtain ⟨rest, behind, same⟩ := exists_filterMap_runText? joins
  refine ⟨rest, behind, ?_⟩
  rw [runAt_of_isPrefix offset opens whole, taken,
    List.filterMap_cons_some (runText?_eq_some (visible first)), same, List.map_cons]

theorem Markers.Opening.exists_runTexts
    (opening : Opening markers offset row (covered ++ below) found) (visible : markers.Visible)
    (whole : Unbroken (row :: (covered ++ below))) (covers : covered.length = found.raw.breaks)
    (run : ¬ markers.blockOpen <+: row.dropBlanks ∨ markers.lineDoc <+: row.dropBlanks) :
    ∃ texts, RunTexts markers row covered texts ∧ found.shape = .run texts := by
  obtain ⟨rowWhole, laterWhole⟩ := unbroken_cons.mp whole
  have codeWhole : '\n' ∉ row.dropBlanks := fun member =>
    rowWhole ((List.dropWhile_sublist isBlank).mem member)
  cases opening with
  | marked opens =>
      obtain ⟨first, opened⟩ := opens
      rw [← opened] at codeWhole covers ⊢
      obtain ⟨rest, behind, shape⟩ :=
        exists_texts_runAt visible (unbroken_cons.mpr ⟨codeWhole, laterWhole⟩) covers
      exact ⟨_, ⟨[], first, rest, rfl, opened.symm, fun _ inside => absurd inside (by simp), behind⟩,
        shape⟩
  | block unmarked opens closes =>
      exact run.elim (fun unopened => absurd ⟨_, opens.symm⟩ unopened)
        (fun marked => absurd marked unmarked)
  | behind unmarked unopened occurs =>
      rename_i code first
      -- The run is read from the marker on, which is then the first thing on its line.
      obtain ⟨split, earliest⟩ := cut?_eq_some_iff.mp occurs
      have markedWhole : '\n' ∉ markers.lineDoc ++ first := by
        rw [split, List.append_assoc] at codeWhole
        exact fun member => codeWhole (List.mem_append_right _ member)
      obtain ⟨rest, behind, shape⟩ :=
        exists_texts_runAt visible (unbroken_cons.mpr ⟨markedWhole, laterWhole⟩) covers
      exact ⟨_, ⟨code, first, rest, rfl, split, earliest, behind⟩, shape⟩

/-- No line ends inside a text, which is the end of what its line has behind the blanks. -/
theorem unbroken_dropReturn {line front text : Text} (whole : '\n' ∉ line)
    (opened : line.dropBlanks = front ++ text) : '\n' ∉ text.dropReturn := by
  intro member
  apply whole
  apply (List.dropWhile_sublist isBlank).mem
  show '\n' ∈ line.dropBlanks
  rw [opened]
  apply List.mem_append_right
  unfold dropReturn at member
  split at member
  · exact (List.dropLast_prefix text).subset member
  · exact member

theorem RunTexts.unbroken {texts : List Text} (decoded : RunTexts markers row covered texts)
    (whole : Unbroken (row :: (covered ++ below))) : Unbroken texts := by
  obtain ⟨code, first, rest, rfl, split, -, behind⟩ := decoded
  obtain ⟨rowWhole, laterWhole⟩ := unbroken_cons.mp whole
  have coveredWhole := (unbroken_append.mp laterWhole).1
  rw [List.map_cons, unbroken_cons]
  refine ⟨unbroken_dropReturn rowWhole split, ?_⟩
  clear whole laterWhole
  induction behind with
  | nil => exact fun _ member => absurd member List.not_mem_nil
  | cons opened _ ih =>
      rw [unbroken_cons] at coveredWhole
      rw [List.map_cons, unbroken_cons]
      exact ⟨unbroken_dropReturn coveredWhole.1 opened, ih coveredWhole.2⟩

/-! ### The texts that are shown -/

/-- A text shows the given character, at least once, and no other. -/
def ShowsOnly (c : Char) (text : Text) : Prop := text.trim ≠ [] ∧ ∀ d ∈ text.trim, d = c

/-- Which texts of a run are shown, and the role that the comment has. -/
inductive RunShows (lineChar : Char) : (texts : List Text) → Role → (shown : List Text) → Prop
  /-- The first text does not repeat the marker character. -/
  | normal {first : Text} {rest : List Text} (plain : ¬ [lineChar] <+: first) :
      RunShows lineChar (first :: rest) .normal (first :: rest)
  /-- The first text repeats the marker character, and the last one says something. -/
  | poster {first : Text} {rest : List Text} (repeats : [lineChar] <+: first)
      (unclosed : ∀ last ∈ rest.getLast?, ¬ ShowsOnly lineChar last) :
      RunShows lineChar (first :: rest) .poster rest
  /-- The first text repeats the marker character, and another one closes the poster. -/
  | closed {first last : Text} {inner : List Text} (repeats : [lineChar] <+: first)
      (closes : ShowsOnly lineChar last) :
      RunShows lineChar (first :: (inner ++ [last])) .poster inner

theorem RunShows.sublist {lineChar : Char} {role : Role} {texts shown : List Text}
    (shows : RunShows lineChar texts role shown) : shown.Sublist texts := by
  cases shows with
  | normal plain => exact List.Sublist.refl _
  | poster repeats unclosed => exact List.sublist_cons_self _ _
  | closed repeats closes => exact List.Sublist.cons _ (List.sublist_append_left _ _)

namespace Shape

theorem isMarkerLine_iff {c : Char} {text : Text} :
    isMarkerLine c text = true ↔ ShowsOnly c text := by
  simp [isMarkerLine, ShowsOnly]

theorem opensPoster_cons_iff {c : Char} {first : Text} {rest : List Text} :
    opensPoster c (first :: rest) = true ↔ [c] <+: first := by
  cases first with
  | nil => simp [opensPoster]
  | cons d first => simp [opensPoster, eq_comm]

theorem posterTexts_cons_concat {c : Char} (first : Text) {inner : List Text} {last : Text}
    (closes : ShowsOnly c last) : posterTexts c (first :: (inner ++ [last])) = inner := by
  simp [posterTexts, isMarkerLine_iff.mpr closes]

theorem posterTexts_cons {c : Char} (first : Text) {rest : List Text}
    (unclosed : ∀ last ∈ rest.getLast?, ¬ ShowsOnly c last) : posterTexts c (first :: rest) = rest := by
  rw [posterTexts, if_neg]
  · rfl
  · rw [Option.any_eq_true]
    rintro ⟨last, final, closes⟩
    exact unclosed last final (isMarkerLine_iff.mp closes)

theorem runShows (markers : Markers) (first : Text) (rest : List Text) :
    RunShows markers.lineChar (first :: rest) (role markers (.run (first :: rest)))
      (runTexts markers.lineChar (first :: rest)) := by
  by_cases repeats : [markers.lineChar] <+: first
  · have poster : opensPoster markers.lineChar (first :: rest) = true :=
      opensPoster_cons_iff.mpr repeats
    rw [role, runTexts, if_pos poster, if_pos poster]
    by_cases unclosed : ∀ last ∈ rest.getLast?, ¬ ShowsOnly markers.lineChar last
    · rw [posterTexts_cons first unclosed]
      exact .poster repeats unclosed
    · push Not at unclosed
      obtain ⟨last, final, closes⟩ := unclosed
      obtain ⟨inner, rfl⟩ := List.getLast?_eq_some_iff.mp final
      rw [posterTexts_cons_concat first closes]
      exact .closed repeats closes
  · have plain : ¬ opensPoster markers.lineChar (first :: rest) = true := fun poster =>
      repeats (opensPoster_cons_iff.mp poster)
    rw [role, runTexts, if_neg plain, if_neg plain]
    exact .normal repeats

theorem lines_run_of_eq_nil {texts : List Text} (none : runTexts markers.lineChar texts = []) :
    lines markers (.run texts) = [[]] := by
  rw [lines, none]

theorem lines_run_of_ne_nil {texts : List Text}
    (inhabited : runTexts markers.lineChar texts ≠ []) :
    lines markers (.run texts) = dedentLines (runTexts markers.lineChar texts) := by
  rw [lines]
  split
  next none => exact absurd none inhabited
  next => rfl

/-- The shown texts of a run may as well be joined, dedented as one text and split again. -/
theorem lines_run_eq_lines_dedent {texts : List Text}
    (whole : Unbroken (runTexts markers.lineChar texts)) :
    lines markers (.run texts) =
      Text.lines (Text.dedent (joinLines (runTexts markers.lineChar texts))) := by
  by_cases none : runTexts markers.lineChar texts = []
  · rw [lines_run_of_eq_nil none, none]
    rfl
  · rw [lines_run_of_ne_nil none, lines_dedent_joinLines whole none]

end Shape

/-! ### Comments of runs -/

/-- The comment of a run says what its lines say, with the indentation they have in common taken off,
and nothing is lost or broken when its texts are joined and split again. -/
theorem extract_run_exact (resolver : Resolver) (delimiters : Delimiters) (source : String)
    (visible : ∀ c ∈ delimiters.line.toList.head?, isBlank c = false) :
    let markers := delimiters.markers
    ∀ comment ∈ (Extractor.ofDelimiters resolver delimiters).extract source,
      ∃ above row covered below,
        Text.lines source.toList = above ++ row :: (covered ++ below) ∧
        comment.range = ⟨above.length + 1, above.length + 1 + covered.length⟩ ∧
        (¬ markers.blockOpen <+: row.dropBlanks ∨ markers.lineDoc <+: row.dropBlanks →
          ∃ texts shown, RunTexts markers row covered texts ∧
            RunShows markers.lineChar texts comment.role shown ∧
            (shown = [] → comment.lines = [""]) ∧
            (shown ≠ [] → Dedented shown (comment.lines.map String.toList)) ∧
            comment.lines = (Text.lines (Text.dedent (joinLines shown))).map String.ofList) := by
  intro markers comment member
  obtain ⟨above, row, covered, below, found, split, whole, opening, covers, rfl⟩ :=
    Extractor.exists_opening member
  refine ⟨above, row, covered, below, split, rfl, ?_⟩
  intro run
  obtain ⟨texts, decoded, shape⟩ :=
    opening.exists_runTexts (delimiters.visible_markers visible) whole covers run
  have shows : RunShows markers.lineChar texts (found.shape.role markers)
      (Shape.runTexts markers.lineChar texts) := by
    obtain ⟨code, first, rest, rfl, -⟩ := decoded
    rw [shape]
    exact Shape.runShows markers _ _
  refine ⟨texts, Shape.runTexts markers.lineChar texts, decoded, shows, ?_, ?_, ?_⟩
  · intro none
    show (found.shape.lines markers).map String.ofList = [""]
    rw [shape, Shape.lines_run_of_eq_nil none]
    rfl
  · intro inhabited
    show Dedented _ (((found.shape.lines markers).map String.ofList).map String.toList)
    have restored : String.toList ∘ String.ofList = id := funext fun _ => String.toList_ofList
    rw [List.map_map, restored, List.map_id, shape, Shape.lines_run_of_ne_nil inhabited]
    exact dedented_dedentLines _
  · show (found.shape.lines markers).map String.ofList = _
    have textsWhole := decoded.unbroken whole
    rw [shape, Shape.lines_run_eq_lines_dedent]
    exact fun text shown => textsWhole text (shows.sublist.mem shown)

theorem extract_run_exact_poster :
    ∃ texts shown,
      RunTexts ({} : Delimiters).markers "a; ////".toList
        ["\t///  b\r".toList, "///    c".toList, "/// //".toList] texts ∧
      RunShows '/' texts .poster shown ∧ Dedented shown ["b".toList, "  c".toList] := by
  let source := "a; ////\n\t///  b\r\n///    c\n/// //\nd"
  obtain ⟨comment, member, range, role, lines⟩ :
      ∃ comment ∈ (Extractor.ofDelimiters (fun _ _ => {}) {}).extract source,
        comment.range = ⟨1, 4⟩ ∧ comment.role = .poster ∧ comment.lines = ["b", "  c"] := by
    decide +kernel
  have visible : ∀ c ∈ ({} : Delimiters).line.toList.head?, isBlank c = false := by
    intro c first
    obtain rfl := Option.some.inj (show some '/' = some c from first)
    rfl
  obtain ⟨above, row, covered, below, split, placed, run⟩ :=
    extract_run_exact (fun _ _ => {}) {} source visible comment member
  rw [range, LineRange.mk.injEq] at placed
  obtain rfl := List.length_eq_zero_iff.mp (show above.length = 0 by omega)
  have rows : Text.lines source.toList = ("a; ////".toList :: ["\t///  b\r".toList,
      "///    c".toList, "/// //".toList]) ++ ["d".toList] := by
    decide +kernel
  rw [rows, List.nil_append, List.cons_append, List.cons.injEq] at split
  obtain ⟨rfl, later⟩ := split
  obtain ⟨rfl, -⟩ := List.append_inj later (show _ = covered.length by simp; omega)
  obtain ⟨texts, shown, decoded, shows, alone, dedented, -⟩ := run (Or.inl (by decide +kernel))
  rw [role] at shows
  rw [lines] at alone dedented
  refine ⟨texts, shown, decoded, shows, dedented ?_⟩
  intro none
  exact absurd (alone none) (by decide)

end DocComments
