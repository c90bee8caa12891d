import DocComments.Proofs.Comment.Decoding
import DocComments.Proofs.Comment.Extraction
import DocComments.Proofs.Text.Indent

/-!
# Writing comments

A document is a list of lines of code and of comments that are still to be written. `render` writes
it with the usual delimiters, and with any blanks in front of the lines of a comment. The main
statement is `extract_render`: extraction gives back the comments that were written, their roles,
their texts and the lines they were written on, and nothing else.

A `Record` and a `CodeLine` carry what makes them writable: no text of a record ends a line or closes
the block it stands in, and no line of code looks like a comment. Since a run goes on over all marked
lines, two comments must not be neighbours (`Separated`).
-/

namespace DocComments

open Text Markers

/-- How a comment is written. -/
inductive Style where
  | block
  | line
deriving DecidableEq, Repr

/-- A comment that is to be written. -/
structure Record where
  style : Style
  role : Role
  texts : List Text
  unbroken : ∀ text ∈ texts, '\n' ∉ text ∧ '\r' ∉ text
  /-- A block must not be closed by what it says. -/
  unclosed : style = .block → ∀ text ∈ texts, ¬ ['*', '/'] <:+: text
  /-- Some text shows something and stands at the margin. -/
  flush : ∃ text ∈ texts, isEmptyLine text = false ∧ indentWidth text = 0

/-- A line in which no comment opens. -/
structure CodeLine where
  text : Text
  unbroken : '\n' ∉ text
  unmarked : ¬ ['/', '/', '/'] <:+: text
  unopened : ¬ ['/', '*', '*'] <+: text.dropBlanks

/-- Spaces and tabs in front of a line. -/
structure Blanks where
  text : Text
  blank : ∀ c ∈ text, isBlank c = true

/-- A part of a document. The lines of a comment are indented one by one. -/
inductive Item where
  | code (line : CodeLine)
  | comment (record : Record) (indent : Nat → Blanks)

namespace Record

/-- What stands above and below the texts of a run. -/
def fence : Role → List Text
  | .normal => []
  | .poster => [['/', '/', '/', '/']]

/-- The line that closes a block. -/
def closer : Role → Text
  | .normal => ['*', '/']
  | .poster => ['*', '*', '/']

/-- The lines of a comment with their marks. -/
def rows (record : Record) : List Text :=
  match record.style with
  | .block => [['/', '*', '*']] ++ record.texts.map (['*', ' '] ++ ·) ++ [closer record.role]
  | .line =>
    fence record.role ++ record.texts.map (['/', '/', '/', ' '] ++ ·) ++ fence record.role

end Record

/-- Lines with blanks in front of them. -/
def indentRows (indent : Nat → Blanks) (rows : List Text) : List Text :=
  rows.mapIdx fun i row => (indent i).text ++ row

namespace Item

/-- The comment that an item is, if it is one. -/
def record? : Item → Option Record
  | .code _ => none
  | .comment record _ => some record

/-- The lines of an item. -/
def rows : Item → List Text
  | .code line => [line.text]
  | .comment record indent => indentRows indent record.rows

end Item

/-- A document in which every comment is the last item or has a line of code below it. -/
def Separated (items : List Item) : Prop :=
  items.IsChain fun upper lower => upper.record?.isSome → lower.record? = none

/-- A document as a source. -/
def render (items : List Item) : String := String.ofList (joinLines (items.flatMap Item.rows))

/-- The numbers of the first and the last line of every comment, with `above` lines above. -/
def commentRanges (above : Nat) : List Item → List LineRange
  | [] => []
  | .code _ :: items => commentRanges (above + 1) items
  | .comment record _ :: items =>
    ⟨above + 1, above + record.rows.length⟩ :: commentRanges (above + record.rows.length) items

/-! ### The usual markers -/

/-- The markers of the usual delimiters. -/
abbrev usual : Markers := Delimiters.markers {}

theorem usual_eq : usual =
    { blockOpen := ['/', '*', '*'], blockClose := ['*', '/'], blockChar := '*'
      lineDoc := ['/', '/', '/'], lineChar := '/' } := rfl

/-! ### Indented lines -/

theorem indentRows_cons (indent : Nat → Blanks) (row : Text) (rows : List Text) :
    indentRows indent (row :: rows) =
      ((indent 0).text ++ row) :: indentRows (fun i => indent (i + 1)) rows := by
  simp [indentRows, List.mapIdx_cons]

theorem exists_of_mem_indentRows {indent : Nat → Blanks} {rows : List Text} {line : Text}
    (member : line ∈ indentRows indent rows) :
    ∃ (blanks : Blanks) (row : Text), row ∈ rows ∧ line = blanks.text ++ row := by
  rw [indentRows, List.mem_mapIdx] at member
  obtain ⟨i, inside, rfl⟩ := member
  exact ⟨indent i, rows[i], List.getElem_mem inside, rfl⟩

theorem Blanks.not_mem (blanks : Blanks) {c : Char} (visible : isBlank c = false) :
    c ∉ blanks.text := by
  intro member
  rw [blanks.blank c member] at visible
  cases visible

theorem unbroken_indentRows (indent : Nat → Blanks) {rows : List Text} (whole : Unbroken rows) :
    Unbroken (indentRows indent rows) := by
  intro line member
  obtain ⟨blanks, row, present, rfl⟩ := exists_of_mem_indentRows member
  rw [List.mem_append, not_or]
  exact ⟨blanks.not_mem (by decide), whole row present⟩

/-! ### Runs -/

namespace Record

/-- What the lines of a fence say after their markers. -/
def bars : Role → List Text
  | .normal => []
  | .poster => [['/']]

/-- What the lines of a run say after their markers. -/
def contents (record : Record) : List Text :=
  bars record.role ++ record.texts.map (' ' :: ·) ++ bars record.role

theorem rows_of_line {record : Record} (style : record.style = .line) :
    record.rows = record.contents.map (['/', '/', '/'] ++ ·) := by
  rw [rows, style, contents]
  cases record.role <;> simp [fence, bars]

theorem texts_ne_nil (record : Record) : record.texts ≠ [] := by
  obtain ⟨text, member, -⟩ := record.flush
  exact List.ne_nil_of_mem member

theorem not_mem_contents (record : Record) :
    ∀ content ∈ record.contents, '\n' ∉ content ∧ '\r' ∉ content := by
  have clean : ∀ content ∈ bars record.role, '\n' ∉ content ∧ '\r' ∉ content := by
    cases record.role <;> decide
  intro content member
  rw [contents, List.mem_append, List.mem_append, List.mem_map] at member
  rcases member with (bar | ⟨text, present, rfl⟩) | bar
  · exact clean content bar
  · have unbroken := record.unbroken text present
    simp [unbroken]
  · exact clean content bar

theorem opensPoster_contents (record : Record) :
    Shape.opensPoster '/' record.contents = decide (record.role = .poster) := by
  obtain ⟨text, texts, same⟩ := List.exists_cons_of_ne_nil record.texts_ne_nil
  rw [contents, same]
  cases record.role <;> rfl

theorem role_run (record : Record) : (Shape.run record.contents).role usual = record.role := by
  rw [Shape.role, usual_eq, opensPoster_contents]
  cases record.role <;> rfl

theorem runTexts_contents (record : Record) :
    Shape.runTexts '/' record.contents = record.texts.map (' ' :: ·) := by
  rw [Shape.runTexts, opensPoster_contents, contents]
  cases record.role with
  | normal => simp [bars]
  | poster =>
      have bar : Shape.isMarkerLine '/' ['/'] = true := by decide
      simp [bars, Shape.posterTexts, bar]

theorem lines_run (record : Record) : (Shape.run record.contents).lines usual = record.texts := by
  have dedented := dedentLines_map_cons (c := ' ') (by decide) record.flush
  rw [Shape.lines, usual_eq, runTexts_contents]
  split
  next none => exact absurd (List.map_eq_nil_iff.mp none) record.texts_ne_nil
  next => exact dedented

end Record

theorem runText?_indented (blanks : Blanks) {content : Text} (clean : '\r' ∉ content) :
    usual.runText? (blanks.text ++ (['/', '/', '/'] ++ content)) = some content := by
  have opened : dropBlanks (['/', '/', '/'] ++ content) = ['/', '/', '/'] ++ content := by
    simp [dropBlanks, isBlank]
  rw [runText?, dropBlanks_append_of_blank _ blanks.blank, opened, usual_eq,
    after?_eq_some_iff.mpr rfl, Option.map_some, dropReturn_of_not_mem clean]

theorem filterMap_runText?_indentRows (indent : Nat → Blanks) {contents : List Text}
    (clean : ∀ content ∈ contents, '\r' ∉ content) :
    (indentRows indent (contents.map (['/', '/', '/'] ++ ·))).filterMap usual.runText? =
      contents := by
  induction contents generalizing indent with
  | nil => rfl
  | cons content contents ih =>
      have reads := runText?_indented (indent 0) (clean content List.mem_cons_self)
      rw [List.map_cons, indentRows_cons, List.filterMap_cons_some reads,
        ih _ fun other member => clean other (List.mem_cons_of_mem _ member)]

/-- Lines that all start with the marker are one run. -/
theorem exists_opening_of_continues {markers : Markers} {row : Text} {covered below : List Text}
    (offset : Nat) (whole : Unbroken (row :: (covered ++ below)))
    (joins : ∀ line ∈ row :: covered, markers.continues line = true)
    (stops : ∀ line ∈ below.head?, markers.continues line = false) :
    ∃ found, Opening markers offset row (covered ++ below) found ∧
      covered.length = found.raw.breaks ∧
      found.shape = .run ((row :: covered).filterMap markers.runText?) := by
  have opens : markers.lineDoc <+: row.dropBlanks := continues_iff.mp (joins row List.mem_cons_self)
  have taken : (covered ++ below).takeWhile markers.continues = covered := by
    rw [List.takeWhile_append_of_pos fun line member => joins line (List.mem_cons_of_mem _ member),
      takeWhile_continues_of_head? stops, List.append_nil]
  have wholeCode : Unbroken (row.dropBlanks :: (covered ++ below)) := by
    obtain ⟨rowWhole, laterWhole⟩ := unbroken_cons.mp whole
    exact unbroken_cons.mpr
      ⟨fun member => rowWhole ((List.dropWhile_sublist isBlank).mem member), laterWhole⟩
  refine ⟨_, .marked opens, ?_, ?_⟩
  · rw [breaks_raw_runAt _ opens wholeCode, taken]
  · rw [runAt_of_isPrefix _ (by rwa [dropBlanks_dropBlanks]) wholeCode, taken]
    simp only [List.filterMap_cons, runText?, dropBlanks_dropBlanks]

/-! ### Blocks -/

/-- How often the marker character stands before the closing delimiter. -/
def Record.extra : Role → Nat
  | .normal => 0
  | .poster => 1

theorem Record.closer_eq (role : Role) :
    closer role = List.replicate (extra role) '*' ++ ['*', '/'] := by
  cases role <;> rfl

theorem Record.role_block (body : Text) (role : Role) :
    (Shape.block body (extra role)).role usual = role := by
  cases role <;> rfl

/-- What stands between the delimiters of a block with the lines `rows`. -/
def blockBody (rows : List Text) (closing : Blanks) : Text := lineTail rows ++ '\n' :: closing.text

section Block

variable {rows : List Text} {closing : Blanks}

theorem lineTail_block (below : List Text) (role : Role) :
    lineTail (rows ++ [closing.text ++ Record.closer role] ++ below) =
      blockBody rows closing ++ List.replicate (Record.extra role) '*' ++ ['*', '/'] ++
        lineTail below := by
  simp [blockBody, lineTail_cons, Record.closer_eq]

theorem breaks_blockBody (whole : Unbroken rows) :
    (blockBody rows closing).breaks = rows.length + 1 := by
  rw [blockBody, breaks_append, breaks_lineTail whole, breaks_cons_break,
    breaks_eq_zero.mpr (closing.not_mem (by decide))]

theorem splitExtra_blockBody (extra : Nat) :
    usual.splitExtra (blockBody rows closing ++ List.replicate extra '*') =
      (blockBody rows closing, extra) := by
  apply splitExtra_append_replicate
  intro last
  rw [blockBody, List.getLast?_append_of_ne_nil _ (List.cons_ne_nil _ _)] at last
  rcases List.mem_cons.mp (List.mem_of_getLast? last) with same | member
  · exact absurd same (by decide)
  · exact closing.not_mem (by decide) member

theorem interior_blockBody (inhabited : rows ≠ [])
    (marked : ∀ row ∈ rows, ∃ c rest, row = c :: rest ∧ Shape.isLineBreak c = false) :
    Shape.interior (blockBody rows closing) = joinLines rows := by
  obtain ⟨row, rows, rfl⟩ := List.exists_cons_of_ne_nil inhabited
  obtain ⟨c, rest, rfl, visible⟩ := marked row List.mem_cons_self
  refine Shape.interior_lineTail (joinLines_cons _ _) visible ?_
  intro d member
  have blank := closing.blank d member
  simp only [isBlank, Bool.or_eq_true, beq_iff_eq] at blank
  rcases blank with rfl | rfl <;> decide

/-- The closing delimiter does not occur before the line that is meant to close the block. -/
theorem not_isInfix_blockBody (extra : Nat) (unclosed : ∀ row ∈ rows, ¬ ['*', '/'] <:+: row) :
    ¬ ['*', '/'] <:+: blockBody rows closing ++ List.replicate extra '*' ++ ['*'] := by
  intro occurs
  have inLines : ['*', '/'] <:+:
      lineTail (rows ++ [closing.text ++ List.replicate extra '*' ++ ['*']]) := by
    simpa [blockBody, lineTail_cons] using occurs
  obtain ⟨row, member, inRow⟩ := exists_isInfix_of_isInfix_lineTail (by decide) (by decide) inLines
  rcases List.mem_append.mp member with here | last
  · exact unclosed row here inRow
  · rw [List.mem_singleton] at last
    have slash : '/' ∈ row := inRow.mem (by decide)
    rw [last, List.mem_append, List.mem_append, List.mem_replicate] at slash
    rcases slash with (slash | slash) | slash
    · exact closing.not_mem (by decide) slash
    · exact absurd slash.2 (by decide)
    · exact absurd slash (by decide)

/-- A block is found, and says what its lines say. -/
theorem exists_opening_of_block (offset : Nat) (opening closing : Blanks) (role : Role)
    (below : List Text) (whole : Unbroken rows) (inhabited : rows ≠ [])
    (unclosed : ∀ row ∈ rows, ¬ ['*', '/'] <:+: row)
    (marked : ∀ row ∈ rows, ∃ c rest, row = c :: rest ∧ Shape.isLineBreak c = false) :
    ∃ found, Opening usual offset (opening.text ++ ['/', '*', '*'])
        (rows ++ [closing.text ++ Record.closer role] ++ below) found ∧
      (rows ++ [closing.text ++ Record.closer role]).length = found.raw.breaks ∧
      found.shape.role usual = role ∧
      found.shape.lines usual = dedentLines (rows.map (Shape.blockLine '*')) := by
  have code : dropBlanks (opening.text ++ ['/', '*', '*']) = ['/', '*', '*'] := by
    rw [dropBlanks_append_of_blank _ opening.blank]
    rfl
  have closes : cut? usual.blockClose
      ([] ++ lineTail (rows ++ [closing.text ++ Record.closer role] ++ below)) =
        some (blockBody rows closing ++ List.replicate (Record.extra role) '*', lineTail below) := by
    rw [List.nil_append, lineTail_block, usual_eq]
    exact cut?_eq_some_of_not_isInfix (lineTail below) (not_isInfix_blockBody _ unclosed)
  refine ⟨_, .block (by rw [code]; decide) (by rw [code]; rfl) closes, ?_, ?_, ?_⟩
  · have marks : usual.blockOpen.breaks = 0 ∧ usual.blockClose.breaks = 0 := by decide
    have stars : breaks (List.replicate (Record.extra role) '*') = 0 := by
      cases role <;> rfl
    rw [blockMatch, breaks_append, breaks_append, breaks_append, breaks_append, marks.1, marks.2,
      stars, breaks_blockBody whole, breaks_eq_zero.mpr (unbroken_takeBlanks _), List.length_append,
      List.length_singleton]
    omega
  · rw [blockMatch, splitExtra_blockBody]
    exact Record.role_block _ role
  · rw [blockMatch, splitExtra_blockBody]
    show dedentLines (Shape.blockTexts '*' (blockBody rows closing)) = _
    rw [Shape.blockTexts, interior_blockBody inhabited marked, lines_joinLines whole inhabited]

end Block

theorem not_isInfix_blockRow (blanks : Blanks) {text : Text} (unclosed : ¬ ['*', '/'] <:+: text) :
    ¬ ['*', '/'] <:+: blanks.text ++ (['*', ' '] ++ text) := by
  have marked : ¬ ['*', '/'] <:+: ['*', ' '] ++ text := by
    simp [List.infix_cons_iff, unclosed]
  obtain ⟨blanks, blank⟩ := blanks
  induction blanks with
  | nil => exact marked
  | cons c blanks ih =>
      rw [List.cons_append, List.infix_cons_iff, not_or]
      refine ⟨?_, ih fun d member => blank d (List.mem_cons_of_mem c member)⟩
      intro opens
      rw [List.cons_prefix_cons] at opens
      have isBlankStar := blank c List.mem_cons_self
      rw [← opens.1] at isBlankStar
      cases isBlankStar

/-! ### Items -/

theorem Record.unbroken_rows (record : Record) : Unbroken record.rows := by
  intro row member
  cases style : record.style with
  | block =>
      rw [rows, style] at member
      simp only [List.mem_append, List.mem_singleton, List.mem_map] at member
      rcases member with (rfl | ⟨text, present, rfl⟩) | rfl
      · decide
      · have clean := record.unbroken text present
        simp [clean]
      · cases record.role <;> decide
  | line =>
      rw [rows_of_line style, List.mem_map] at member
      obtain ⟨content, present, rfl⟩ := member
      have clean := record.not_mem_contents content present
      simp [clean]

theorem Item.unbroken_rows (item : Item) : Unbroken item.rows := by
  cases item with
  | code line =>
      intro row member
      rw [List.mem_singleton.mp member]
      exact line.unbroken
  | comment record indent => exact unbroken_indentRows indent record.unbroken_rows

theorem continues_indentRows (indent : Nat → Blanks) {contents : List Text}
    (clean : ∀ content ∈ contents, '\r' ∉ content) :
    ∀ line ∈ indentRows indent (contents.map (['/', '/', '/'] ++ ·)),
      usual.continues line = true := by
  intro line member
  obtain ⟨blanks, row, present, rfl⟩ := exists_of_mem_indentRows member
  obtain ⟨content, inside, rfl⟩ := List.mem_map.mp present
  rw [continues, runText?_indented blanks (clean content inside)]
  rfl

theorem map_blockLine_indentRows (indent : Nat → Blanks) {texts : List Text}
    (clean : ∀ text ∈ texts, '\r' ∉ text) :
    (indentRows indent (texts.map (['*', ' '] ++ ·))).map (Shape.blockLine '*') =
      texts.map (' ' :: ·) := by
  induction texts generalizing indent with
  | nil => rfl
  | cons text texts ih =>
      have none : '\r' ∉ (indent 0).text ++ '*' :: ' ' :: text := by
        have inText := clean text List.mem_cons_self
        have inBlanks : '\r' ∉ (indent 0).text := (indent 0).not_mem (by decide)
        simp [inText, inBlanks]
      have first := Shape.blockLine_marked (indent 0).blank (by decide) none
      rw [List.map_cons, indentRows_cons, List.map_cons, List.map_cons,
        ih _ fun other member => clean other (List.mem_cons_of_mem _ member)]
      exact congrArg (· :: texts.map (' ' :: ·)) first

theorem Blanks.append_eq_cons (blanks : Blanks) (text : Text) :
    ∃ c rest, blanks.text ++ '*' :: text = c :: rest ∧ Shape.isLineBreak c = false := by
  obtain ⟨blanks, blank⟩ := blanks
  cases blanks with
  | nil => exact ⟨'*', text, rfl, by decide⟩
  | cons c blanks =>
      have isBlank := blank c List.mem_cons_self
      simp only [Text.isBlank, Bool.or_eq_true, beq_iff_eq] at isBlank
      refine ⟨c, _, rfl, ?_⟩
      rcases isBlank with rfl | rfl <;> decide

theorem exists_opening_of_blockRecord (offset : Nat) {record : Record} (indent : Nat → Blanks)
    (below : List Text) (style : record.style = .block) :
    ∃ row covered found, indentRows indent record.rows = row :: covered ∧
      Opening usual offset row (covered ++ below) found ∧ covered.length = found.raw.breaks ∧
      found.shape.role usual = record.role ∧ found.shape.lines usual = record.texts := by
  have written : indentRows indent record.rows =
      ((indent 0).text ++ ['/', '*', '*']) ::
        (indentRows (fun i => indent (i + 1)) (record.texts.map (['*', ' '] ++ ·)) ++
          [(indent (record.texts.length + 1)).text ++ Record.closer record.role]) := by
    rw [Record.rows, style]
    simp [indentRows]
  have whole := unbroken_indentRows indent record.unbroken_rows
  rw [written, unbroken_cons, unbroken_append] at whole
  have inside : ∀ row ∈ indentRows (fun i => indent (i + 1)) (record.texts.map (['*', ' '] ++ ·)),
      ∃ (blanks : Blanks) (text : Text), text ∈ record.texts ∧
        row = blanks.text ++ (['*', ' '] ++ text) := by
    intro row member
    obtain ⟨blanks, marked, present, rfl⟩ := exists_of_mem_indentRows member
    obtain ⟨text, fromRecord, rfl⟩ := List.mem_map.mp present
    exact ⟨blanks, text, fromRecord, rfl⟩
  have unclosed : ∀ row ∈ indentRows (fun i => indent (i + 1)) (record.texts.map (['*', ' '] ++ ·)),
      ¬ ['*', '/'] <:+: row := by
    intro row member
    obtain ⟨blanks, text, present, rfl⟩ := inside row member
    exact not_isInfix_blockRow blanks (record.unclosed style text present)
  have marked : ∀ row ∈ indentRows (fun i => indent (i + 1)) (record.texts.map (['*', ' '] ++ ·)),
      ∃ c rest, row = c :: rest ∧ Shape.isLineBreak c = false := by
    intro row member
    obtain ⟨blanks, text, -, rfl⟩ := inside row member
    exact blanks.append_eq_cons (' ' :: text)
  obtain ⟨found, opening, covers, role, lines⟩ :=
    exists_opening_of_block offset (indent 0) (indent (record.texts.length + 1)) record.role below
      whole.2.1 (by simp [indentRows, record.texts_ne_nil]) unclosed marked
  refine ⟨_, _, found, written, opening, covers, role, ?_⟩
  rw [lines, map_blockLine_indentRows _ fun text member => (record.unbroken text member).2,
    dedentLines_map_cons (by decide) record.flush]

theorem exists_opening_of_lineRecord (offset : Nat) {record : Record} (indent : Nat → Blanks)
    {below : List Text} (style : record.style = .line) (whole : Unbroken below)
    (stops : ∀ line ∈ below.head?, usual.continues line = false) :
    ∃ row covered found, indentRows indent record.rows = row :: covered ∧
      Opening usual offset row (covered ++ below) found ∧ covered.length = found.raw.breaks ∧
      found.shape.role usual = record.role ∧ found.shape.lines usual = record.texts := by
  have clean : ∀ content ∈ record.contents, '\r' ∉ content := fun content member =>
    (record.not_mem_contents content member).2
  have joins := continues_indentRows indent clean
  have reads := filterMap_runText?_indentRows indent clean
  have wholeRows := unbroken_indentRows indent record.unbroken_rows
  have inhabited : indentRows indent (record.contents.map (['/', '/', '/'] ++ ·)) ≠ [] := by
    simp [indentRows, Record.contents, record.texts_ne_nil]
  rw [Record.rows_of_line style] at wholeRows ⊢
  obtain ⟨row, covered, written⟩ := List.exists_cons_of_ne_nil inhabited
  rw [written] at wholeRows joins reads ⊢
  have all : Unbroken (row :: (covered ++ below)) := unbroken_append.mpr ⟨wholeRows, whole⟩
  obtain ⟨found, opening, covers, shape⟩ := exists_opening_of_continues offset all joins stops
  refine ⟨row, covered, found, rfl, opening, covers, ?_, ?_⟩
  · rw [shape, reads, Record.role_run]
  · rw [shape, reads, Record.lines_run]

/-! ### Documents -/

theorem unbroken_flatMap_rows (items : List Item) : Unbroken (items.flatMap Item.rows) := by
  intro row member
  obtain ⟨item, -, inside⟩ := List.mem_flatMap.mp member
  exact item.unbroken_rows row inside

theorem CodeLine.matchAt?_eq_none (line : CodeLine) (offset : Nat) (later : List Text) :
    usual.matchAt? offset (line.text ++ lineTail later) = none := by
  rw [matchAt?_eq_none_iff line.unbroken]
  refine Or.inl ⟨?_, line.unopened⟩
  intro occurs
  exact line.unmarked (occurs.trans (List.dropWhile_suffix isBlank).isInfix)

theorem continues_head?_eq_false {record : Record} {indent : Nat → Blanks} {items : List Item}
    (separated : Separated (.comment record indent :: items)) :
    ∀ line ∈ (items.flatMap Item.rows).head?, usual.continues line = false := by
  intro line first
  cases items with
  | nil => cases first
  | cons item items =>
      cases item with
      | comment other _ =>
          have code := (List.isChain_cons_cons.mp separated).1 rfl
          cases code
      | code below =>
          obtain rfl : below.text = line := Option.some.inj first
          rw [← Bool.not_eq_true, continues_iff]
          intro opens
          exact below.unmarked (opens.isInfix.trans (List.dropWhile_suffix isBlank).isInfix)

/-- The walk over the lines of a document finds its comments one by one. -/
theorem exists_reading_render {items : List Item} (separated : Separated items)
    (before : List Text) :
    ∃ located, Reading usual before (items.flatMap Item.rows) located ∧
      located.map (fun entry => (entry.2.shape.role usual, entry.2.shape.lines usual)) =
        (items.filterMap Item.record?).map (fun record => (record.role, record.texts)) ∧
      located.map Prod.fst = commentRanges before.length items := by
  induction items generalizing before with
  | nil => exact ⟨[], .nil, rfl, rfl⟩
  | cons item items ih =>
      have rest : Separated items := separated.of_cons
      cases item with
      | code line =>
          obtain ⟨located, reading, same, ranges⟩ := ih rest (before ++ [line.text])
          rw [List.length_append] at ranges
          exact ⟨located, .passed (line.matchAt?_eq_none _ _) reading, same, ranges⟩
      | comment record indent =>
          have stops := continues_head?_eq_false separated
          have whole := unbroken_flatMap_rows items
          have written : ∃ row covered found, indentRows indent record.rows = row :: covered ∧
              Opening usual (lineHead before).byteSize row
                (covered ++ items.flatMap Item.rows) found ∧
              covered.length = found.raw.breaks ∧ found.shape.role usual = record.role ∧
              found.shape.lines usual = record.texts := by
            cases style : record.style with
            | block => exact exists_opening_of_blockRecord _ indent _ style
            | line => exact exists_opening_of_lineRecord _ indent style whole stops
          obtain ⟨row, covered, found, rows, opening, covers, role, lines⟩ := written
          obtain ⟨located, reading, same, ranges⟩ := ih rest (before ++ row :: covered)
          have height := congrArg List.length rows
          rw [indentRows, List.length_mapIdx, List.length_cons] at height
          rw [List.flatMap_cons, Item.rows, rows, List.cons_append]
          refine ⟨_, .comment opening covers reading, ?_, ?_⟩
          · rw [List.map_cons, same, role, lines]
            rfl
          · rw [List.length_append, List.length_cons, ← height] at ranges
            rw [List.map_cons, ranges, commentRanges, height, Nat.add_right_comm, Nat.add_assoc]

theorem exists_reading_lines_render {items : List Item} (separated : Separated items) :
    ∃ located, Reading usual [] (Text.lines (render items).toList) located ∧
      located.map (fun entry => (entry.2.shape.role usual, entry.2.shape.lines usual)) =
        (items.filterMap Item.record?).map (fun record => (record.role, record.texts)) ∧
      located.map Prod.fst = commentRanges 0 items := by
  obtain ⟨located, reading, same, ranges⟩ := exists_reading_render separated []
  refine ⟨located, ?_, same, ranges⟩
  rw [render, String.toList_ofList]
  by_cases empty : items.flatMap Item.rows = []
  · rw [empty] at reading ⊢
    cases reading
    exact .passed (by decide +kernel) .nil
  · rw [lines_joinLines (unbroken_flatMap_rows items) empty]
    exact reading

/-- Extraction undoes rendering: the comments of a written document are its records, with their
roles and texts and on the lines on which they were written. -/
theorem extract_render (resolver : Resolver) (items : List Item) (separated : Separated items) :
    let comments := (Extractor.ofDelimiters resolver {}).extract (render items)
    comments.map (fun comment => (comment.role, comment.lines)) =
        (items.filterMap Item.record?).map
          (fun record => (record.role, record.texts.map String.ofList)) ∧
      comments.map Comment.range = commentRanges 0 items := by
  intro comments
  obtain ⟨located, reading, same, ranges⟩ := exists_reading_lines_render separated
  have extracted : comments = _ := reading.extract_eq resolver
  rw [extracted, List.map_map, List.map_map]
  refine ⟨?_, ranges⟩
  have paired := congrArg (List.map (Prod.map id (List.map String.ofList))) same
  rw [List.map_map, List.map_map] at paired
  exact paired

/-- A block whose lines step to the right, with a line of code below it. -/
def stepped : List Item :=
  [.comment ⟨.block, .poster, ["One /// two".toList, "  three".toList], by decide +kernel,
      by decide +kernel, by decide +kernel⟩ fun i => ⟨List.replicate i ' ', by simp [isBlank]⟩,
    .code ⟨"let b = 2; // two".toList, by decide +kernel, by decide +kernel, by decide +kernel⟩]

theorem extract_render_stepped :
    let source := "/**\n * One /// two\n  *   three\n   **/\nlet b = 2; // two"
    let comments := (Extractor.ofDelimiters (fun _ _ => {}) {}).extract source
    Separated stepped ∧ render stepped = source ∧
      comments.map (fun comment => (comment.role, comment.lines)) =
        [(.poster, ["One /// two", "  three"])] ∧
      comments.map Comment.range = [⟨1, 4⟩] := by
  intro source comments
  have separated : Separated stepped := by simp [Separated, stepped, Item.record?]
  have written : render stepped = source := by decide +kernel
  have records : (stepped.filterMap Item.record?).map
      (fun record => (record.role, record.texts.map String.ofList)) =
        [(.poster, ["One /// two", "  three"])] := rfl
  have ranges : commentRanges 0 stepped = [⟨1, 4⟩] := rfl
  refine ⟨separated, written, ?_⟩
  have undone := extract_render (fun _ _ => {}) stepped separated
  rw [written, records, ranges] at undone
  exact undone

end DocComments
