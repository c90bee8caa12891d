import DocComments.Comment.Scan
import DocComments.Proofs.Text.Lines
import DocComments.Proofs.Text.Search

/-!
# Where a comment opens

`Markers.matchAt?` looks at a text as one list of characters. Here the text is a line `row` with the
lines `later` below it, and `Opening` lists the three ways in which a comment can open on `row`.
`matchAt?_eq_some_iff` and `matchAt?_eq_none_iff` say that these are all. What a comment takes of
the text follows from them: `Opening.placed` says that it is a piece of the text that starts on
`row`, and `breaks_raw_runAt` how many lines a run has.
-/

namespace DocComments.Markers

open Text

variable {markers : Markers} {offset : Nat} {row : Text} {later : List Text} {found : Match}

/-! ### Runs -/

/-- Whether a line belongs to the run that the line above it belongs to. -/
def continues (markers : Markers) (line : Text) : Bool := (markers.runText? line).isSome

theorem continues_iff {line : Text} :
    markers.continues line = true ↔ markers.lineDoc <+: line.dropBlanks := by
  rw [continues, runText?, Option.isSome_map, isSome_after?_iff]

theorem takeWhile_continues_of_head? {rows : List Text}
    (stops : ∀ line ∈ rows.head?, markers.continues line = false) :
    rows.takeWhile markers.continues = [] := by
  cases rows with
  | nil => rfl
  | cons line rows =>
      apply List.takeWhile_cons_of_neg
      rw [stops line rfl]
      exact Bool.false_ne_true

/-- A marker that opens with a blank opens no line after its blanks, so that no run goes on. -/
theorem takeWhile_continues_eq_nil {marked : Text} (opens : markers.lineDoc <+: marked)
    (ends : ¬ markers.lineDoc <+: marked.dropBlanks) (rows : List Text) :
    rows.takeWhile markers.continues = [] := by
  cases marker : markers.lineDoc with
  | nil =>
      rw [marker] at ends
      exact absurd List.nil_prefix ends
  | cons c rest =>
      obtain ⟨tail, rfl⟩ := opens
      have blank : isBlank c = true := by
        apply Decidable.byContradiction
        intro visible
        apply ends
        rw [marker, List.cons_append, dropBlanks, List.dropWhile_cons_of_neg visible]
        exact List.prefix_append (c :: rest) tail
      apply takeWhile_continues_of_head?
      intro line _
      rw [← Bool.not_eq_true, continues_iff, marker]
      exact not_isPrefix_dropBlanks_of_blank blank rest line

theorem runAt_of_isPrefix {marked : Text} (offset : Nat)
    (opens : markers.lineDoc <+: marked.dropBlanks) (whole : Unbroken (marked :: later)) :
    markers.runAt offset (marked ++ lineTail later) =
      { start := offset
        raw := marked ++ lineTail (later.takeWhile markers.continues)
        shape := .run ((marked :: later.takeWhile markers.continues).filterMap markers.runText?)
        rest := lineTail (later.dropWhile markers.continues) } := by
  have split : (marked ++ lineTail later).lines = marked :: later := by
    rw [← joinLines_cons, lines_joinLines whole (List.cons_ne_nil _ _)]
  have taken : (marked :: later).takeWhile (fun line => (markers.runText? line).isSome) =
      marked :: later.takeWhile markers.continues :=
    List.takeWhile_cons_of_pos (continues_iff.mpr opens)
  have parts : marked ++ lineTail later =
      (marked ++ lineTail (later.takeWhile markers.continues)) ++
        lineTail (later.dropWhile markers.continues) := by
    rw [List.append_assoc, ← lineTail_append, List.takeWhile_append_dropWhile]
  simp only [runAt, split, taken, joinLines_cons, Match.mk.injEq, true_and]
  rw [parts, List.drop_left]

theorem runAt_of_not_isPrefix {marked : Text} (offset : Nat)
    (ends : ¬ markers.lineDoc <+: marked.dropBlanks) (whole : Unbroken (marked :: later)) :
    markers.runAt offset (marked ++ lineTail later) =
      { start := offset, raw := [], shape := .run [], rest := marked ++ lineTail later } := by
  have split : (marked ++ lineTail later).lines = marked :: later := by
    rw [← joinLines_cons, lines_joinLines whole (List.cons_ne_nil _ _)]
  have taken : (marked :: later).takeWhile (fun line => (markers.runText? line).isSome) = [] :=
    List.takeWhile_cons_of_neg (fun more => ends (continues_iff.mp more))
  simp [runAt, split, taken, joinLines]

/-- A run is the beginning of the text in which it is read. -/
theorem raw_append_rest_runAt (offset : Nat) (text : Text) :
    (markers.runAt offset text).raw ++ (markers.runAt offset text).rest = text := by
  obtain ⟨rows, split, joined⟩ := exists_lines_eq_cons text
  have whole := unbroken_lines text
  rw [split] at whole
  by_cases opens : markers.lineDoc <+: text.firstLine.dropBlanks
  · rw [joined, runAt_of_isPrefix offset opens whole, List.append_assoc, ← lineTail_append,
      List.takeWhile_append_dropWhile]
  · rw [joined, runAt_of_not_isPrefix offset opens whole, List.nil_append]

/-! ### The three ways to open -/

/-- The match for a block whose line is indented by `indent`. -/
def blockMatch (markers : Markers) (offset : Nat) (indent between rest : Text) : Match where
  start := offset
  raw := indent ++ markers.blockOpen ++ between ++ markers.blockClose
  shape := .block (markers.splitExtra between).1 (markers.splitExtra between).2
  rest := rest

/-- How a comment opens on the line `row`, where the lines `later` stand below it. -/
inductive Opening (markers : Markers) (offset : Nat) (row : Text) (later : List Text) :
    Match → Prop
  /-- The line starts with the marker of documentation lines. -/
  | marked (opens : markers.lineDoc <+: row.dropBlanks) :
      Opening markers offset row later
        (markers.runAt (offset + row.takeBlanks.byteSize) (row.dropBlanks ++ lineTail later))
  /-- The line starts with the opening delimiter of a block, which is closed. -/
  | block {tail between rest : Text} (unmarked : ¬ markers.lineDoc <+: row.dropBlanks)
      (opens : row.dropBlanks = markers.blockOpen ++ tail)
      (closes : cut? markers.blockClose (tail ++ lineTail later) = some (between, rest)) :
      Opening markers offset row later
        (markers.blockMatch offset row.takeBlanks between rest)
  /-- The marker of documentation lines stands behind something else. -/
  | behind {code tail : Text} (unmarked : ¬ markers.lineDoc <+: row.dropBlanks)
      (unopened : ¬ markers.blockOpen <+: row.dropBlanks)
      (occurs : cut? markers.lineDoc row.dropBlanks = some (code, tail)) :
      Opening markers offset row later
        (markers.runAt (offset + row.takeBlanks.byteSize + code.byteSize)
          (markers.lineDoc ++ tail ++ lineTail later))

theorem matchAt?_append_lineTail (offset : Nat) (later : List Text) (whole : '\n' ∉ row) :
    markers.matchAt? offset (row ++ lineTail later) =
      if Text.opensWith markers.lineDoc row.dropBlanks then
        some (markers.runAt (offset + row.takeBlanks.byteSize) (row.dropBlanks ++ lineTail later))
      else if Text.opensWith markers.blockOpen row.dropBlanks then
        markers.blockAt? offset row.takeBlanks
          ((row.dropBlanks ++ lineTail later).drop markers.blockOpen.length)
      else
        (Text.cut? markers.lineDoc row.dropBlanks).map fun (before, _) =>
          markers.runAt (offset + row.takeBlanks.byteSize + before.byteSize)
            ((row.dropBlanks ++ lineTail later).drop before.length) := by
  have inner : '\n' ∉ row.dropBlanks := fun member =>
    whole ((List.dropWhile_sublist isBlank).mem member)
  simp only [matchAt?, takeBlanks_append_lineTail, dropBlanks_append_lineTail,
    firstLine_append_lineTail later inner]

theorem matchAt?_eq_some_iff (whole : '\n' ∉ row) :
    markers.matchAt? offset (row ++ lineTail later) = some found ↔
      Opening markers offset row later found := by
  rw [matchAt?_append_lineTail offset later whole]
  constructor
  · intro located
    split at located
    case isTrue opens =>
      obtain rfl := Option.some.inj located
      exact .marked (opensWith_iff.mp opens)
    case isFalse unmarked =>
      rw [opensWith_iff] at unmarked
      split at located
      case isTrue opens =>
        obtain ⟨tail, opened⟩ := opensWith_iff.mp opens
        rw [← opened, List.append_assoc, List.drop_left, blockAt?, Option.map_eq_some_iff] at located
        obtain ⟨⟨between, rest⟩, closes, rfl⟩ := located
        exact .block unmarked opened.symm closes
      case isFalse unopened =>
        rw [opensWith_iff] at unopened
        obtain ⟨⟨code, tail⟩, occurs, rfl⟩ := Option.map_eq_some_iff.mp located
        show Opening markers offset row later (markers.runAt _ (List.drop code.length _))
        rw [drop_of_cut? _ occurs]
        exact .behind unmarked unopened occurs
  · intro opening
    cases opening with
    | marked opens => rw [if_pos (opensWith_iff.mpr opens)]
    | block unmarked opens closes =>
        rw [← opensWith_iff] at unmarked
        have opened : Text.opensWith markers.blockOpen row.dropBlanks = true :=
          opensWith_iff.mpr ⟨_, opens.symm⟩
        rw [if_neg unmarked, if_pos opened, opens, List.append_assoc, List.drop_left, blockAt?,
          closes]
        rfl
    | behind unmarked unopened occurs =>
        rw [← opensWith_iff] at unmarked unopened
        rw [if_neg unmarked, if_neg unopened, occurs, ← drop_of_cut? _ occurs]
        rfl

/-- No comment opens on a line with nothing in it that could open one, or whose block is never
closed. -/
theorem matchAt?_eq_none_iff (whole : '\n' ∉ row) :
    markers.matchAt? offset (row ++ lineTail later) = none ↔
      (¬ markers.lineDoc <:+: row.dropBlanks ∧ ¬ markers.blockOpen <+: row.dropBlanks) ∨
        (¬ markers.lineDoc <+: row.dropBlanks ∧
          ∃ tail, row.dropBlanks = markers.blockOpen ++ tail ∧
            ¬ markers.blockClose <:+: tail ++ lineTail later) := by
  rw [matchAt?_append_lineTail offset later whole]
  by_cases opens : markers.lineDoc <+: row.dropBlanks
  · simp [opensWith_iff, opens, opens.isInfix]
  · rw [if_neg (by rwa [opensWith_iff])]
    by_cases opened : markers.blockOpen <+: row.dropBlanks
    · obtain ⟨tail, split⟩ := opened
      rw [if_pos (opensWith_iff.mpr ⟨tail, split⟩), ← split, List.append_assoc, List.drop_left,
        blockAt?, Option.map_eq_none_iff, cut?_eq_none_iff]
      rw [← split] at opens
      simp [opens]
    · rw [if_neg (by rwa [opensWith_iff]), Option.map_eq_none_iff, cut?_eq_none_iff]
      have noTail : ∀ tail, row.dropBlanks ≠ markers.blockOpen ++ tail := fun tail split =>
        opened ⟨tail, split.symm⟩
      simp [opened, noTail]

/-! ### What a comment takes of the text -/

/-- A comment is a piece of the text that starts on the line where it opens. -/
theorem Opening.placed (opening : Opening markers offset row later found) (whole : '\n' ∉ row) :
    ∃ lead, '\n' ∉ lead ∧ row ++ lineTail later = lead ++ found.raw ++ found.rest ∧
      found.start = offset + lead.byteSize := by
  have blanks := takeBlanks_append_dropBlanks row
  cases opening with
  | marked opens =>
      refine ⟨row.takeBlanks, unbroken_takeBlanks row, ?_, rfl⟩
      rw [List.append_assoc, raw_append_rest_runAt, ← List.append_assoc, blanks]
  | block unmarked opens closes =>
      rename_i tail between rest
      refine ⟨[], List.not_mem_nil, ?_, rfl⟩
      have split : row ++ lineTail later =
          row.takeBlanks ++ (markers.blockOpen ++ (tail ++ lineTail later)) := by
        rw [← List.append_assoc markers.blockOpen, ← opens, ← List.append_assoc, blanks]
      rw [split, eq_append_of_cut? closes]
      simp [blockMatch]
  | behind unmarked unopened occurs =>
      rename_i code tail
      have split : row = row.takeBlanks ++ code ++ (markers.lineDoc ++ tail) := by
        rw [List.append_assoc, ← List.append_assoc code, ← eq_append_of_cut? occurs, blanks]
      refine ⟨row.takeBlanks ++ code, ?_, ?_, ?_⟩
      · intro member
        apply whole
        rw [split]
        exact List.mem_append_left _ member
      · rw [List.append_assoc, raw_append_rest_runAt, ← List.append_assoc, ← split]
      · rw [byteSize_append, ← Nat.add_assoc]
        rfl

/-- A run reaches over all lines below that go on with it, and no further. -/
theorem breaks_raw_runAt {marked : Text} (offset : Nat) (opens : markers.lineDoc <+: marked)
    (whole : Unbroken (marked :: later)) :
    (markers.runAt offset (marked ++ lineTail later)).raw.breaks =
      (later.takeWhile markers.continues).length := by
  by_cases joins : markers.lineDoc <+: marked.dropBlanks
  · rw [runAt_of_isPrefix offset joins whole, breaks_append]
    have unbroken := unbroken_cons.mp whole
    have inner : Unbroken (later.takeWhile markers.continues) := fun row member =>
      unbroken.2 row ((List.takeWhile_sublist _).mem member)
    rw [breaks_eq_zero.mpr unbroken.1, breaks_lineTail inner, Nat.zero_add]
  · rw [runAt_of_not_isPrefix offset joins whole, takeWhile_continues_eq_nil opens joins]
    rfl

end DocComments.Markers
