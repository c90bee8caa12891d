import DocComments.Text.Lines
import Mathlib.Data.List.DropRight
import Mathlib.Data.List.TakeWhile

/-!
# Lines of a text

A text is the same as its list of lines, which is where statements about comments live. Around some
lines of a text stand those before them, each with its line break behind it (`lineHead`), and those
after them, each with its line break in front (`lineTail`). In this form neither list needs to be
inhabited, so that the first and the last line of a text are no special cases.
-/

namespace DocComments.Text

/-- Lines that stand before others. -/
def lineHead (rows : List Text) : Text := rows.flatMap (· ++ ['\n'])

/-- Lines that stand after others. -/
def lineTail (rows : List Text) : Text := rows.flatMap ('\n' :: ·)

/-- Rows of characters in which no line ends. -/
def Unbroken (rows : List Text) : Prop := ∀ row ∈ rows, '\n' ∉ row

@[simp] theorem lineHead_nil : lineHead [] = [] := rfl

@[simp] theorem lineTail_nil : lineTail [] = [] := rfl

@[simp] theorem lineHead_append (first second : List Text) :
    lineHead (first ++ second) = lineHead first ++ lineHead second := List.flatMap_append

@[simp] theorem lineTail_append (first second : List Text) :
    lineTail (first ++ second) = lineTail first ++ lineTail second := List.flatMap_append

theorem lineTail_cons (row : Text) (rows : List Text) :
    lineTail (row :: rows) = '\n' :: (row ++ lineTail rows) := by
  simp [lineTail]

theorem lineHead_cons (row : Text) (rows : List Text) :
    lineHead (row :: rows) = row ++ '\n' :: lineHead rows := by
  simp [lineHead]

theorem unbroken_cons {row : Text} {rows : List Text} :
    Unbroken (row :: rows) ↔ '\n' ∉ row ∧ Unbroken rows := by
  simp [Unbroken]

theorem unbroken_append {first second : List Text} :
    Unbroken (first ++ second) ↔ Unbroken first ∧ Unbroken second := by
  simp only [Unbroken, List.mem_append, or_imp, forall_and]

/-! ### Joining -/

theorem joinLines_cons (row : Text) (rows : List Text) :
    joinLines (row :: rows) = row ++ lineTail rows := by
  induction rows generalizing row with
  | nil => simp [joinLines]
  | cons next rows ih =>
      have step : joinLines (row :: next :: rows) = row ++ '\n' :: joinLines (next :: rows) := by
        simp [joinLines, List.intercalate_cons_cons]
      rw [step, ih, lineTail_cons]

theorem lineTail_eq_cons_joinLines {rows : List Text} (inhabited : rows ≠ []) :
    lineTail rows = '\n' :: joinLines rows := by
  obtain ⟨row, rows, rfl⟩ := List.exists_cons_of_ne_nil inhabited
  rw [lineTail_cons, joinLines_cons]

theorem joinLines_append {taken : List Text} (later : List Text) (inhabited : taken ≠ []) :
    joinLines (taken ++ later) = joinLines taken ++ lineTail later := by
  obtain ⟨row, rows, rfl⟩ := List.exists_cons_of_ne_nil inhabited
  rw [List.cons_append, joinLines_cons, joinLines_cons, lineTail_append, List.append_assoc]

theorem lineHead_append_joinLines (before : List Text) {rows : List Text} (inhabited : rows ≠ []) :
    joinLines (before ++ rows) = lineHead before ++ joinLines rows := by
  induction before with
  | nil => rfl
  | cons row before ih =>
      have rest : before ++ rows ≠ [] := by simp [inhabited]
      rw [List.cons_append, joinLines_cons, lineTail_eq_cons_joinLines rest, ih, lineHead_cons]
      simp

theorem lineHead_eq_joinLines {rows : List Text} (inhabited : rows ≠ []) :
    lineHead rows = joinLines rows ++ ['\n'] := by
  have closed := lineHead_append_joinLines rows (List.cons_ne_nil [] [])
  rw [joinLines_append _ inhabited, joinLines_cons, lineTail_cons] at closed
  simpa using closed.symm

/-! ### Splitting -/

theorem lines_of_unbroken {text : Text} (whole : '\n' ∉ text) : lines text = [text] :=
  List.splitOn_eq_singleton whole

theorem lines_append_break (first second : Text) :
    lines (first ++ '\n' :: second) = lines first ++ lines second :=
  List.splitOn_append_cons_self first second

theorem unbroken_lines (text : Text) : Unbroken (lines text) := by
  induction text with
  | nil =>
      intro row member
      simp only [lines, List.splitOn_nil, List.mem_singleton] at member
      simp [member]
  | cons c text ih =>
      obtain ⟨first, rest, split⟩ := List.exists_cons_of_ne_nil (lines_ne_nil text)
      rw [split, unbroken_cons] at ih
      rw [lines, List.splitOn_cons_eq_if_modifyHead, ← lines, split]
      by_cases isBreak : c = '\n'
      · rw [if_pos (beq_iff_eq.mpr isBreak), unbroken_cons, unbroken_cons]
        exact ⟨List.not_mem_nil, ih⟩
      · rw [if_neg (by simpa using isBreak), List.modifyHead_cons, unbroken_cons, List.mem_cons]
        exact ⟨fun ends => ends.elim (fun same => isBreak same.symm) ih.1, ih.2⟩

theorem lines_append_lineTail (text : Text) {rows : List Text} (whole : Unbroken rows) :
    lines (text ++ lineTail rows) = lines text ++ rows := by
  have joined : joinLines (lines text ++ rows) = text ++ lineTail rows := by
    rw [joinLines_append _ (lines_ne_nil text), joinLines_lines]
  rw [← joined]
  refine lines_joinLines (unbroken_append.mpr ⟨unbroken_lines text, whole⟩) ?_
  simp [lines_ne_nil]

/-- Text in front of a text joins its first line, and text behind it its last line. -/
theorem lines_append_append {front text back first last : Text} {inner : List Text}
    (whole : '\n' ∉ front) (split : lines text = first :: (inner ++ [last])) :
    lines (front ++ text ++ back) = (front ++ first) :: (inner ++ lines (last ++ back)) := by
  have rows := unbroken_lines text
  rw [split, unbroken_cons, unbroken_append] at rows
  have joined : front ++ text ++ back =
      ((front ++ first) ++ lineTail inner) ++ '\n' :: (last ++ back) := by
    rw [← joinLines_lines text, split, joinLines_cons, lineTail_append, lineTail_cons]
    simp
  have firstWhole : '\n' ∉ front ++ first := by
    rw [List.mem_append, not_or]
    exact ⟨whole, rows.1⟩
  rw [joined, lines_append_break, lines_append_lineTail _ rows.2.1, lines_of_unbroken firstWhole,
    List.singleton_append, List.cons_append]

/-! ### Counting line breaks -/

@[simp] theorem breaks_nil : breaks [] = 0 := rfl

@[simp] theorem breaks_append (first second : Text) :
    breaks (first ++ second) = breaks first + breaks second := List.count_append

@[simp] theorem breaks_cons_break (text : Text) : breaks ('\n' :: text) = breaks text + 1 := by
  simp [breaks]

theorem breaks_eq_zero {text : Text} : breaks text = 0 ↔ '\n' ∉ text := List.count_eq_zero

/-- A text has one line more than it has line breaks. -/
theorem length_lines (text : Text) : (lines text).length = breaks text + 1 := by
  induction text with
  | nil => simp [lines]
  | cons c text ih =>
      obtain ⟨first, rest, split⟩ := List.exists_cons_of_ne_nil (lines_ne_nil text)
      rw [split, List.length_cons] at ih
      rw [lines, List.splitOn_cons_eq_if_modifyHead, ← lines, split]
      by_cases isBreak : c = '\n'
      · subst isBreak
        simp only [beq_self_eq_true, if_true, List.length_cons, breaks_cons_break]
        omega
      · rw [if_neg (by simpa using isBreak), List.modifyHead_cons, List.length_cons]
        have same : breaks (c :: text) = breaks text := List.count_cons_of_ne isBreak
        omega

theorem breaks_lineHead {rows : List Text} (whole : Unbroken rows) :
    breaks (lineHead rows) = rows.length := by
  induction rows with
  | nil => rfl
  | cons row rows ih =>
      obtain ⟨unbroken, rest⟩ := unbroken_cons.mp whole
      rw [lineHead_cons, breaks_append, breaks_cons_break, ih rest, breaks_eq_zero.mpr unbroken,
        List.length_cons]
      omega

theorem breaks_lineTail {rows : List Text} (whole : Unbroken rows) :
    breaks (lineTail rows) = rows.length := by
  induction rows with
  | nil => rfl
  | cons row rows ih =>
      obtain ⟨unbroken, rest⟩ := unbroken_cons.mp whole
      rw [lineTail_cons, breaks_cons_break, breaks_append, ih rest, breaks_eq_zero.mpr unbroken,
        List.length_cons, Nat.zero_add]

/-! ### The first line and those after it -/

theorem unbroken_firstLine (text : Text) : '\n' ∉ firstLine text := by
  intro member
  have inside := List.mem_takeWhile_imp member
  simp at inside

theorem firstLine_append_lineTail {row : Text} (rows : List Text) (whole : '\n' ∉ row) :
    firstLine (row ++ lineTail rows) = row := by
  have passes : ∀ c ∈ row, (c != '\n') = true := by
    intro c member
    exact bne_iff_ne.mpr fun isBreak => whole (isBreak ▸ member)
  rw [firstLine, List.takeWhile_append_of_pos passes]
  cases rows with
  | nil => simp
  | cons next rows => simp [lineTail_cons]

theorem nextLines?_append_lineTail {row : Text} (rows : List Text) (whole : '\n' ∉ row) :
    nextLines? (row ++ lineTail rows) = if rows = [] then none else some (joinLines rows) := by
  have passes : ∀ c ∈ row, (c != '\n') = true := by
    intro c member
    exact bne_iff_ne.mpr fun isBreak => whole (isBreak ▸ member)
  rw [nextLines?, List.dropWhile_append_of_pos passes]
  cases rows with
  | nil => simp
  | cons next rows =>
      rw [lineTail_eq_cons_joinLines (List.cons_ne_nil next rows)]
      simp

theorem getD_nextLines?_append_lineTail {row : Text} (rows : List Text) (whole : '\n' ∉ row) :
    (nextLines? (row ++ lineTail rows)).getD [] = joinLines rows := by
  rw [nextLines?_append_lineTail rows whole]
  split
  next none =>
    rw [none]
    rfl
  next => rfl

/-- A text is its first line and the lines that follow. -/
theorem exists_lines_eq_cons (text : Text) :
    ∃ rows, lines text = firstLine text :: rows ∧ text = firstLine text ++ lineTail rows := by
  obtain ⟨row, rows, split⟩ := List.exists_cons_of_ne_nil (lines_ne_nil text)
  have joined : text = row ++ lineTail rows := by
    rw [← joinLines_cons, ← split, joinLines_lines]
  have whole := unbroken_lines text
  rw [split, unbroken_cons] at whole
  have same : firstLine text = row := by
    rw [joined, firstLine_append_lineTail rows whole.1]
  exact ⟨rows, by rw [split, same], by rw [same]; exact joined⟩

/-! ### What occurs in lines -/

theorem mem_of_mem_lines {c : Char} {row text : Text} (member : row ∈ lines text)
    (inside : c ∈ row) : c ∈ text := by
  obtain ⟨above, below, split⟩ := List.append_of_mem member
  rw [← joinLines_lines text, split, lineHead_append_joinLines above (List.cons_ne_nil _ _),
    joinLines_cons]
  simp [inside]

theorem exists_isInfix_of_isInfix_lineTail {marker : Text} {rows : List Text}
    (inhabited : marker ≠ []) (whole : '\n' ∉ marker) (occurs : marker <:+: lineTail rows) :
    ∃ row ∈ rows, marker <:+: row := by
  induction rows with
  | nil => exact absurd (List.infix_nil.mp occurs) inhabited
  | cons row rows ih =>
      have notFirst : ∀ part rest : Text, part ≠ [] → '\n' ∉ part → ¬ part <+: '\n' :: rest := by
        intro part rest nonempty clean opens
        obtain ⟨c, part, rfl⟩ := List.exists_cons_of_ne_nil nonempty
        rw [List.cons_prefix_cons] at opens
        exact clean (opens.1 ▸ List.mem_cons_self)
      rw [lineTail_cons, List.infix_cons_iff, List.infix_append_iff_ne_nil] at occurs
      rcases occurs with atBreak | inRow | later | ⟨front, back, -, nonempty, rfl, -, opens⟩
      · exact absurd atBreak (notFirst marker _ inhabited whole)
      · exact ⟨row, List.mem_cons_self, inRow⟩
      · obtain ⟨other, member, inOther⟩ := ih later
        exact ⟨other, List.mem_cons_of_mem row member, inOther⟩
      · -- The marker would reach over the line break behind `row`.
        exfalso
        have clean : '\n' ∉ back := fun member => whole (List.mem_append_right front member)
        cases rows with
        | nil => exact nonempty (List.prefix_nil.mp opens)
        | cons next rows =>
            rw [lineTail_cons] at opens
            exact notFirst back _ nonempty clean opens

/-! ### Lines rewritten -/

/-- Lines rewritten one by one. How a line is rewritten may depend on the lines below it. -/
def rewriteLines (rewrite : Text → List Text → Text) : List Text → List Text
  | [] => []
  | row :: later => rewrite row later :: rewriteLines rewrite later

theorem exists_rewriteLines_append (rewrite : Text → List Text → Text)
    (covered below : List Text) :
    ∃ covered', rewriteLines rewrite (covered ++ below) = covered' ++ rewriteLines rewrite below ∧
      covered'.length = covered.length := by
  induction covered with
  | nil => exact ⟨[], rfl, rfl⟩
  | cons row covered ih =>
      obtain ⟨covered', split, size⟩ := ih
      refine ⟨rewrite row (covered ++ below) :: covered', ?_, ?_⟩
      · rw [List.cons_append, rewriteLines, split, List.cons_append]
      · rw [List.length_cons, List.length_cons, size]

/-! ### Leading blanks -/

theorem takeBlanks_append_dropBlanks (text : Text) : takeBlanks text ++ dropBlanks text = text :=
  List.takeWhile_append_dropWhile

theorem unbroken_takeBlanks (text : Text) : '\n' ∉ takeBlanks text := by
  intro member
  have blank := List.mem_takeWhile_imp member
  exact absurd blank (by decide)

theorem dropBlanks_append_lineTail (row : Text) (rows : List Text) :
    dropBlanks (row ++ lineTail rows) = dropBlanks row ++ lineTail rows := by
  induction row with
  | nil =>
      cases rows with
      | nil => rfl
      | cons next rows => simp [dropBlanks, lineTail_cons, isBlank]
  | cons c row ih =>
      simp only [dropBlanks, List.cons_append, List.dropWhile_cons] at ih ⊢
      split
      · exact ih
      · rfl

theorem takeBlanks_append_lineTail (row : Text) (rows : List Text) :
    takeBlanks (row ++ lineTail rows) = takeBlanks row := by
  have parts := takeBlanks_append_dropBlanks (row ++ lineTail rows)
  rw [dropBlanks_append_lineTail, ← List.append_assoc] at parts
  have same := List.append_cancel_right parts
  exact List.append_cancel_right (same.trans (takeBlanks_append_dropBlanks row).symm)

theorem dropBlanks_append_of_blank {blanks : Text} (text : Text)
    (blank : ∀ c ∈ blanks, isBlank c = true) : dropBlanks (blanks ++ text) = dropBlanks text :=
  List.dropWhile_append_of_pos blank

@[simp] theorem dropBlanks_dropBlanks (text : Text) :
    dropBlanks (dropBlanks text) = dropBlanks text := List.dropWhile_idempotent isBlank text

/-- What is left after the blanks does not open with one. -/
theorem not_isPrefix_dropBlanks_of_blank {c : Char} (blank : isBlank c = true) (marker text : Text) :
    ¬ c :: marker <+: dropBlanks text := by
  rintro ⟨rest, opened⟩
  have first := List.head?_dropWhile_not isBlank text
  rw [← dropBlanks, ← opened, List.cons_append, List.head?_cons] at first
  exact absurd blank (by simpa using first)

end DocComments.Text
