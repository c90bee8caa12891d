import DocComments.Proofs.Comment.Extraction

/-!
# Sources in two parts

A source may be cut in two at a line break if no comment of the upper part could go on below it:
every block that is opened there is closed there, and no run goes on at the seam. Then the comments
of the whole are those of the two parts, with the lines of the lower part counted on
(`extract_append`).

There are two sides to it, each with a lemma about one comment and one about a walk. More lines below
change nothing but what follows the comments (`Opening.append`, `Reading.append`), and more lines
above change nothing but where they start (`Opening.moved`, `Reading.lowered`). The other way round, a
comment that ends above some lines was there without them (`Opening.restrict`), so that a walk can be
cut in two above any comment it finds (`Reading.exists_split`).
-/

namespace DocComments

open Text Markers

/-- A range with `count` more lines above it. -/
def LineRange.shift (range : LineRange) (count : Nat) : LineRange :=
  ⟨range.first + count, range.last + count⟩

/-- A comment with `count` more lines above it. -/
def Comment.shift (comment : Comment) (count : Nat) : Comment :=
  { comment with range := comment.range.shift count }

/-- Whether a comment is a run. -/
def Shape.isRun : Shape → Bool
  | .run _ => true
  | .block _ _ => false

namespace Match

/-- A match with more of the text behind it. -/
def extend (found : Match) (more : Text) : Match := { found with rest := found.rest ++ more }

/-- A match with `extra` more bytes in front of it. -/
def moved (found : Match) (extra : Nat) : Match := { found with start := extra + found.start }

end Match

namespace Markers

variable {markers : Markers} {offset : Nat} {row : Text} {before rows later more : List Text}
  {found : Match} {located following : List (LineRange × Match)}

/-! ### More lines below -/

/-- The lines that go on with a run are the same with more lines below, unless all of them do and
the first one below does too. -/
theorem span_continues_append
    (stops : (later.takeWhile markers.continues).length = later.length →
      ∀ line ∈ more.head?, markers.continues line = false) :
    (later ++ more).takeWhile markers.continues = later.takeWhile markers.continues ∧
      (later ++ more).dropWhile markers.continues =
        later.dropWhile markers.continues ++ more := by
  have taken : (later ++ more).takeWhile markers.continues =
      later.takeWhile markers.continues := by
    rw [List.takeWhile_append]
    split
    case isTrue all =>
      rw [takeWhile_continues_of_head? (stops all), List.append_nil]
      exact ((List.takeWhile_prefix _).eq_of_length all).symm
    case isFalse => rfl
  have parts : later.takeWhile markers.continues ++ (later ++ more).dropWhile markers.continues =
      later.takeWhile markers.continues ++ (later.dropWhile markers.continues ++ more) := by
    rw [← List.append_assoc, List.takeWhile_append_dropWhile, ← taken,
      List.takeWhile_append_dropWhile]
  exact ⟨taken, List.append_cancel_left parts⟩

theorem runAt_append {marked : Text} (offset : Nat) (whole : Unbroken (marked :: (later ++ more)))
    (stops : (later.takeWhile markers.continues).length = later.length →
      ∀ line ∈ more.head?, markers.continues line = false) :
    markers.runAt offset (marked ++ lineTail (later ++ more)) =
      (markers.runAt offset (marked ++ lineTail later)).extend (lineTail more) := by
  have wholeLater : Unbroken (marked :: later) := by
    rw [← List.cons_append, unbroken_append] at whole
    exact whole.1
  by_cases joins : markers.lineDoc <+: marked.dropBlanks
  · obtain ⟨taken, left⟩ := span_continues_append stops
    rw [runAt_of_isPrefix offset joins whole, runAt_of_isPrefix offset joins wholeLater, taken, left,
      lineTail_append]
    rfl
  · rw [runAt_of_not_isPrefix offset joins whole, runAt_of_not_isPrefix offset joins wholeLater,
      lineTail_append, ← List.append_assoc]
    rfl

/-- A comment that opens on a line stays what it is when more lines come below, unless it is a run
that goes on there. -/
theorem Opening.append (opening : Opening markers offset row later found)
    (whole : Unbroken (row :: (later ++ more)))
    (stops : found.shape.isRun = true → found.raw.breaks = later.length →
      ∀ line ∈ more.head?, markers.continues line = false) :
    Opening markers offset row (later ++ more) (found.extend (lineTail more)) := by
  obtain ⟨rowWhole, belowWhole⟩ := unbroken_cons.mp whole
  have codeWhole : '\n' ∉ row.dropBlanks := fun member =>
    rowWhole ((List.dropWhile_sublist isBlank).mem member)
  have laterWhole := (unbroken_append.mp belowWhole).1
  cases opening with
  | marked opens =>
      have count := breaks_raw_runAt (offset + row.takeBlanks.byteSize) opens
        (unbroken_cons.mpr ⟨codeWhole, laterWhole⟩)
      rw [← runAt_append _ (unbroken_cons.mpr ⟨codeWhole, belowWhole⟩)]
      · exact .marked opens
      · intro all
        exact stops rfl (count.trans all)
  | block unmarked opens closes =>
      have closed := cut?_append (lineTail more) closes
      rw [List.append_assoc, ← lineTail_append] at closed
      exact .block unmarked opens closed
  | behind unmarked unopened occurs =>
      rename_i code tail
      have split := eq_append_of_cut? occurs
      have tailWhole : '\n' ∉ markers.lineDoc ++ tail := by
        intro member
        apply codeWhole
        rw [split, List.append_assoc]
        exact List.mem_append_right _ member
      have opens : markers.lineDoc <+: markers.lineDoc ++ tail := List.prefix_append _ _
      have count := breaks_raw_runAt (offset + row.takeBlanks.byteSize + code.byteSize) opens
        (unbroken_cons.mpr ⟨tailWhole, laterWhole⟩)
      rw [← runAt_append _ (unbroken_cons.mpr ⟨tailWhole, belowWhole⟩)]
      · exact .behind unmarked unopened occurs
      · intro all
        exact stops rfl (count.trans all)

/-- A walk over some lines is the beginning of the walk over more of them. No block that is never
closed may be opened on these lines, and no run may go on behind the last one. -/
theorem Reading.append (reading : Reading markers before rows located)
    (whole : Unbroken (rows ++ more))
    (closed : ∀ above row below, before ++ rows = above ++ row :: below →
      before.length ≤ above.length → (∀ entry ∈ located, ¬ entry.1.Covers (above.length + 1)) →
      ¬ markers.blockOpen <+: row.dropBlanks)
    (stops : ∀ entry ∈ located, entry.2.shape.isRun = true →
      entry.1.last = (before ++ rows).length →
      ∀ line ∈ more.head?, markers.continues line = false)
    (next : Reading markers (before ++ rows) more following) :
    Reading markers before (rows ++ more)
      (located.map (fun entry => (entry.1, entry.2.extend (lineTail more))) ++ following) := by
  induction reading with
  | nil =>
      rw [List.append_nil] at next
      exact next
  | passed opensNone rest ih =>
      rename_i before later row located
      obtain ⟨rowWhole, laterWhole⟩ := unbroken_cons.mp whole
      have unopened : ¬ markers.blockOpen <+: row.dropBlanks := by
        refine closed before row later rfl (Nat.le_refl _) ?_
        intro entry member covers
        have further := rest.length_lt_first member
        rw [List.length_append, List.length_singleton] at further
        exact absurd covers.1 (Nat.not_le.mpr further)
      refine .passed ?_ (ih laterWhole ?_ ?_ ?_)
      · rw [matchAt?_eq_none_iff rowWhole] at opensNone ⊢
        rcases opensNone with free | ⟨-, tail, opens, -⟩
        · exact Or.inl free
        · exact absurd ⟨tail, opens.symm⟩ unopened
      · intro above line below split further
        rw [List.append_assoc] at split
        rw [List.length_append] at further
        exact closed above line below split (by omega)
      · rw [List.append_assoc]
        exact stops
      · rw [List.append_assoc]
        exact next
  | comment opening covers rest ih =>
      rename_i before covered below row found located
      have belowWhole : Unbroken (below ++ more) := by
        rw [List.cons_append, unbroken_cons, List.append_assoc, unbroken_append] at whole
        exact whole.2.2
      have goesOn : (before ++ row :: covered) ++ below = before ++ row :: (covered ++ below) := by
        rw [List.append_assoc, List.cons_append]
      rw [List.cons_append, List.append_assoc, List.map_cons, List.cons_append]
      refine .comment ?_ covers (ih belowWhole ?_ ?_ ?_)
      · rw [← List.append_assoc]
        refine opening.append whole ?_
        intro run last
        refine stops _ List.mem_cons_self run ?_
        show before.length + 1 + covered.length = _
        rw [List.length_append, List.length_cons, ← last, ← covers]
        omega
      · intro above line below' split further outside
        rw [goesOn] at split
        rw [List.length_append, List.length_cons] at further
        refine closed above line below' split (by omega) ?_
        intro entry member
        rcases List.mem_cons.mp member with rfl | deeper
        · simp only [LineRange.Covers]
          omega
        · exact outside entry deeper
      · rw [goesOn]
        intro entry member
        exact stops entry (List.mem_cons_of_mem _ member)
      · rw [goesOn]
        exact next

/-- On lines with nothing in them that could open a comment none is found. -/
theorem Reading.eq_nil_of_unmarked (reading : Reading markers [] rows located)
    (whole : Unbroken rows)
    (free : ∀ row ∈ rows,
      ¬ markers.lineDoc <:+: row.dropBlanks ∧ ¬ markers.blockOpen <+: row.dropBlanks) :
    located = [] := by
  refine List.eq_nil_iff_forall_not_mem.mpr ?_
  rintro ⟨range, found⟩ member
  obtain ⟨above, row, covered, below, split, -, opening, -⟩ := reading.opening_of_mem member
  have inside : row ∈ rows := by
    rw [← List.nil_append rows, split]
    simp
  have opens := (matchAt?_eq_some_iff (whole row inside)).mpr opening
  rw [(matchAt?_eq_none_iff (whole row inside)).mpr (Or.inl (free row inside))] at opens
  cases opens

/-! ### Fewer lines below -/

theorem continues_eq_false_of_length_le
    (within : ((later ++ more).takeWhile markers.continues).length ≤ later.length)
    (all : (later.takeWhile markers.continues).length = later.length) :
    ∀ line ∈ more.head?, markers.continues line = false := by
  intro line first
  by_contra joins
  rw [Bool.not_eq_false] at joins
  obtain ⟨more, rfl⟩ := List.head?_eq_some_iff.mp first
  rw [List.takeWhile_append, if_pos all, List.takeWhile_cons_of_pos joins, List.length_append,
    List.length_cons] at within
  omega

/-- A piece of a text that ends on one of its first lines lies in these lines. -/
theorem isPrefix_of_breaks_le {piece tail : Text} (whole : Unbroken (tail :: later))
    (opens : piece <+: tail ++ lineTail (later ++ more)) (within : piece.breaks ≤ later.length) :
    piece <+: tail ++ lineTail later := by
  obtain ⟨tailWhole, laterWhole⟩ := unbroken_cons.mp whole
  rw [lineTail_append, ← List.append_assoc] at opens
  rcases List.prefix_or_prefix_of_prefix opens (List.prefix_append _ _) with inside | ⟨further, rfl⟩
  · exact inside
  · have beyond := (List.prefix_append_right_inj _).mp opens
    rw [breaks_append, breaks_append, breaks_eq_zero.mpr tailWhole, breaks_lineTail laterWhole]
      at within
    have furtherWhole : '\n' ∉ further := breaks_eq_zero.mp (by omega)
    -- What follows the first lines starts with a line break.
    have none : further = [] := by
      cases more with
      | nil => exact List.prefix_nil.mp beyond
      | cons next more =>
          cases further with
          | nil => rfl
          | cons c further =>
              rw [lineTail_cons, List.cons_prefix_cons] at beyond
              exact absurd (beyond.1 ▸ List.mem_cons_self) furtherWhole
    exact ⟨[], by rw [none, List.append_nil, List.append_nil]⟩

/-- A comment that ends above some lines opens without them too. -/
theorem Opening.restrict (opening : Opening markers offset row (later ++ more) found)
    (whole : Unbroken (row :: (later ++ more))) (within : found.raw.breaks ≤ later.length) :
    ∃ found', Opening markers offset row later found' ∧ found = found'.extend (lineTail more) := by
  obtain ⟨rowWhole, belowWhole⟩ := unbroken_cons.mp whole
  have codeWhole : '\n' ∉ row.dropBlanks := fun member =>
    rowWhole ((List.dropWhile_sublist isBlank).mem member)
  have laterWhole := (unbroken_append.mp belowWhole).1
  cases opening with
  | marked opens =>
      have codeBelow := unbroken_cons.mpr ⟨codeWhole, belowWhole⟩
      rw [breaks_raw_runAt _ opens codeBelow] at within
      exact ⟨_, .marked opens, runAt_append _ codeBelow (continues_eq_false_of_length_le within)⟩
  | block unmarked opens closes =>
      rename_i tail between rest
      have tailWhole : '\n' ∉ tail := by
        intro member
        apply codeWhole
        rw [opens]
        exact List.mem_append_right _ member
      have divided : tail ++ lineTail (later ++ more) = (tail ++ lineTail later) ++ lineTail more := by
        rw [lineTail_append, List.append_assoc]
      have inside : between ++ markers.blockClose <+: tail ++ lineTail later := by
        apply isPrefix_of_breaks_le (unbroken_cons.mpr ⟨tailWhole, laterWhole⟩)
        · rw [eq_append_of_cut? closes]
          exact List.prefix_append _ _
        · simp only [blockMatch, breaks_append] at within
          rw [breaks_append]
          omega
      rw [divided] at closes
      obtain ⟨left, closesAbove, rfl⟩ := exists_cut?_of_append closes inside
      exact ⟨_, .block unmarked opens closesAbove, rfl⟩
  | behind unmarked unopened occurs =>
      rename_i code tail
      have tailBelow : Unbroken ((markers.lineDoc ++ tail) :: (later ++ more)) := by
        refine unbroken_cons.mpr ⟨?_, belowWhole⟩
        intro member
        apply codeWhole
        rw [eq_append_of_cut? occurs, List.append_assoc]
        exact List.mem_append_right _ member
      rw [breaks_raw_runAt _ (List.prefix_append _ _) tailBelow] at within
      exact ⟨_, .behind unmarked unopened occurs,
        runAt_append _ tailBelow (continues_eq_false_of_length_le within)⟩

theorem matchAt?_eq_none_of_append (whole : '\n' ∉ row)
    (opensNone : markers.matchAt? offset (row ++ lineTail (later ++ more)) = none) :
    markers.matchAt? offset (row ++ lineTail later) = none := by
  rw [matchAt?_eq_none_iff whole] at opensNone ⊢
  rcases opensNone with free | ⟨unmarked, tail, opens, unclosed⟩
  · exact Or.inl free
  · refine Or.inr ⟨unmarked, tail, opens, ?_⟩
    intro closed
    apply unclosed
    rw [lineTail_append, ← List.append_assoc]
    exact closed.trans (List.prefix_append _ _).isInfix

/-- A walk that comes to a comment on the line below some lines is a walk over these lines, followed
by one over the rest. -/
theorem Reading.exists_split (reading : Reading markers before (rows ++ more) located)
    (whole : Unbroken (rows ++ more))
    (seam : ∃ entry ∈ located, entry.1.first = (before ++ rows).length + 1) :
    ∃ upper lower,
      located = upper.map (fun entry => (entry.1, entry.2.extend (lineTail more))) ++ lower ∧
      Reading markers before rows upper ∧ Reading markers (before ++ rows) more lower := by
  generalize all : rows ++ more = lines at reading
  induction reading generalizing rows with
  | nil =>
      obtain ⟨entry, member, -⟩ := seam
      cases member
  | passed opensNone rest ih =>
      rename_i before later row located
      cases rows with
      | nil =>
          obtain rfl := all
          refine ⟨[], located, rfl, .nil, ?_⟩
          rw [List.append_nil]
          exact .passed opensNone rest
      | cons first rows =>
          obtain ⟨rfl, rfl⟩ := List.cons.inj all
          obtain ⟨rowWhole, laterWhole⟩ := unbroken_cons.mp whole
          have lengths : (before ++ first :: rows) = (before ++ [first]) ++ rows := by simp
          rw [lengths] at seam ⊢
          obtain ⟨upper, lower, split, walked, next⟩ := ih laterWhole seam rfl
          exact ⟨upper, lower, split, .passed (matchAt?_eq_none_of_append rowWhole opensNone) walked,
            next⟩
  | comment opening covers rest ih =>
      rename_i before covered below row found located
      cases rows with
      | nil =>
          obtain rfl := all
          refine ⟨[], _, rfl, .nil, ?_⟩
          rw [List.append_nil]
          exact .comment opening covers rest
      | cons first rows =>
          rw [List.cons_append, List.cons.injEq] at all
          obtain ⟨rfl, divided⟩ := all
          -- The comment ends above the seam, since the one at the seam was found after it.
          have fits : covered.length ≤ rows.length := by
            obtain ⟨entry, member, atSeam⟩ := seam
            rw [List.length_append, List.length_cons] at atSeam
            rcases List.mem_cons.mp member with rfl | further
            · dsimp only at atSeam
              omega
            · have beyond := rest.length_lt_first further
              rw [List.length_append, List.length_cons] at beyond
              omega
          have covering : covered <+: rows :=
            List.prefix_of_prefix_length_le ⟨below, divided.symm⟩ (List.prefix_append _ _) fits
          obtain ⟨rows, rfl⟩ := covering
          rw [List.append_assoc, List.append_cancel_left_eq] at divided
          subst divided
          have onward : before ++ first :: (covered ++ rows) = (before ++ first :: covered) ++ rows := by
            rw [List.append_assoc, List.cons_append]
          have belowSeam : ∃ entry ∈ located,
              entry.1.first = ((before ++ first :: covered) ++ rows).length + 1 := by
            obtain ⟨entry, member, atSeam⟩ := seam
            rw [onward] at atSeam
            rcases List.mem_cons.mp member with rfl | further
            · rw [List.length_append, List.length_append, List.length_cons] at atSeam
              dsimp only at atSeam
              omega
            · exact ⟨entry, further, atSeam⟩
          rw [List.cons_append] at whole
          have belowWhole : Unbroken (rows ++ more) := by
            rw [List.append_assoc, unbroken_cons, unbroken_append] at whole
            exact whole.2.2
          rw [← List.append_assoc] at opening
          obtain ⟨found', opens, rfl⟩ := opening.restrict whole (covers ▸ fits)
          obtain ⟨upper, lower, rfl, walked, next⟩ := ih belowWhole belowSeam rfl
          rw [onward]
          exact ⟨_ :: upper, lower, rfl, .comment opens covers walked, next⟩

/-! ### More lines above -/

theorem moved_runAt (offset extra : Nat) (text : Text) :
    (markers.runAt offset text).moved extra = markers.runAt (extra + offset) text := rfl

theorem Opening.moved (opening : Opening markers offset row later found) (extra : Nat) :
    Opening markers (extra + offset) row later (found.moved extra) := by
  cases opening with
  | marked opens =>
      rw [moved_runAt, ← Nat.add_assoc]
      exact .marked opens
  | block unmarked opens closes => exact .block unmarked opens closes
  | behind unmarked unopened occurs =>
      rw [moved_runAt, ← Nat.add_assoc, ← Nat.add_assoc]
      exact .behind unmarked unopened occurs

/-- A walk does not depend on the lines above, except that all offsets and line numbers count
from there. -/
theorem Reading.lowered (reading : Reading markers before rows located) (whole : Unbroken rows)
    (above : List Text) :
    Reading markers (above ++ before) rows
      (located.map fun entry =>
        (entry.1.shift above.length, entry.2.moved (lineHead above).byteSize)) := by
  induction reading with
  | nil => exact .nil
  | passed opensNone rest ih =>
      obtain ⟨rowWhole, laterWhole⟩ := unbroken_cons.mp whole
      refine .passed ?_ ?_
      · rw [matchAt?_eq_none_iff rowWhole] at opensNone ⊢
        exact opensNone
      · rw [List.append_assoc]
        exact ih laterWhole
  | comment opening covers rest ih =>
      rename_i before covered below row found located
      have belowWhole := (unbroken_append.mp (unbroken_cons.mp whole).2).2
      have lowered := ih belowWhole
      rw [← List.append_assoc] at lowered
      have opens := opening.moved (lineHead above).byteSize
      rw [← byteSize_append, ← lineHead_append] at opens
      have range : LineRange.shift
          ⟨before.length + 1, before.length + 1 + covered.length⟩ above.length =
            ⟨(above ++ before).length + 1, (above ++ before).length + 1 + covered.length⟩ := by
        simp only [LineRange.shift, List.length_append, LineRange.mk.injEq]
        omega
      rw [List.map_cons, range]
      exact .comment opens covers lowered

end Markers

/-! ### Extraction -/

/-- Whether a line of a source belongs to a run. -/
def CoveredByRun (markers : Markers) (source : String) (line : Nat) : Prop :=
  ∃ found ∈ markers.scan 0 source.toList, found.shape.isRun = true ∧
    (Extractor.rangeOf (LineMap.ofString source) found).Covers line

instance (markers : Markers) (source : String) (line : Nat) :
    Decidable (CoveredByRun markers source line) :=
  inferInstanceAs (Decidable (∃ _ ∈ _, _))

theorem lines_append_source (upper lower : String) :
    Text.lines (upper ++ "\n" ++ lower).toList =
      Text.lines upper.toList ++ Text.lines lower.toList := by
  have lineBreak : "\n".toList = ['\n'] := rfl
  rw [String.toList_append, String.toList_append, lineBreak, List.append_assoc, List.singleton_append,
    lines_append_break]

theorem lineCount_ofString (source : String) :
    (LineMap.ofString source).lineCount = (Text.lines source.toList).length := by
  rw [LineMap.ofString, LineMap.lineCount_ofText, length_lines]

/-- The comments of a source in two parts, if the walk over the upper one goes on as it would have
ended. -/
theorem Markers.Reading.extract_eq_append {markers : Markers} {upper : String}
    {located : List (LineRange × Match)}
    (reading : Reading markers [] (Text.lines upper.toList) located) (lower : String)
    (closed : ∀ above row below, Text.lines upper.toList = above ++ row :: below →
      (∀ entry ∈ located, ¬ entry.1.Covers (above.length + 1)) →
      ¬ markers.blockOpen <+: row.dropBlanks)
    (stops : ∀ entry ∈ located, entry.2.shape.isRun = true →
      entry.1.last = (Text.lines upper.toList).length →
      ¬ markers.lineDoc <+: (Text.firstLine lower.toList).dropBlanks)
    (context : Context) :
    let extractor : Extractor := ⟨fun _ _ => context, markers⟩
    extractor.extract (upper ++ "\n" ++ lower) = extractor.extract upper ++
      (extractor.extract lower).map (Comment.shift · (LineMap.ofString upper).lineCount) := by
  intro extractor
  obtain ⟨following, next⟩ := exists_reading markers [] (unbroken_lines lower.toList)
  have lowered := next.lowered (unbroken_lines _) (Text.lines upper.toList)
  rw [List.append_nil] at lowered
  have whole : Unbroken (Text.lines upper.toList ++ Text.lines lower.toList) :=
    unbroken_append.mpr ⟨unbroken_lines _, unbroken_lines _⟩
  obtain ⟨rows, split, -⟩ := exists_lines_eq_cons lower.toList
  have ends : ∀ entry ∈ located, entry.2.shape.isRun = true →
      entry.1.last = (Text.lines upper.toList).length →
      ∀ line ∈ (Text.lines lower.toList).head?, markers.continues line = false := by
    intro entry member run last line first
    rw [split] at first
    obtain rfl := Option.some.inj first
    rw [← Bool.not_eq_true, continues_iff]
    exact stops entry member run last
  have both := reading.append whole (fun above row below split _ => closed above row below split)
    ends lowered
  rw [← lines_append_source] at both
  rw [both.extract_eq, reading.extract_eq, next.extract_eq, List.map_append, List.map_map,
    List.map_map, List.map_map, lineCount_ofString]
  rfl

/-- The comments of a source in two parts are those of the parts, if every line of the upper part
that opens a block belongs to a comment and no run goes on at the seam. In particular lines without
markers above a source only move its comments down. -/
theorem extract_append (delimiters : Delimiters) (context : Context) (upper lower : String) :
    let markers := delimiters.markers
    let extractor := Extractor.ofDelimiters (fun _ _ => context) delimiters
    let count := (LineMap.ofString upper).lineCount
    ((∀ above row below, Text.lines upper.toList = above ++ row :: below →
        (∀ comment ∈ extractor.extract upper, ¬ comment.range.Covers (above.length + 1)) →
        ¬ markers.blockOpen <+: row.dropBlanks) →
      (¬ markers.lineDoc <+: (Text.firstLine lower.toList).dropBlanks ∨
        ¬ CoveredByRun markers upper count) →
      extractor.extract (upper ++ "\n" ++ lower) =
        extractor.extract upper ++ (extractor.extract lower).map (Comment.shift · count)) ∧
    ((∀ row ∈ Text.lines upper.toList,
        ¬ markers.lineDoc <:+: row.dropBlanks ∧ ¬ markers.blockOpen <+: row.dropBlanks) →
      extractor.extract (upper ++ "\n" ++ lower) =
        (extractor.extract lower).map (Comment.shift · count)) := by
  intro markers extractor count
  obtain ⟨located, reading⟩ := exists_reading markers [] (unbroken_lines upper.toList)
  have extracted : extractor.extract upper = _ := reading.extract_eq fun _ _ => context
  constructor
  · intro closed stops
    refine reading.extract_eq_append lower ?_ ?_ context
    · intro above row below split outside
      refine closed above row below split ?_
      rw [extracted]
      intro comment member
      obtain ⟨entry, present, rfl⟩ := List.mem_map.mp member
      exact outside entry present
    · rintro ⟨range, found⟩ member run last
      rcases stops with unmarked | uncovered
      · exact unmarked
      · refine absurd ⟨found, ?_, run, ?_⟩ uncovered
        · rw [reading.scan_eq]
          exact List.mem_map_of_mem member
        · rw [LineMap.ofString, reading.rangeOf_eq member]
          have ordered := (reading.range_le_lineCount member).2.1
          have same : range.last = count := last.trans (lineCount_ofString upper).symm
          exact ⟨same ▸ ordered, Nat.le_of_eq same.symm⟩
  · intro free
    have empty := reading.eq_nil_of_unmarked (unbroken_lines _) free
    subst empty
    have composed : extractor.extract (upper ++ "\n" ++ lower) = extractor.extract upper ++
        (extractor.extract lower).map (Comment.shift · count) :=
      reading.extract_eq_append lower (fun above row below split _ => (free row (by simp [split])).2)
        (fun entry member => by cases member) context
    rw [composed, extracted]
    rfl

theorem extract_append_below_block :
    let extractor := Extractor.ofDelimiters (fun _ _ => {}) {}
    extractor.extract "x\n/** a */ y\n/// b" = extractor.extract "x\n/** a */ y" ++
        (extractor.extract "/// b").map (Comment.shift · 2) ∧
      extractor.extract "x\ny\n/// b" = (extractor.extract "/// b").map (Comment.shift · 2) := by
  intro extractor
  refine ⟨(extract_append {} {} "x\n/** a */ y" "/// b").1 ?_ (Or.inr (by decide +kernel)),
    (extract_append {} {} "x\ny" "/// b").2 (by decide +kernel)⟩
  intro above row below split outside
  have two : Text.lines "x\n/** a */ y".toList = ["x".toList, "/** a */ y".toList] := by
    decide +kernel
  rw [two] at split
  rcases above with _ | ⟨first, _ | ⟨second, above⟩⟩
  · obtain ⟨rfl, -⟩ := List.cons.inj split
    decide +kernel
  · have covered : ∃ comment ∈ extractor.extract "x\n/** a */ y", comment.range.Covers 2 := by
      decide +kernel
    obtain ⟨comment, member, covers⟩ := covered
    exact absurd covers (outside comment member)
  · simp at split

end DocComments
