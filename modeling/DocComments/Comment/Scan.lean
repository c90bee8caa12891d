import DocComments.Comment.Shape

/-!
# Locating comments

A text is scanned line by line. A line can open a comment in three ways: it starts with the marker
of documentation lines, or with the opening delimiter of a documentation block that is closed
somewhere, or it has the marker of documentation lines further on. Leading spaces and tabs do not
count. After a comment the scan goes on with the line that follows its last one.

The text behind a `Match` is never longer than the text that was searched
(`length_rest_le_of_matchAt?`), which is why the scan ends.
-/

namespace DocComments

/-- A comment located in a text. Offsets count bytes from the start of the source. -/
structure Match where
  /-- Where the comment starts. A block starts with the indentation of its line. -/
  start : Nat
  /-- The comment as it is written. -/
  raw : Text
  /-- What stands between the marks. -/
  shape : Shape
  /-- What follows the comment. -/
  rest : Text
deriving DecidableEq, Repr

/-- Where the comment ends. -/
def Match.stop (found : Match) : Nat := found.start + found.raw.byteSize

namespace Markers

variable (markers : Markers)

/-- What a line of a run says, if the line starts with the marker. -/
def runText? (line : Text) : Option Text :=
  (Text.after? markers.lineDoc line.dropBlanks).map Text.dropReturn

/-- The run of marked lines at the start of a text that stands at `offset`. -/
def runAt (offset : Nat) (text : Text) : Match :=
  let taken := text.lines.takeWhile fun line => (markers.runText? line).isSome
  let raw := Text.joinLines taken
  { start := offset
    raw
    shape := .run (taken.filterMap markers.runText?)
    rest := text.drop raw.length }

/-- A body split into what stands before the marker characters at its end, and their number. -/
def splitExtra (body : Text) : Text × Nat :=
  let reversed := body.reverse
  ((reversed.dropWhile (· == markers.blockChar)).reverse,
    (reversed.takeWhile (· == markers.blockChar)).length)

/-- The block at the start of a text that stands at `offset`, where `indent` is the indentation of
its line and `inner` what follows the opening delimiter. It is closed by the first closing delimiter
in `inner`. -/
def blockAt? (offset : Nat) (indent inner : Text) : Option Match :=
  (Text.cut? markers.blockClose inner).map fun (between, rest) =>
    let (body, extra) := markers.splitExtra between
    { start := offset
      raw := indent ++ markers.blockOpen ++ between ++ markers.blockClose
      shape := .block body extra
      rest }

/-- The comment that opens on the first line of a text that stands at `offset`. -/
def matchAt? (offset : Nat) (text : Text) : Option Match :=
  let indent := text.takeBlanks
  let code := text.dropBlanks
  let line := code.firstLine
  if Text.opensWith markers.lineDoc line then
    some (markers.runAt (offset + indent.byteSize) code)
  else if Text.opensWith markers.blockOpen line then
    markers.blockAt? offset indent (code.drop markers.blockOpen.length)
  else
    (Text.cut? markers.lineDoc line).map fun (before, _) =>
      markers.runAt (offset + indent.byteSize + before.byteSize) (code.drop before.length)

theorem length_rest_runAt_le (offset : Nat) (text : Text) :
    (markers.runAt offset text).rest.length ≤ text.length := by
  simp [runAt]

/-- What follows a comment is no longer than the text in which it was found. -/
theorem length_rest_le_of_matchAt? {offset : Nat} {text : Text} {found : Match}
    (located : markers.matchAt? offset text = some found) :
    found.rest.length ≤ text.length := by
  have shorter : text.dropBlanks.length ≤ text.length :=
    (List.dropWhile_sublist Text.isBlank).length_le
  unfold matchAt? at located
  dsimp only at located
  split at located
  · obtain rfl := Option.some.inj located
    exact Nat.le_trans (markers.length_rest_runAt_le _ _) shorter
  · split at located
    · simp only [blockAt?, Option.map_eq_some_iff] at located
      obtain ⟨⟨between, rest⟩, cut, rfl⟩ := located
      have left := Text.length_le_of_cut? cut
      rw [List.length_drop] at left
      exact Nat.le_trans left (Nat.le_trans (Nat.sub_le _ _) shorter)
    · simp only [Option.map_eq_some_iff] at located
      obtain ⟨⟨before, after⟩, _, rfl⟩ := located
      refine Nat.le_trans (markers.length_rest_runAt_le _ _) (Nat.le_trans ?_ shorter)
      simp

/-- All comments of a text that stands at `offset`, at the start of a line. -/
def scan (offset : Nat) (text : Text) : List Match :=
  match _ : markers.matchAt? offset text with
  | some found =>
    match _ : found.rest.nextLines? with
    | some next => found :: scan (found.stop + found.rest.firstLine.byteSize + 1) next
    | none => [found]
  | none =>
    match _ : text.nextLines? with
    | some next => scan (offset + text.firstLine.byteSize + 1) next
    | none => []
termination_by text.length
decreasing_by
  · exact Nat.lt_of_lt_of_le (Text.length_lt_of_nextLines? ‹_›)
      (markers.length_rest_le_of_matchAt? ‹_›)
  · exact Text.length_lt_of_nextLines? ‹_›

end Markers

end DocComments
