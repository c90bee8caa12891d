import DocComments.Comment.Extractor
import DocComments.Proofs.Comment.Reading
import DocComments.Proofs.Text.LineNumbers

/-!
# Extraction as a walk over lines

The extractor scans a source and then asks its line map for the lines of each match. The answers are
the line numbers that `Markers.Reading` counts: `Reading.rangeOf_eq`. Hence the comments of a source
are those of one walk over its lines, for every resolver: `Reading.extract_eq`. Each of them opens
on the first line of its range: `Extractor.exists_opening`.

The calls of a resolver are told by the resolver itself: `ResolverM.recorded` writes each of them
down, and `extractM_recorded` says which these are, whatever monad the resolver belongs to.
-/

namespace DocComments

open Text Markers

variable {markers : Markers} {text : Text} {located : List (LineRange × Match)}
  {range : LineRange} {found : Match}

namespace Markers

/-- A comment that was found is a piece of the text. -/
theorem Reading.exists_front (reading : Reading markers [] text.lines located)
    (member : (range, found) ∈ located) :
    ∃ front, text = front ++ found.raw ++ found.rest ∧ found.start = front.byteSize ∧
      range = ⟨front.breaks + 1, front.breaks + 1 + found.raw.breaks⟩ := by
  obtain ⟨above, row, covered, below, split, -, opening, covers, rfl⟩ :=
    reading.opening_of_mem member
  rw [List.nil_append] at split
  have whole := unbroken_lines text
  rw [split, unbroken_append] at whole
  obtain ⟨lead, leadWhole, parts, start⟩ := opening.placed (unbroken_cons.mp whole.2).1
  refine ⟨lineHead above ++ lead, ?_, ?_, ?_⟩
  · rw [← joinLines_lines text, split, lineHead_append_joinLines above (List.cons_ne_nil _ _),
      joinLines_cons, parts]
    simp
  · rw [start, byteSize_append]
  · rw [breaks_append, breaks_lineHead whole.1, breaks_eq_zero.mpr leadWhole, covers, Nat.add_zero]

/-- The lines of a match that the line map gives are those that the walk counts. -/
theorem Reading.rangeOf_eq (reading : Reading markers [] text.lines located)
    (member : (range, found) ∈ located) :
    Extractor.rangeOf (LineMap.ofText text) found = range := by
  obtain ⟨front, whole, start, rfl⟩ := reading.exists_front member
  rw [Extractor.rangeOf, start, whole, List.append_assoc, LineMap.lineAt_ofText_byteSize]

theorem Reading.range_le_lineCount (reading : Reading markers [] text.lines located)
    (member : (range, found) ∈ located) :
    1 ≤ range.first ∧ range.first ≤ range.last ∧ range.last ≤ (LineMap.ofText text).lineCount := by
  obtain ⟨front, whole, -, rfl⟩ := reading.exists_front member
  have count := LineMap.lineCount_ofText text
  rw [congrArg breaks whole, breaks_append, breaks_append] at count
  dsimp only
  omega

end Markers

namespace Extractor

/-- The comment that an extractor makes of a match. -/
def commentOf (extractor : Extractor) (map : LineMap) (range : LineRange) (found : Match) :
    Comment where
  lines := (found.shape.lines extractor.markers).map String.ofList
  role := found.shape.role extractor.markers
  range := range
  context := extractor.resolver (String.ofList found.rest) ⟨map, found.stop⟩

end Extractor

namespace Markers

variable {source : String}

theorem Reading.scan_eq (reading : Reading markers [] (Text.lines source.toList) located) :
    markers.scan 0 source.toList = located.map Prod.snd := by
  have scanned := scan_eq_of_reading reading (unbroken_lines _) (lines_ne_nil _)
  rw [joinLines_lines] at scanned
  exact scanned

/-- The comments of a source are those of a walk over its lines, which does not depend on the
resolver. -/
theorem Reading.extract_eq (reading : Reading markers [] (Text.lines source.toList) located)
    (resolver : Resolver) :
    Extractor.extract ⟨resolver, markers⟩ source = located.map fun entry =>
      Extractor.commentOf ⟨resolver, markers⟩ (LineMap.ofString source) entry.1 entry.2 := by
  rw [Extractor.extract_eq_map, reading.scan_eq, List.map_map]
  apply List.map_congr_left
  rintro ⟨range, found⟩ member
  rw [Function.comp_apply, LineMap.ofString, Match.toComment, reading.rangeOf_eq member]
  rfl

theorem Reading.extract_joinLines {rows : List Text} (reading : Reading markers [] rows located)
    (whole : Unbroken rows) (inhabited : rows ≠ []) (resolver : Resolver) :
    let source := String.ofList (joinLines rows)
    Extractor.extract ⟨resolver, markers⟩ source = located.map fun entry =>
      Extractor.commentOf ⟨resolver, markers⟩ (LineMap.ofString source) entry.1 entry.2 := by
  intro source
  have split : Text.lines source.toList = rows := by
    rw [String.toList_ofList, lines_joinLines whole inhabited]
  rw [← split] at reading
  exact reading.extract_eq resolver

end Markers

/-- A comment of a source opens on the first line of its range, and the range has as many further
lines as the comment has line breaks. -/
theorem Extractor.exists_opening {extractor : Extractor} {source : String} {comment : Comment}
    (member : comment ∈ extractor.extract source) :
    ∃ above row covered below found,
      Text.lines source.toList = above ++ row :: (covered ++ below) ∧
      Unbroken (row :: (covered ++ below)) ∧
      Opening extractor.markers (lineHead above).byteSize row (covered ++ below) found ∧
      covered.length = found.raw.breaks ∧
      comment = extractor.commentOf (LineMap.ofString source)
        ⟨above.length + 1, above.length + 1 + covered.length⟩ found := by
  have whole := unbroken_lines source.toList
  obtain ⟨located, reading⟩ := exists_reading extractor.markers [] whole
  rw [show extractor.extract source = _ from reading.extract_eq extractor.resolver] at member
  obtain ⟨⟨range, found⟩, present, rfl⟩ := List.mem_map.mp member
  obtain ⟨above, row, covered, below, split, -, opening, covers, rfl⟩ :=
    reading.opening_of_mem present
  rw [List.nil_append] at split
  rw [split, unbroken_append] at whole
  exact ⟨above, row, covered, below, found, split, whole.2, opening, covers, rfl⟩

/-! ### The calls of the resolver -/

/-- What a resolver is called with. -/
structure Resolver.Call where
  /-- The code behind a comment. -/
  rest : String
  /-- The line numbers in it. -/
  lines : LineLookup

/-- A resolver that writes down each call before it answers. -/
def ResolverM.recorded {m : Type → Type} [Monad m] (resolver : ResolverM m) :
    ResolverM (StateT (List Resolver.Call) m) := fun rest lines => do
  modify fun calls => calls ++ [⟨rest, lines⟩]
  resolver rest lines

section

variable {m : Type → Type} [Monad m] [LawfulMonad m]

theorem ResolverM.recorded_run (resolver : ResolverM m) (rest : String) (lines : LineLookup)
    (calls : List Resolver.Call) :
    (resolver.recorded rest lines).run calls =
      (fun context => (context, calls ++ [⟨rest, lines⟩])) <$> resolver rest lines := by
  simp [ResolverM.recorded]

/-- The resolver is called once for each comment that is found, in order, with the code behind the
comment. To write the calls down changes nothing else. -/
theorem Markers.extractM_recorded (markers : Markers) (resolver : ResolverM m) (source : String)
    (calls : List Resolver.Call) :
    (markers.extractM resolver.recorded source).run calls =
      (fun comments => (comments, calls ++ (markers.scan 0 source.toList).map fun found =>
        ⟨String.ofList found.rest, ⟨LineMap.ofString source, found.stop⟩⟩)) <$>
        markers.extractM resolver source := by
  unfold Markers.extractM
  dsimp only
  -- Each comment finds the calls for the comments before it written down.
  induction markers.scan 0 source.toList generalizing calls with
  | nil => simp
  | cons found located ih =>
      simp only [List.mapM_cons, bind_assoc, pure_bind, StateT.run_bind, StateT.run_pure,
        ResolverM.recorded_run, ih, map_eq_pure_bind, List.map_cons, List.append_assoc,
        List.singleton_append]

end

end DocComments
