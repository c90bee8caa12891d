import DocComments.Proofs.Comment.Decoding
import DocComments.Proofs.Comment.Extraction

/-!
# Offsets and line numbers

An offset of a match is right if the text between it and the next one is the one that is meant:
`Text.SliceAt`. All else that is asked of offsets follows from this, that they ascend, that they lie
in the source and that no character is cut in two. `Match.Spans` collects the offsets of a match, and
`Reading.spans` shows that they are right. The main statement, `extract_offsets_agree`, adds that the
ranges of the comments and the lookups of the resolver give the lines of these offsets, and that the
resolver is called with these lookups, one after the other.
-/

namespace DocComments

open Text Markers

/-! ### Slices -/

/-- Whether `slice` is what stands between two offsets of a text. -/
def Text.SliceAt (text : Text) (first last : Nat) (slice : Text) : Prop :=
  ∃ front back, text = front ++ slice ++ back ∧ first = front.byteSize ∧
    last = first + slice.byteSize

namespace Text.SliceAt

variable {source : String} {text slice : Text} {first last : Nat}

theorem le (slices : SliceAt text first last slice) : first ≤ last := by
  obtain ⟨front, back, -, -, rfl⟩ := slices
  exact Nat.le_add_right _ _

theorem le_size (slices : SliceAt source.toList first last slice) :
    last ≤ source.utf8ByteSize := by
  obtain ⟨front, back, parts, rfl, rfl⟩ := slices
  rw [← byteSize_toList, parts, byteSize_append, byteSize_append]
  exact Nat.le_add_right _ _

theorem split {left right : Text} (slices : SliceAt text first last (left ++ right)) :
    SliceAt text first (first + left.byteSize) left ∧
      SliceAt text (first + left.byteSize) last right := by
  obtain ⟨front, back, parts, rfl, rfl⟩ := slices
  constructor
  · exact ⟨front, right ++ back, by simp [parts], rfl, rfl⟩
  · refine ⟨front ++ left, back, by simp [parts], (byteSize_append _ _).symm, ?_⟩
    rw [byteSize_append, Nat.add_assoc]

theorem isValid_first (slices : SliceAt source.toList first last slice) :
    (String.Pos.Raw.mk first).IsValid source := by
  obtain ⟨front, back, parts, rfl, -⟩ := slices
  rw [List.append_assoc] at parts
  exact isValid_byteSize parts

theorem isValid_last (slices : SliceAt source.toList first last slice) :
    (String.Pos.Raw.mk last).IsValid source := by
  obtain ⟨front, back, parts, rfl, rfl⟩ := slices
  rw [← byteSize_append]
  exact isValid_byteSize parts

end Text.SliceAt

/-! ### The offsets of a match -/

namespace Match

/-- Where the body of a block starts: behind the indentation and the opening delimiter. -/
def bodyStart (markers : Markers) (found : Match) : Nat :=
  found.start + found.raw.takeBlanks.byteSize + markers.blockOpen.byteSize

/-- Where the closing delimiter of a block starts. -/
def closeStart (markers : Markers) (found : Match) : Nat :=
  found.stop - markers.blockClose.byteSize

/-- Where the body of a block ends, if `extra` marker characters follow it. -/
def bodyStop (markers : Markers) (found : Match) (extra : Nat) : Nat :=
  found.closeStart markers - extra * markers.blockChar.utf8Size

/-- The offsets of a match are right. -/
structure Spans (markers : Markers) (source : String) (found : Match) : Prop where
  raw : SliceAt source.toList found.start found.stop found.raw
  rest : SliceAt source.toList found.stop source.utf8ByteSize found.rest
  block : ∀ body extra, found.shape = .block body extra →
    SliceAt source.toList (found.bodyStart markers) (found.bodyStop markers extra) body ∧
    SliceAt source.toList (found.bodyStop markers extra) (found.closeStart markers)
      (List.replicate extra markers.blockChar) ∧
    SliceAt source.toList (found.closeStart markers) found.stop markers.blockClose

/-- The offsets of a match ascend, and each is a boundary between characters of the source. -/
structure Bounded (markers : Markers) (source : String) (found : Match) : Prop where
  start_le : found.start ≤ found.stop
  stop_le : found.stop ≤ source.utf8ByteSize
  start_isValid : (String.Pos.Raw.mk found.start).IsValid source
  stop_isValid : (String.Pos.Raw.mk found.stop).IsValid source
  block : ∀ body extra, found.shape = .block body extra →
    found.bodyStart markers ≤ found.bodyStop markers extra ∧
    found.bodyStop markers extra ≤ found.closeStart markers ∧
    extra * markers.blockChar.utf8Size ≤ found.closeStart markers ∧
    found.closeStart markers ≤ found.stop ∧
    (String.Pos.Raw.mk (found.bodyStart markers)).IsValid source ∧
    (String.Pos.Raw.mk (found.bodyStop markers extra)).IsValid source ∧
    (String.Pos.Raw.mk (found.closeStart markers)).IsValid source

end Match

theorem byteSize_replicate (count : Nat) (c : Char) :
    byteSize (List.replicate count c) = count * c.utf8Size := by
  induction count with
  | zero => simp
  | succ count ih => rw [List.replicate_succ, byteSize_cons, ih, Nat.succ_mul, Nat.add_comm]

theorem Match.Spans.bounded {markers : Markers} {source : String} {found : Match}
    (spans : found.Spans markers source) : found.Bounded markers source := by
  refine ⟨spans.raw.le, spans.raw.le_size, spans.raw.isValid_first, spans.raw.isValid_last, ?_⟩
  intro body extra block
  obtain ⟨inside, repeated, close⟩ := spans.block body extra block
  have enough : extra * markers.blockChar.utf8Size ≤ found.closeStart markers := by
    obtain ⟨-, -, -, -, closeStart⟩ := repeated
    rw [closeStart, byteSize_replicate]
    exact Nat.le_add_left _ _
  exact ⟨inside.le, repeated.le, enough, close.le, inside.isValid_first, inside.isValid_last,
    close.isValid_first⟩

namespace Markers

variable {markers : Markers} {offset : Nat} {row : Text} {later : List Text} {found : Match}

theorem takeBlanks_takeBlanks_append {marker : Text} (row rest : Text) (inhabited : marker ≠ [])
    (opens : marker <+: row.dropBlanks) :
    takeBlanks (row.takeBlanks ++ (marker ++ rest)) = row.takeBlanks := by
  have blank : ∀ c ∈ row.takeBlanks, isBlank c = true := fun c member =>
    List.mem_takeWhile_imp member
  obtain ⟨c, tail, rfl⟩ := List.exists_cons_of_ne_nil inhabited
  have visible : ¬ isBlank c = true := fun blank =>
    not_isPrefix_dropBlanks_of_blank blank tail row opens
  rw [takeBlanks, List.takeWhile_append_of_pos blank, List.cons_append,
    List.takeWhile_cons_of_neg visible, List.append_nil]

/-- The parts of a block. -/
theorem Opening.raw_of_block (opening : Opening markers offset row later found)
    (inhabited : markers.blockOpen ≠ []) {body : Text} {extra : Nat}
    (block : found.shape = .block body extra) :
    found.raw = found.raw.takeBlanks ++ (markers.blockOpen ++
      (body ++ (List.replicate extra markers.blockChar ++ markers.blockClose))) := by
  cases opening with
  | marked opens => cases block
  | behind unmarked unopened occurs => cases block
  | block unmarked opens closes =>
      rename_i tail between rest
      obtain ⟨rfl, rfl⟩ := Shape.block.inj block
      have parts : (markers.blockMatch offset row.takeBlanks between rest).raw =
          row.takeBlanks ++ (markers.blockOpen ++ (between ++ markers.blockClose)) := by
        simp only [blockMatch, List.append_assoc]
      rw [parts, takeBlanks_takeBlanks_append _ _ inhabited ⟨tail, opens.symm⟩,
        ← List.append_assoc (markers.splitExtra between).1, append_replicate_splitExtra]

theorem Reading.spans {source : String} {located : List (LineRange × Match)} {range : LineRange}
    (reading : Reading markers [] (Text.lines source.toList) located)
    (inhabited : markers.blockOpen ≠ []) (member : (range, found) ∈ located) :
    found.Spans markers source := by
  obtain ⟨front, whole, start, -⟩ := reading.exists_front member
  obtain ⟨_, _, _, _, -, -, opening, -⟩ := reading.opening_of_mem member
  have size := congrArg byteSize whole
  rw [byteSize_toList, byteSize_append, byteSize_append] at size
  have raw : SliceAt source.toList found.start found.stop found.raw :=
    ⟨front, found.rest, whole, start, rfl⟩
  refine ⟨raw, ⟨front ++ found.raw, [], ?_, ?_, ?_⟩, ?_⟩
  · rw [List.append_nil, ← whole]
  · rw [Match.stop, start, byteSize_append]
  · rw [size, Match.stop, start]
  · intro body extra block
    have parts := opening.raw_of_block inhabited block
    have length := congrArg byteSize parts
    simp only [byteSize_append, byteSize_replicate] at length
    have bodyStop : found.bodyStop markers extra = found.bodyStart markers + body.byteSize := by
      simp only [Match.bodyStop, Match.closeStart, Match.bodyStart, Match.stop]
      omega
    have closeStart : found.closeStart markers = found.bodyStop markers extra +
        byteSize (List.replicate extra markers.blockChar) := by
      rw [bodyStop, byteSize_replicate]
      simp only [Match.closeStart, Match.bodyStart, Match.stop]
      omega
    rw [parts] at raw
    obtain ⟨-, opened⟩ := raw.split
    obtain ⟨-, inner⟩ := opened.split
    obtain ⟨inside, ending⟩ := inner.split
    obtain ⟨repeated, close⟩ := ending.split
    rw [closeStart, bodyStop]
    exact ⟨inside, repeated, close⟩

/-- What follows a comment is an end of the text that was searched. -/
theorem Reading.rest_isSuffix {before rows : List Text} {located : List (LineRange × Match)}
    (reading : Reading markers before rows located) (whole : Unbroken rows)
    {entry : LineRange × Match} (member : entry ∈ located) : entry.2.rest <:+ joinLines rows := by
  obtain ⟨above, row, covered, below, split, further, opening, -⟩ := reading.opening_of_mem member
  obtain ⟨passed, rfl⟩ : ∃ passed, above = before ++ passed := by
    have first : before <+: above ++ row :: (covered ++ below) := ⟨rows, split⟩
    obtain ⟨passed, same⟩ := List.prefix_of_prefix_length_le first (List.prefix_append _ _) further
    exact ⟨passed, same.symm⟩
  rw [List.append_assoc, List.append_cancel_left_eq] at split
  subst split
  obtain ⟨lead, -, parts, -⟩ := opening.placed (whole row (by simp))
  rw [lineHead_append_joinLines passed (List.cons_ne_nil _ _), joinLines_cons, parts,
    ← List.append_assoc]
  exact List.suffix_append _ _

/-- Every comment leaves less of the text behind it than the one before. -/
theorem Reading.pairwise_rest {before rows : List Text} {located : List (LineRange × Match)}
    (reading : Reading markers before rows located) (whole : Unbroken rows) :
    located.Pairwise fun upper lower =>
      lower.2.rest <:+ upper.2.rest ∧ lower.2.rest ≠ upper.2.rest := by
  induction reading with
  | nil => exact List.Pairwise.nil
  | passed _ _ ih => exact ih (unbroken_cons.mp whole).2
  | comment opening covers rest ih =>
      rename_i before covered below row found located
      have belowWhole := (unbroken_append.mp (unbroken_cons.mp whole).2).2
      refine List.pairwise_cons.mpr ⟨?_, ih belowWhole⟩
      intro entry member
      obtain ⟨covered', below', lead, trail, same, covers', -, -, -, -, left⟩ :=
        opening.stretch whole
      obtain ⟨rfl, rfl⟩ := List.append_inj same (covers.trans covers'.symm)
      have inhabited : below ≠ [] := by
        rintro rfl
        cases rest
        cases member
      rw [lineTail_eq_cons_joinLines inhabited] at left
      have suffix := rest.rest_isSuffix belowWhole member
      constructor
      · rw [left]
        exact (suffix.trans (List.suffix_cons _ _)).trans (List.suffix_append _ _)
      · intro equal
        have size := suffix.length_le
        rw [equal, left, List.length_append, List.length_cons] at size
        omega

/-! ### The lines of a match -/

section

variable {text : Text} {located : List (LineRange × Match)} {range : LineRange}

theorem Reading.range_eq_lineAt (reading : Reading markers [] text.lines located)
    (member : (range, found) ∈ located) :
    range = ⟨(LineMap.ofText text).lineAt found.start, (LineMap.ofText text).lineAt found.stop⟩ := by
  obtain ⟨front, whole, start, rfl⟩ := reading.exists_front member
  have first := LineMap.lineAt_ofText_byteSize front (found.raw ++ found.rest)
  have last := LineMap.lineAt_ofText_byteSize (front ++ found.raw) found.rest
  rw [← List.append_assoc, ← whole, ← start] at first
  rw [← whole, byteSize_append, ← start, ← Match.stop, breaks_append] at last
  rw [first, last, Nat.add_right_comm]

/-- A lookup that starts behind a match counts on from the last line of the match. -/
theorem Reading.lineAt_lookup (reading : Reading markers [] text.lines located)
    (member : (range, found) ∈ located) (fits : text.byteSize ≤ maxOffset) (offset : Nat) :
    LineLookup.lineAt ⟨LineMap.ofText text, found.stop⟩ offset =
      (LineMap.ofText text).lineAt found.stop + ((bytes found.rest).take offset).count 10 := by
  obtain ⟨front, whole, start, -⟩ := reading.exists_front member
  have stop : found.stop = (front ++ found.raw).byteSize := by
    rw [Match.stop, start, byteSize_append]
  rw [whole] at fits
  rw [whole, stop, LineMap.lineAt_lookup fits, LineMap.lineAt_ofText_byteSize]

end

end Markers

/-- The markers of documentation blocks are not empty, whatever the delimiters. -/
theorem Delimiters.blockOpen_ne_nil (delimiters : Delimiters) :
    delimiters.markers.blockOpen ≠ [] :=
  List.append_ne_nil_of_right_ne_nil _ (List.cons_ne_nil _ _)

/-- The offsets of the matches, the ranges of the comments and the lookups that the resolver gets
agree, and the resolver, whatever else it does, is called once for each match, in order. A source is
never larger than the greatest offset, but only the lookups depend on it. -/
theorem extract_offsets_agree (delimiters : Delimiters) (source : String) :
    let markers := delimiters.markers
    let map := LineMap.ofString source
    let located := markers.scan 0 source.toList
    (∀ found ∈ located, found.Spans markers source ∧ found.Bounded markers source) ∧
    (∀ resolver,
      let comments := (Extractor.ofDelimiters resolver delimiters).extract source
      comments.map Comment.range =
        located.map (fun found => ⟨map.lineAt found.start, map.lineAt found.stop⟩) ∧
      comments.map Comment.context =
        located.map (fun found => resolver (String.ofList found.rest) ⟨map, found.stop⟩) ∧
      (∀ comment ∈ comments, 1 ≤ comment.range.first ∧
        comment.range.first ≤ comment.range.last ∧ comment.range.last ≤ map.lineCount) ∧
      comments.Pairwise fun upper lower => upper.range.last < lower.range.first) ∧
    (∀ (m : Type → Type) [Monad m] [LawfulMonad m] (resolver : ResolverM m)
        (calls : List Resolver.Call),
      (markers.extractM resolver.recorded source).run calls =
        (fun comments => (comments, calls ++ located.map fun found =>
          ⟨String.ofList found.rest, ⟨map, found.stop⟩⟩)) <$> markers.extractM resolver source) ∧
    (located.Pairwise fun upper lower => lower.rest <:+ upper.rest ∧ lower.rest ≠ upper.rest) ∧
    (source.utf8ByteSize ≤ maxOffset → ∀ found ∈ located, ∀ offset,
      let suffix := String.ofList found.rest
      LineLookup.lineAt ⟨map, found.stop⟩ offset = map.lineAt found.stop +
        (suffix.toUTF8.data.toList.take (min offset suffix.utf8ByteSize)).count '\n'.toUInt8) := by
  intro markers map located
  have whole := unbroken_lines source.toList
  obtain ⟨entries, reading⟩ := exists_reading markers [] whole
  have same : located = entries.map Prod.snd := reading.scan_eq
  refine ⟨?_, ?_, fun m _ _ resolver calls => markers.extractM_recorded resolver source calls, ?_, ?_⟩
  · intro found member
    rw [same] at member
    obtain ⟨⟨range, found⟩, present, rfl⟩ := List.mem_map.mp member
    have spans := reading.spans delimiters.blockOpen_ne_nil present
    exact ⟨spans, spans.bounded⟩
  · intro resolver comments
    have mapped : comments = _ := reading.extract_eq resolver
    refine ⟨?_, ?_, ?_, ?_⟩
    · rw [mapped, same, List.map_map, List.map_map]
      apply List.map_congr_left
      rintro ⟨range, found⟩ member
      exact reading.range_eq_lineAt member
    · rw [mapped, same, List.map_map, List.map_map]
      rfl
    · intro comment member
      rw [mapped] at member
      obtain ⟨⟨range, found⟩, present, rfl⟩ := List.mem_map.mp member
      exact reading.range_le_lineCount present
    · rw [mapped, List.pairwise_map]
      exact reading.pairwise_ranges
  · rw [same, List.pairwise_map]
    exact reading.pairwise_rest whole
  · intro fits found member offset suffix
    rw [same] at member
    obtain ⟨⟨range, found⟩, present, rfl⟩ := List.mem_map.mp member
    rw [← byteSize_toList] at fits
    have written : bytes found.rest = suffix.toUTF8.data.toList := by
      rw [← bytes_toList, String.toList_ofList]
    have size : (bytes found.rest).length = suffix.utf8ByteSize := by
      rw [length_bytes, ← byteSize_toList, String.toList_ofList]
    have counted := reading.lineAt_lookup present fits offset
    rw [List.take_eq_take_min, size, written] at counted
    exact counted

theorem extract_offsets_agree_accented :
    let source := "/** é **/ ü\nß"
    let found : Match := ⟨0, "/** é **/".toList, .block " é ".toList 1, " ü\nß".toList⟩
    let markers := ({} : Delimiters).markers
    let counting : ResolverM (StateM Nat) := fun _ _ => do
      modify (· + 1)
      return {}
    found ∈ markers.scan 0 source.toList ∧
      found.Spans markers source ∧
      LineLookup.lineAt ⟨LineMap.ofString source, 10⟩ 4 = 2 ∧
      let ran := ((markers.extractM counting.recorded source).run []).run 0
      ran.1.2 = [⟨" ü\nß", ⟨LineMap.ofString source, 10⟩⟩] ∧ ran.2 = 1 := by
  intro source found markers counting
  have fits : source.utf8ByteSize ≤ maxOffset := by decide +kernel
  have alone : markers.scan 0 source.toList = [found] := by decide +kernel
  have member : found ∈ markers.scan 0 source.toList := alone ▸ List.mem_singleton_self found
  have agree := extract_offsets_agree {} source
  have lookup := agree.2.2.2.2 fits found member 4
  have recorded := agree.2.2.1 (StateM Nat) counting []
  refine ⟨member, (agree.1 found member).1, lookup.trans (by decide +kernel), ?_⟩
  intro ran
  have result : ran = _ := congrArg (·.run 0) recorded
  rw [result, alone, Markers.extractM, alone]
  exact ⟨rfl, rfl⟩

end DocComments
