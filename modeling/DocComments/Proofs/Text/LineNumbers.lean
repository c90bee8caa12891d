import DocComments.Proofs.Text.Lines
import DocComments.Text.LineMap

/-!
# Line numbers count line breaks

A `LineMap` finds the line of an offset by a binary search among the recorded starts. The number it
gives is one more than the number of `\n` bytes before the offset, for every offset, also inside a
character and past the end: `lineAt_ofText`. A lookup from an anchor counts on from the line of the
anchor: `lineAt_lookup`. `lineAt_counts` says what follows for a source as a whole.
-/

namespace DocComments

namespace Text

/-! ### Bytes -/

/-- The UTF-8 bytes of a text. -/
def bytes (text : Text) : List UInt8 := text.flatMap String.utf8EncodeChar

theorem bytes_toList (source : String) : bytes source.toList = source.toUTF8.data.toList := by
  have encoded : source.toByteArray = source.toList.utf8Encode := by
    rw [← String.toByteArray_ofList, String.ofList_toList]
  rw [String.toUTF8_eq_toByteArray, encoded, List.utf8Encode, List.data_toByteArray]
  rfl

theorem bytes_cons (c : Char) (text : Text) :
    bytes (c :: text) = String.utf8EncodeChar c ++ bytes text := by
  simp [bytes]

theorem bytes_append (first second : Text) : bytes (first ++ second) = bytes first ++ bytes second :=
  List.flatMap_append

theorem length_bytes (text : Text) : (bytes text).length = byteSize text := by
  induction text with
  | nil => rfl
  | cons c text ih =>
      rw [bytes_cons, List.length_append, String.length_utf8EncodeChar, ih, byteSize_cons]

theorem byteSize_toList (source : String) : byteSize source.toList = source.utf8ByteSize := by
  rw [← length_bytes, bytes_toList]
  rfl

/-- The end of a first part of a source is a boundary between two characters. -/
theorem isValid_byteSize {source : String} {front back : Text} (parts : source.toList = front ++ back) :
    (String.Pos.Raw.mk front.byteSize).IsValid source := by
  refine String.Pos.Raw.isValid_iff_exists_append.mpr
    ⟨String.ofList front, String.ofList back, ?_, ?_⟩
  · rw [← String.ofList_append, ← parts, String.ofList_toList]
  · have size := byteSize_toList (String.ofList front)
    rw [String.toList_ofList] at size
    rw [size]
    rfl

/-- The byte of an ASCII character is part of no other character. -/
theorem not_mem_utf8EncodeChar_of_ascii {c d : Char} (ascii : d.val.toNat < 128) (other : c ≠ d) :
    d.toUInt8 ∉ String.utf8EncodeChar c := by
  have value : c.val.toNat ≠ d.val.toNat := fun same => other (Char.toNat_inj.mp same)
  have byte : d.toUInt8.toNat = d.val.toNat := by
    rw [Char.toUInt8, UInt32.toNat_toUInt8]
    omega
  intro member
  have equal : ∃ code, (code < 256 ∧ code ≠ d.val.toNat) ∧ d.toUInt8 = UInt8.ofNat code := by
    simp only [String.utf8EncodeChar] at member
    split at member
    next short =>
      rw [List.mem_singleton] at member
      exact ⟨c.val.toNat, ⟨by omega, value⟩, member⟩
    next =>
      -- Every byte of a longer encoding has its highest bit set.
      split at member
      next =>
        simp only [List.mem_cons, List.not_mem_nil, or_false] at member
        rcases member with here | here <;> exact ⟨_, by omega, here⟩
      next =>
        split at member
        next =>
          simp only [List.mem_cons, List.not_mem_nil, or_false] at member
          rcases member with here | here | here <;> exact ⟨_, by omega, here⟩
        next =>
          simp only [List.mem_cons, List.not_mem_nil, or_false] at member
          rcases member with here | here | here | here <;> exact ⟨_, by omega, here⟩
  obtain ⟨code, ⟨small, different⟩, same⟩ := equal
  have codes := congrArg UInt8.toNat same
  rw [byte, UInt8.toNat_ofNat', Nat.mod_eq_of_lt small] at codes
  exact different codes.symm

/-- The byte of a line break is part of no other character. -/
theorem not_mem_utf8EncodeChar {c : Char} (other : c ≠ '\n') : 10 ∉ String.utf8EncodeChar c :=
  not_mem_utf8EncodeChar_of_ascii (by decide) other

theorem count_bytes (text : Text) : (bytes text).count 10 = breaks text := by
  induction text with
  | nil => rfl
  | cons c text ih =>
      rw [bytes_cons, List.count_append, ih]
      by_cases isBreak : c = '\n'
      · subst isBreak
        rw [breaks_cons_break, Nat.add_comm]
        rfl
      · rw [List.count_eq_zero.mpr (not_mem_utf8EncodeChar isBreak), Nat.zero_add, breaks, breaks,
          List.count_cons_of_ne isBreak]

end Text

namespace LineMap

open Text

/-! ### Binary search -/

/-- Where a property holds up to some index and fails from there on, the search finds that index. -/
theorem partitionPoint_eq {holds : Nat → Bool} {low high point : Nat} (above : low ≤ point)
    (below : point ≤ high) (upTo : ∀ i < point, holds i = true)
    (fromThere : ∀ i, point ≤ i → i < high → holds i = false) :
    partitionPoint holds low high = point := by
  fun_induction partitionPoint holds low high with
  | case1 low high inside middle holding ih =>
      refine ih ?_ below fromThere
      by_contra beyond
      rw [fromThere middle (by omega) (by omega)] at holding
      cases holding
  | case2 low high inside middle failing ih =>
      refine ih above ?_ fun i reached further => fromThere i reached (by omega)
      by_contra beyond
      exact failing (upTo middle (by omega))
  | case3 low high empty => omega

/-- In an ascending list the elements up to a bound come first. -/
theorem getElem_le_iff_lt_countP {starts : List Nat} (ascending : starts.Pairwise (· < ·))
    (bound i : Nat) (inside : i < starts.length) :
    starts[i] ≤ bound ↔ i < starts.countP (· ≤ bound) := by
  induction starts generalizing i with
  | nil => exact absurd inside (Nat.not_lt_zero i)
  | cons first starts ih =>
      obtain ⟨least, rest⟩ := List.pairwise_cons.mp ascending
      by_cases within : first ≤ bound
      · rw [List.countP_cons_of_pos (by simpa using within)]
        cases i with
        | zero => simp [within]
        | succ i =>
            rw [List.getElem_cons_succ, ih rest i (Nat.lt_of_succ_lt_succ inside)]
            omega
      · have none : (first :: starts).countP (· ≤ bound) = 0 := by
          rw [List.countP_eq_zero]
          intro start member
          rcases List.mem_cons.mp member with rfl | later
          · simpa using within
          · have := least start later
            simp only [decide_eq_true_eq]
            omega
        rw [none]
        cases i with
        | zero => simp [within]
        | succ i =>
            have := least _ (List.getElem_mem (Nat.lt_of_succ_lt_succ inside))
            rw [List.getElem_cons_succ]
            omega

/-! ### The recorded starts -/

/-- No line starts within the first character. -/
theorem le_of_mem_startsAfterBreaks {offset start : Nat} {c : Char} {text : Text}
    (member : start ∈ startsAfterBreaks offset (c :: text)) : offset + c.utf8Size ≤ start := by
  induction text generalizing offset c with
  | nil =>
      rw [startsAfterBreaks] at member
      split at member
      · exact Nat.le_of_eq (List.mem_singleton.mp member).symm
      · cases member
  | cons next text ih =>
      rw [startsAfterBreaks] at member
      split at member
      · rcases List.mem_cons.mp member with rfl | later
        · exact Nat.le_refl _
        · exact Nat.le_trans (Nat.le_add_right _ _) (ih later)
      · exact Nat.le_trans (Nat.le_add_right _ _) (ih member)

theorem lt_of_mem_startsAfterBreaks {offset start : Nat} {text : Text}
    (member : start ∈ startsAfterBreaks offset text) : offset < start := by
  cases text with
  | nil => cases member
  | cons c text =>
      have positive := c.utf8Size_pos
      have := le_of_mem_startsAfterBreaks member
      omega

theorem pairwise_startsAfterBreaks (offset : Nat) (text : Text) :
    (startsAfterBreaks offset text).Pairwise (· < ·) := by
  induction text generalizing offset with
  | nil => exact List.Pairwise.nil
  | cons c text ih =>
      rw [startsAfterBreaks]
      split
      · exact List.pairwise_cons.mpr ⟨fun start member => lt_of_mem_startsAfterBreaks member, ih _⟩
      · exact ih _

/-- The lines of a text start in ascending order. -/
theorem pairwise_starts (text : Text) : (0 :: startsAfterBreaks 0 text).Pairwise (· < ·) :=
  List.pairwise_cons.mpr
    ⟨fun _ member => lt_of_mem_startsAfterBreaks member, pairwise_startsAfterBreaks 0 text⟩

/-- As many lines start within some bytes of a text as lines end there. -/
theorem countP_startsAfterBreaks (offset width : Nat) (text : Text) :
    (startsAfterBreaks offset text).countP (· ≤ offset + width) =
      ((bytes text).take width).count 10 := by
  induction text generalizing offset width with
  | nil => simp [startsAfterBreaks, bytes]
  | cons c text ih =>
      have size := String.length_utf8EncodeChar c
      rw [bytes_cons, List.take_append, List.count_append, size]
      by_cases fits : c.utf8Size ≤ width
      · have shifted := ih (offset + c.utf8Size) (width - c.utf8Size)
        rw [show offset + c.utf8Size + (width - c.utf8Size) = offset + width by omega] at shifted
        rw [List.take_of_length_le (by omega), ← shifted, startsAfterBreaks]
        by_cases isBreak : c = '\n'
        · subst isBreak
          rw [if_pos rfl, List.countP_cons_of_pos (by simp only [decide_eq_true_eq]; omega),
            Nat.add_comm]
          rfl
        · rw [if_neg isBreak, List.count_eq_zero.mpr (not_mem_utf8EncodeChar isBreak), Nat.zero_add]
      · -- The bytes end inside `c`, or before it if it is a line break.
        have noByte : ((String.utf8EncodeChar c).take width).count 10 = 0 := by
          rw [List.count_eq_zero]
          by_cases isBreak : c = '\n'
          · subst isBreak
            rw [show width = 0 by have : '\n'.utf8Size = 1 := rfl; omega]
            exact List.not_mem_nil
          · exact fun member => not_mem_utf8EncodeChar isBreak (List.mem_of_mem_take member)
        have noStart : (startsAfterBreaks offset (c :: text)).countP (· ≤ offset + width) = 0 := by
          rw [List.countP_eq_zero]
          intro start member
          have := le_of_mem_startsAfterBreaks member
          simp only [decide_eq_true_eq]
          omega
        rw [noStart, noByte, show width - c.utf8Size = 0 by omega]
        rfl

/-! ### The line of an offset -/

/-- The number of a line is one more than the number of line breaks before it. -/
theorem lineAt_ofText (text : Text) (offset : Nat) :
    (ofText text).lineAt offset = ((bytes text).take offset).count 10 + 1 := by
  have ascending := pairwise_starts text
  have counted : (0 :: startsAfterBreaks 0 text).countP (· ≤ offset) =
      ((bytes text).take offset).count 10 + 1 := by
    rw [List.countP_cons_of_pos (by simp), ← countP_startsAfterBreaks 0 offset text, Nat.zero_add]
  have reads : ∀ i (inside : i < (0 :: startsAfterBreaks 0 text).length),
      (ofText text).starts.getD i 0 = (0 :: startsAfterBreaks 0 text)[i] := by
    intro i inside
    simp [ofText, List.getElem?_eq_getElem inside]
  rw [← counted, lineAt]
  apply partitionPoint_eq (Nat.zero_le _)
  · simpa [ofText] using List.countP_le_length
  · intro i early
    have inside := Nat.lt_of_lt_of_le early List.countP_le_length
    rw [reads i inside, decide_eq_true_eq, getElem_le_iff_lt_countP ascending]
    exact early
  · intro i late inside
    have inside : i < (0 :: startsAfterBreaks 0 text).length := by simpa [ofText] using inside
    rw [reads i inside, decide_eq_false_iff_not, getElem_le_iff_lt_countP ascending]
    omega

theorem lineAt_ofText_append (first second : Text) (offset : Nat) :
    (ofText (first ++ second)).lineAt (first.byteSize + offset) =
      first.breaks + 1 + ((bytes second).take offset).count 10 := by
  rw [lineAt_ofText, bytes_append, ← length_bytes, List.take_length_add_append, List.count_append,
    count_bytes]
  omega

theorem lineAt_ofText_byteSize (first second : Text) :
    (ofText (first ++ second)).lineAt first.byteSize = first.breaks + 1 := by
  simpa using lineAt_ofText_append first second 0

theorem length_startsAfterBreaks (offset : Nat) (text : Text) :
    (startsAfterBreaks offset text).length = text.breaks := by
  induction text generalizing offset with
  | nil => rfl
  | cons c text ih =>
      rw [startsAfterBreaks]
      split
      · next isBreak => rw [List.length_cons, ih, isBreak, breaks_cons_break]
      · next other => rw [ih, breaks, breaks, List.count_cons_of_ne other]

theorem lineCount_ofText (text : Text) : (ofText text).lineCount = text.breaks + 1 := by
  rw [lineCount, ofText, List.size_toArray, List.length_cons, length_startsAfterBreaks]

/-- A lookup counts on from the line of its anchor. It stops at the greatest offset, which is no
less than the size of the text. -/
theorem lineAt_lookup {first second : Text} (fits : (first ++ second).byteSize ≤ maxOffset)
    (offset : Nat) :
    LineLookup.lineAt ⟨ofText (first ++ second), first.byteSize⟩ offset =
      first.breaks + 1 + ((bytes second).take offset).count 10 := by
  rw [byteSize_append] at fits
  by_cases within : first.byteSize + offset ≤ maxOffset
  · rw [LineLookup.lineAt, Nat.min_eq_left within, lineAt_ofText_append]
  · have stopped : min (first.byteSize + offset) maxOffset =
        first.byteSize + (maxOffset - first.byteSize) := by omega
    have size := length_bytes second
    rw [LineLookup.lineAt, stopped, lineAt_ofText_append, List.take_of_length_le (by omega),
      List.take_of_length_le (by omega)]

/-! ### The lines of a source -/

theorem lineAt_ofText_mono (text : Text) {first second : Nat} (le : first ≤ second) :
    (ofText text).lineAt first ≤ (ofText text).lineAt second := by
  have shorter : (bytes text).take first <+: (bytes text).take second :=
    List.take_prefix_take_left le
  rw [lineAt_ofText, lineAt_ofText]
  exact Nat.add_le_add_right (shorter.sublist.count_le 10) 1

theorem lineAt_ofText_le_lineCount (text : Text) (offset : Nat) :
    (ofText text).lineAt offset ≤ (ofText text).lineCount := by
  rw [lineAt_ofText, lineCount_ofText, ← count_bytes]
  exact Nat.add_le_add_right ((List.take_sublist offset (bytes text)).count_le 10) 1

/-- Every line is the line of its start. -/
theorem exists_lineAt_ofText_eq {text : Text} {line : Nat} (positive : 1 ≤ line)
    (inside : line ≤ (ofText text).lineCount) :
    ∃ offset ≤ text.byteSize, (ofText text).lineAt offset = line := by
  let above := text.lines.take (line - 1)
  let below := text.lines.drop (line - 1)
  have count : line - 1 < text.lines.length := by
    rw [lineCount_ofText] at inside
    rw [length_lines]
    omega
  have inhabited : below ≠ [] := by
    rw [ne_eq, List.drop_eq_nil_iff]
    omega
  have aboveWhole : Unbroken above := fun row member =>
    unbroken_lines text row (List.mem_of_mem_take member)
  have parts : text = lineHead above ++ joinLines below := by
    rw [← lineHead_append_joinLines above inhabited, List.take_append_drop, joinLines_lines]
  have number := lineAt_ofText_byteSize (lineHead above) (joinLines below)
  rw [← parts, breaks_lineHead aboveWhole, List.length_take] at number
  refine ⟨(lineHead above).byteSize, ?_, ?_⟩
  · rw [congrArg byteSize parts, byteSize_append]
    exact Nat.le_add_right _ _
  · omega

/-- A lookup gives the line that its offset has in what follows the anchor, counted on from the line
of the anchor. -/
theorem lineAt_lookup_eq {first second : Text} (fits : (first ++ second).byteSize ≤ maxOffset)
    (offset : Nat) :
    LineLookup.lineAt ⟨ofText (first ++ second), first.byteSize⟩ offset =
      (ofText (first ++ second)).lineAt first.byteSize + (ofText second).lineAt offset - 1 := by
  rw [lineAt_lookup fits, lineAt_ofText_byteSize, lineAt_ofText]
  omega

/-- The line of an offset is told by the line breaks before it. Hence line numbers ascend with the
offsets and are those from one to the number of lines, with none left out. Seen from an anchor, the
lines of what follows count on from the line of the anchor, also where the offset would be greater
than the greatest one. A source is never larger than that. -/
theorem lineAt_counts (source : String) :
    let map : LineMap := ofString source
    map.starts.toList.Pairwise (· < ·) ∧
    (∀ offset, map.lineAt offset =
      1 + (source.toUTF8.data.toList.take (min offset source.utf8ByteSize)).count '\n'.toUInt8) ∧
    (∀ first second, first ≤ second → map.lineAt first ≤ map.lineAt second) ∧
    (∀ offset, 1 ≤ map.lineAt offset ∧ map.lineAt offset ≤ map.lineCount) ∧
    (∀ line, 1 ≤ line → line ≤ map.lineCount →
      ∃ offset ≤ source.utf8ByteSize, map.lineAt offset = line) ∧
    (source.utf8ByteSize ≤ maxOffset → ∀ (anchor : source.Pos) (offset : Nat),
      LineLookup.lineAt ⟨map, anchor.offset.byteIdx⟩ offset =
        map.lineAt anchor.offset.byteIdx +
          (ofString (source.sliceFrom anchor).copy).lineAt offset - 1) := by
  intro map
  have size := byteSize_toList source
  have counted (offset : Nat) : map.lineAt offset =
      1 + (source.toUTF8.data.toList.take (min offset source.utf8ByteSize)).count '\n'.toUInt8 := by
    have length := length_bytes source.toList
    have number := lineAt_ofText source.toList offset
    rw [List.take_eq_take_min, length, size, bytes_toList, Nat.add_comm] at number
    exact number
  refine ⟨?_, counted, fun first second => lineAt_ofText_mono source.toList, ?_, ?_, ?_⟩
  · exact pairwise_starts source.toList
  · intro offset
    refine ⟨?_, lineAt_ofText_le_lineCount source.toList offset⟩
    rw [counted]
    exact Nat.le_add_right 1 _
  · intro line positive inside
    rw [← size]
    exact exists_lineAt_ofText_eq positive inside
  · intro fits anchor offset
    obtain ⟨whole, place⟩ := anchor.splits
    have parts : source.toList =
        (source.sliceTo anchor).copy.toList ++ (source.sliceFrom anchor).copy.toList := by
      rw [congrArg String.toList whole, String.toList_append]
    have start : anchor.offset.byteIdx = byteSize (source.sliceTo anchor).copy.toList := by
      rw [place, String.byteIdx_rawEndPos, byteSize_toList]
    rw [← size, parts] at fits
    rw [start]
    show LineLookup.lineAt ⟨ofText source.toList, _⟩ offset =
      (ofText source.toList).lineAt _ + (ofText _).lineAt offset - 1
    rw [parts, lineAt_lookup_eq fits]

theorem lineAt_counts_saturated :
    let source := "a\nß\nc"
    let anchor : source.Pos := ⟨⟨4⟩, by decide +kernel⟩
    source.utf8ByteSize ≤ maxOffset ∧
      LineLookup.lineAt ⟨ofString source, 4⟩ maxOffset =
        (ofString source).lineAt 4 + (ofString (source.sliceFrom anchor).copy).lineAt maxOffset - 1 ∧
      (ofString source).lineAt 3 ≤ (ofString source).lineAt 4 ∧
      ∃ offset ≤ source.utf8ByteSize, (ofString source).lineAt offset = 3 := by
  intro source anchor
  have fits : source.utf8ByteSize ≤ maxOffset := by decide +kernel
  obtain ⟨-, -, ascending, -, reached, lookups⟩ := lineAt_counts source
  exact ⟨fits, lookups fits anchor maxOffset, ascending 3 4 (by decide),
    reached 3 (by decide) (by decide +kernel)⟩

end LineMap

end DocComments
