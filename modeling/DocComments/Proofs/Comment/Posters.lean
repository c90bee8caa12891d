import DocComments.Proofs.Comment.Blocks

/-!
# Which blocks are posters

A block is a poster if it is closed by a run of at least two marker characters. The closing delimiter
has a part in that run, since it may itself open with marker characters, and how many of them depends
on the end of the delimiter it is made of: none if that ends with a bracket, one if it ends with
another character, and several if that one is repeated. So it depends on the delimiter how many
marker characters must stand before the closing one of a poster (`posterExtra`), and
`extract_block_role` says that a block is a poster just if there are that many.
-/

namespace DocComments

open Text Markers

namespace Markers

/-- How many marker characters stand at least before the closing delimiter of a poster, if blocks are
opened with the characters `front` and `last`. -/
def posterExtra (front : Text) (last : Char) : Nat :=
  if counterpart last ≠ last then 2
  else if front.getLast?.map counterpart = some last then 0
  else 1

variable {front line : Text} {last : Char}

theorem blockChar_ofStyles : (ofStyles (front ++ [last]) line).blockChar = last := by
  simp [ofStyles]

theorem blockClose_ofStyles : (ofStyles (front ++ [last]) line).blockClose =
    counterpart last :: front.reverse.map counterpart := by
  simp [ofStyles]

end Markers

namespace Shape

variable {front line : Text} {last : Char}

theorem role_block_eq_poster_iff {markers : Markers} {body : Text} {extra : Nat} :
    role markers (.block body extra) = .poster ↔ 1 < closerCount markers + extra := by
  rw [role]
  split
  · rename_i closed
    exact ⟨fun _ => closed, fun _ => rfl⟩
  · rename_i unclosed
    exact ⟨nofun, fun closed => absurd closed unclosed⟩

theorem closerCount_of_bracket (bracket : counterpart last ≠ last) :
    closerCount (ofStyles (front ++ [last]) line) = 0 := by
  rw [closerCount, blockClose_ofStyles, blockChar_ofStyles, List.takeWhile_cons_of_neg]
  · rfl
  · simpa using bracket

theorem closerCount_of_straight (straight : counterpart last = last) :
    closerCount (ofStyles (front ++ [last]) line) =
      ((front.reverse.map counterpart).takeWhile (· == last)).length + 1 := by
  rw [closerCount, blockClose_ofStyles, blockChar_ofStyles, List.takeWhile_cons_of_pos]
  · rfl
  · simpa using straight

/-- The run of marker characters that closes a block has two of them or more just if enough of them
stand before the closing delimiter. -/
theorem one_lt_closerCount_add_iff (extra : Nat) :
    1 < closerCount (ofStyles (front ++ [last]) line) + extra ↔
      posterExtra front last ≤ extra := by
  unfold posterExtra
  by_cases straight : counterpart last = last
  · rw [if_neg (not_not.mpr straight), closerCount_of_straight straight]
    have before : front.getLast?.map counterpart = (front.reverse.map counterpart).head? := by
      rw [List.head?_map, List.head?_reverse]
    rw [before]
    cases front.reverse.map counterpart with
    | nil =>
        rw [if_neg (by simp), List.takeWhile_nil, List.length_nil]
        omega
    | cons c rest =>
        by_cases repeated : c = last
        · rw [if_pos (by simp [repeated]), List.takeWhile_cons_of_pos (by simp [repeated]),
            List.length_cons]
          omega
        · rw [if_neg (by simp [repeated]), List.takeWhile_cons_of_neg (by simp [repeated]),
            List.length_nil]
          omega
  · rw [if_pos straight, closerCount_of_bracket straight]
    omega

end Shape

/-- A block is a poster just if as many marker characters stand before its closing delimiter as a
poster needs. One is enough for every delimiter that ends with a character other than a bracket and
does not repeat it. -/
theorem extract_block_role (resolver : Resolver) (delimiters : Delimiters) (source : String) :
    let markers := delimiters.markers
    let style := Delimiters.orUsual delimiters.block ({} : Delimiters).block
    ∃ front last, style = front ++ [last] ∧ markers.blockChar = last ∧
      ∀ comment ∈ (Extractor.ofDelimiters resolver delimiters).extract source,
        ∃ above row covered below,
          Text.lines source.toList = above ++ row :: (covered ++ below) ∧
          comment.range = ⟨above.length + 1, above.length + 1 + covered.length⟩ ∧
          (markers.blockOpen <+: row.dropBlanks → ¬ markers.lineDoc <+: row.dropBlanks →
            ∃ body extra rest, BlockText markers row (covered ++ below) body extra rest ∧
              (comment.role = .poster ↔ posterExtra front last ≤ extra)) := by
  intro markers style
  have inhabited : style ≠ [] := Delimiters.orUsual_ne_nil delimiters.block (by decide)
  obtain ⟨front, last, written⟩ := (List.eq_nil_or_concat' style).resolve_left inhabited
  have made : markers = ofStyles (front ++ [last])
      (Delimiters.orUsual delimiters.line ({} : Delimiters).line) := by
    rw [← written]
    rfl
  refine ⟨front, last, written, ?_, ?_⟩
  · rw [made, blockChar_ofStyles]
  · intro comment member
    obtain ⟨above, row, covered, below, found, split, -, opening, -, rfl⟩ :=
      Extractor.exists_opening member
    refine ⟨above, row, covered, below, split, rfl, ?_⟩
    intro opened unmarked
    obtain ⟨body, extra, rest, block, rfl⟩ := opening.exists_blockText opened unmarked
    refine ⟨body, extra, rest, block, ?_⟩
    show Shape.role markers (.block body extra) = .poster ↔ _
    rw [Shape.role_block_eq_poster_iff, made, Shape.one_lt_closerCount_add_iff]

theorem extract_block_role_starred :
    BlockText ({} : Delimiters).markers "/** a **/".toList [] " a ".toList 1 [] ∧
      ∃ comment ∈ (Extractor.ofDelimiters (fun _ _ => {}) {}).extract "/** a **/",
        comment.role = .poster := by
  have written : BlockText ({} : Delimiters).markers "/** a **/".toList [] " a ".toList 1 [] := by
    decide +kernel
  refine ⟨written, ?_⟩
  obtain ⟨comment, member, range⟩ :
      ∃ comment ∈ (Extractor.ofDelimiters (fun _ _ => {}) {}).extract "/** a **/",
        comment.range = ⟨1, 1⟩ := by
    decide +kernel
  refine ⟨comment, member, ?_⟩
  obtain ⟨front, last, style, -, roles⟩ := extract_block_role (fun _ _ => {}) {} "/** a **/"
  obtain ⟨rfl, same⟩ := List.append_inj' (show ['/'] ++ ['*'] = front ++ [last] from style) rfl
  obtain rfl := List.singleton_inj.mp same
  obtain ⟨above, row, covered, below, split, placed, block⟩ := roles comment member
  rw [range, LineRange.mk.injEq] at placed
  obtain rfl := List.length_eq_zero_iff.mp (show above.length = 0 by omega)
  obtain rfl := List.length_eq_zero_iff.mp (show covered.length = 0 by omega)
  have rows : Text.lines "/** a **/".toList = ["/** a **/".toList] := by decide +kernel
  rw [rows] at split
  obtain ⟨rfl, rfl⟩ := List.cons.inj split
  obtain ⟨body, extra, rest, text, role⟩ := block (by decide +kernel) (by decide +kernel)
  obtain ⟨-, rfl, -⟩ := written.unique (by decide +kernel) text
  exact role.mpr (by decide)

/-- If the delimiter repeats its last character, a block is a poster without further marker
characters, and if it ends with a bracket, one further marker character makes no poster. -/
theorem extract_block_role_repeated :
    (BlockText { block := "<!--" : Delimiters }.markers "<!--- a --!>".toList [] " a ".toList 0 [] ∧
      ((Extractor.ofDelimiters (fun _ _ => {}) { block := "<!--" }).extract "<!--- a --!>").map
        Comment.role = [.poster]) ∧
    (BlockText { block := "((" : Delimiters }.markers "((( a ())".toList [] " a ".toList 1 [] ∧
      ((Extractor.ofDelimiters (fun _ _ => {}) { block := "((" }).extract "((( a ())").map
        Comment.role = [.normal]) := by
  decide +kernel

end DocComments
