import DocComments.Comment.Scan
import DocComments.Proofs.Text.Lines

/-!
# Reading what a comment says

The steps by which the text of a comment is taken out of its marks, each on the kind of text for
which it was made: the marker characters before a closing delimiter (`splitExtra_append_replicate`),
the text between the lines of the two delimiters of a block (`interior_append` and, line by line,
`interior_lineTail`), and the mark in front of such a line (`blockLine_marked`).
-/

namespace DocComments

open Text

namespace Text

theorem dropReturn_of_not_mem {text : Text} (none : '\r' ∉ text) : dropReturn text = text := by
  rw [dropReturn, if_neg]
  exact fun last => none (List.mem_of_getLast? last)

end Text

namespace Markers

theorem splitExtra_append_replicate {markers : Markers} {body : Text} (extra : Nat)
    (ends : body.getLast? ≠ some markers.blockChar) :
    markers.splitExtra (body ++ List.replicate extra markers.blockChar) = (body, extra) := by
  have all : ∀ c ∈ List.replicate extra markers.blockChar, (c == markers.blockChar) = true := by
    intro c member
    exact beq_iff_eq.mpr (List.eq_of_mem_replicate member)
  have stops : body.reverse.takeWhile (· == markers.blockChar) = [] ∧
      body.reverse.dropWhile (· == markers.blockChar) = body.reverse := by
    cases reversed : body.reverse with
    | nil => exact ⟨rfl, rfl⟩
    | cons c rest =>
        have last : body.getLast? = some c := by
          rw [← List.head?_reverse, reversed, List.head?_cons]
        have other : ¬ (c == markers.blockChar) = true := by
          rw [beq_iff_eq]
          exact fun same => ends (same ▸ last)
        exact ⟨List.takeWhile_cons_of_neg other, List.dropWhile_cons_of_neg other⟩
  rw [splitExtra, List.reverse_append, List.reverse_replicate, List.takeWhile_append_of_pos all,
    List.dropWhile_append_of_pos all, stops.1, stops.2]
  simp

theorem append_replicate_splitExtra (markers : Markers) (between : Text) :
    (markers.splitExtra between).1 ++
      List.replicate (markers.splitExtra between).2 markers.blockChar = between := by
  have repeated : between.reverse.takeWhile (· == markers.blockChar) =
      List.replicate (markers.splitExtra between).2 markers.blockChar := by
    refine List.eq_replicate_iff.mpr ⟨rfl, ?_⟩
    intro c member
    have same := List.mem_takeWhile_imp member
    exact beq_iff_eq.mp same
  rw [← List.reverse_replicate, ← repeated, splitExtra, ← List.reverse_append,
    List.takeWhile_append_dropWhile, List.reverse_reverse]

theorem getLast?_splitExtra (markers : Markers) (between : Text) :
    (markers.splitExtra between).1.getLast? ≠ some markers.blockChar := by
  intro last
  rw [splitExtra, List.getLast?_reverse] at last
  have first := List.head?_dropWhile_not (· == markers.blockChar) between.reverse
  rw [last] at first
  simp at first

/-- The marker characters before a closing delimiter stand on its line. -/
theorem splitExtra_append_break {markers : Markers} (other : markers.blockChar ≠ '\n')
    (front between : Text) :
    markers.splitExtra (front ++ '\n' :: between) =
      (front ++ '\n' :: (markers.splitExtra between).1, (markers.splitExtra between).2) := by
  have ends : (front ++ '\n' :: (markers.splitExtra between).1).getLast? ≠
      some markers.blockChar := by
    rw [List.getLast?_append, List.getLast?_cons]
    have last := markers.getLast?_splitExtra between
    cases found : (markers.splitExtra between).1.getLast? with
    | none => simpa using other.symm
    | some c =>
        rw [found] at last
        simpa using last
  rw [← splitExtra_append_replicate (markers.splitExtra between).2 ends, List.append_assoc,
    List.cons_append, append_replicate_splitExtra]

end Markers

namespace Shape

theorem untilLastBreak_append {text trail : Text} {c : Char} (isBreak : isLineBreak c = true)
    (none : ∀ d ∈ trail, isLineBreak d = false) :
    untilLastBreak (text ++ c :: trail) = text := by
  have passes : ∀ d ∈ trail.reverse, (!isLineBreak d) = true := by
    intro d member
    rw [none d (List.mem_reverse.mp member)]
    rfl
  have reversed : (text ++ c :: trail).reverse = trail.reverse ++ c :: text.reverse := by simp
  rw [untilLastBreak, reversed, List.dropWhile_append_of_pos passes,
    List.dropWhile_cons_of_neg (by rw [isBreak]; decide)]
  exact List.reverse_reverse text

theorem interior_eq_ite (body : Text) :
    interior body =
      if body.dropWhile (!isLineBreak ·) = [] then body
      else untilLastBreak ((body.dropWhile (!isLineBreak ·)).dropWhile isLineBreak) := by
  unfold interior
  split
  · rename_i single
    rw [if_pos single]
  · rename_i broken
    rw [if_neg broken]

theorem untilLastBreak_of_unbroken {text : Text} (none : ∀ c ∈ text, isLineBreak c = false) :
    untilLastBreak text = text := by
  have passes : text.reverse.dropWhile (!isLineBreak ·) = [] := by
    rw [List.dropWhile_eq_nil_iff]
    intro c member
    rw [none c (List.mem_reverse.mp member)]
    rfl
  rw [untilLastBreak, passes]

theorem interior_of_unbroken {body : Text} (none : ∀ c ∈ body, isLineBreak c = false) :
    interior body = body := by
  rw [interior_eq_ite, if_pos]
  rw [List.dropWhile_eq_nil_iff]
  intro c member
  rw [none c member]
  rfl

/-- What a body has below the line of the opening delimiter, from the first line on that is not
empty. -/
def belowOpening (body : Text) : Text := (body.dropWhile (!isLineBreak ·)).dropWhile isLineBreak

section Gap

variable {front gap inner : Text} (frontWhole : ∀ c ∈ front, isLineBreak c = false)
  (gapBreaks : ∀ c ∈ gap, isLineBreak c = true) (inhabited : gap ≠ [])

include frontWhole gapBreaks inhabited

theorem dropWhile_append_gap :
    (front ++ (gap ++ inner)).dropWhile (!isLineBreak ·) = gap ++ inner := by
  have passes : ∀ c ∈ front, (!isLineBreak c) = true := by
    intro c member
    rw [frontWhole c member]
    rfl
  obtain ⟨c, gap, rfl⟩ := List.exists_cons_of_ne_nil inhabited
  rw [List.dropWhile_append_of_pos passes, List.cons_append, List.dropWhile_cons_of_neg]
  rw [gapBreaks c List.mem_cons_self]
  decide

/-- The line breaks behind the line of the opening delimiter go with it, however many there are. -/
theorem belowOpening_append (shown : ∀ c ∈ inner.head?, isLineBreak c = false) :
    belowOpening (front ++ (gap ++ inner)) = inner := by
  rw [belowOpening, dropWhile_append_gap frontWhole gapBreaks inhabited,
    List.dropWhile_append_of_pos gapBreaks]
  cases inner with
  | nil => rfl
  | cons c inner =>
      rw [List.dropWhile_cons_of_neg]
      rw [shown c rfl]
      decide

/-- Of the line of the opening delimiter nothing is shown if others follow. -/
theorem interior_append_gap : interior (front ++ (gap ++ inner)) = interior (gap ++ inner) := by
  have cut : ([] ++ (gap ++ inner)).dropWhile (!isLineBreak ·) = gap ++ inner :=
    dropWhile_append_gap (by simp) gapBreaks inhabited
  rw [List.nil_append] at cut
  rw [interior_eq_ite, interior_eq_ite (gap ++ inner), cut,
    dropWhile_append_gap frontWhole gapBreaks inhabited, if_neg, if_neg]
  · exact List.append_ne_nil_of_left_ne_nil inhabited inner
  · exact List.append_ne_nil_of_left_ne_nil inhabited inner

theorem interior_append (shown : ∀ c ∈ inner.head?, isLineBreak c = false) :
    interior (front ++ (gap ++ inner)) = untilLastBreak inner := by
  rw [interior_eq_ite, if_neg, ← belowOpening,
    belowOpening_append frontWhole gapBreaks inhabited shown]
  rw [dropWhile_append_gap frontWhole gapBreaks inhabited]
  exact List.append_ne_nil_of_left_ne_nil inhabited inner

end Gap

/-- Between the line of the opening and that of the closing delimiter stand the lines of a block. -/
theorem interior_lineTail {rows : List Text} {trail : Text} {c : Char} {rest : Text}
    (first : joinLines rows = c :: rest) (shown : isLineBreak c = false)
    (none : ∀ d ∈ trail, isLineBreak d = false) :
    interior (lineTail rows ++ '\n' :: trail) = joinLines rows := by
  have inhabited : rows ≠ [] := by
    rintro rfl
    cases first
  have parts : lineTail rows ++ '\n' :: trail =
      [] ++ (['\n'] ++ (joinLines rows ++ '\n' :: trail)) := by
    rw [lineTail_eq_cons_joinLines inhabited]
    rfl
  have opens : ∀ d ∈ (joinLines rows ++ '\n' :: trail).head?, isLineBreak d = false := by
    intro d head
    rw [first] at head
    obtain rfl := Option.some.inj head
    exact shown
  have gapBreaks : ∀ d ∈ ['\n'], isLineBreak d = true := by
    intro d member
    obtain rfl := List.mem_singleton.mp member
    rfl
  rw [parts, interior_append (by simp) gapBreaks (List.cons_ne_nil _ _) opens,
    untilLastBreak_append (by decide) none]

theorem blockLine_marked {blanks text : Text} {blockChar : Char}
    (blank : ∀ c ∈ blanks, isBlank c = true) (visible : isBlank blockChar = false)
    (none : '\r' ∉ blanks ++ blockChar :: text) :
    blockLine blockChar (blanks ++ blockChar :: text) = text := by
  rw [blockLine, dropReturn_of_not_mem none, dropBlanks_append_of_blank _ blank, dropBlanks,
    List.dropWhile_cons_of_neg (by rw [visible]; decide)]
  exact if_pos rfl

end Shape

end DocComments
