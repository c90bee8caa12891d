import DocComments.Text.Basic
import Mathlib.Data.List.Basic

/-!
# Searching a text

`Text.opensWith` and `Text.cut?` decide the two relations that a statement about markers speaks of:
a marker is a prefix of a text (`opensWith_iff`), and a marker occurs in it (`cut?_eq_none_iff`).
Both searches are those of the library, `List.isPrefixOf?` and `List.dropInfix?`
(`cut?_eq_dropInfix?`), whose laws say that a cut is made at the first occurrence:
`cut?_eq_some_iff`. From this follows that text added at the end does not move a cut
(`cut?_append`).

A row of characters of one class, such as a number or a name, goes on as far as it can:
`takeWhile_append_of_stop` and `dropWhile_append_of_stop`.
-/

namespace DocComments.Text

theorem after?_eq_some_iff {marker text rest : Text} :
    after? marker text = some rest ↔ text = marker ++ rest := by
  rw [after?, List.isPrefixOf?_eq_some_iff_append_eq, eq_comm]

theorem isSome_after?_iff {marker text : Text} :
    (after? marker text).isSome ↔ marker <+: text := by
  rw [after?, List.isSome_isPrefixOf?_eq_isPrefixOf, List.isPrefixOf_iff_prefix]

theorem opensWith_iff {marker text : Text} : opensWith marker text = true ↔ marker <+: text :=
  isSome_after?_iff

theorem after?_eq_none_iff {marker text : Text} :
    after? marker text = none ↔ ¬ marker <+: text := by
  rw [← isSome_after?_iff, Bool.not_eq_true, Option.isSome_eq_false_iff, Option.isNone_iff_eq_none]

theorem cut?_of_after?_eq_some {marker text rest : Text} (opens : after? marker text = some rest) :
    cut? marker text = some ([], rest) := by
  cases text with
  | nil => rw [cut?, opens, Option.map_some]
  | cons c text => rw [cut?, opens]

theorem cut?_cons_of_after?_eq_none {marker text : Text} {c : Char}
    (other : after? marker (c :: text) = none) :
    cut? marker (c :: text) = (cut? marker text).map (Prod.map (c :: ·) id) := by
  rw [cut?, other]
  rfl

/-- A cut finds nothing exactly if the marker does not occur. -/
theorem cut?_eq_none_iff {marker text : Text} : cut? marker text = none ↔ ¬ marker <:+: text := by
  induction text with
  | nil =>
      rw [cut?, Option.map_eq_none_iff, after?_eq_none_iff, List.prefix_nil, List.infix_nil]
  | cons c text ih =>
      rw [List.infix_cons_iff, not_or, ← ih, ← after?_eq_none_iff]
      cases opened : after? marker (c :: text) with
      | some rest => simp [cut?, opened]
      | none => simp [cut?, opened]

theorem dropPrefix?_eq_after? (marker text : Text) :
    text.dropPrefix? marker = after? marker text := by
  ext rest
  simp [List.dropPrefix?_eq_some_iff, after?_eq_some_iff]

/-- `List.dropInfix?` keeps the characters that it has passed in reverse, a cut puts them in front as
it returns. -/
theorem dropInfix?_go_eq_cut? (marker text passed : Text) :
    List.dropInfix?.go marker text passed =
      (cut? marker text).map (Prod.map (passed.reverse ++ ·) id) := by
  induction text generalizing passed with
  | nil =>
      cases marker with
      | nil => simp [List.dropInfix?.go, cut?]
      | cons m marker => rfl
  | cons c text ih =>
      rw [List.dropInfix?.go, dropPrefix?_eq_after?]
      cases opened : after? marker (c :: text) with
      | some rest => simp [cut?_of_after?_eq_some opened]
      | none =>
          rw [cut?_cons_of_after?_eq_none opened, Option.map_map]
          dsimp only
          rw [ih]
          refine congrArg (Option.map · _) (funext fun pieces => ?_)
          simp [Prod.map]

/-- A cut is `List.dropInfix?` with its arguments exchanged. -/
theorem cut?_eq_dropInfix? (marker text : Text) : cut? marker text = text.dropInfix? marker := by
  rw [List.dropInfix?, dropInfix?_go_eq_cut?]
  exact Option.map_id'.symm

/-- A cut is made at the first occurrence of the marker. -/
theorem cut?_eq_some_iff {marker text before rest : Text} :
    cut? marker text = some (before, rest) ↔
      text = before ++ marker ++ rest ∧
        ∀ place < before.length, ¬ marker <+: text.drop place := by
  simp only [cut?_eq_dropInfix?, List.dropInfix?_eq_some_iff, beq_iff_eq, exists_eq_right]
  refine and_congr_right fun _ => ⟨?_, ?_⟩
  · rintro first place inside ⟨behind, split⟩
    have whole : text = text.take place ++ marker ++ behind := by
      rw [List.append_assoc, split, List.take_append_drop]
    have earliest := first _ _ _ whole rfl
    rw [List.length_take] at earliest
    omega
  · rintro first front _ behind split rfl
    refine Nat.le_of_not_lt fun earlier => first front.length earlier ?_
    rw [split, List.append_assoc, List.drop_left]
    exact List.prefix_append _ behind

/-- A cut loses nothing: the two pieces and the marker between them are the text. -/
theorem eq_append_of_cut? {marker text before rest : Text}
    (found : cut? marker text = some (before, rest)) : text = before ++ marker ++ rest :=
  (cut?_eq_some_iff.mp found).1

/-- Behind what stands before a cut comes the marker. -/
theorem drop_of_cut? {marker text before rest : Text} (more : Text)
    (found : cut? marker text = some (before, rest)) :
    (text ++ more).drop before.length = marker ++ rest ++ more := by
  rw [eq_append_of_cut? found, List.append_assoc, List.append_assoc, List.drop_left,
    List.append_assoc]

/-- Text at the end does not move a cut. -/
theorem cut?_append {marker text before rest : Text} (more : Text)
    (found : cut? marker text = some (before, rest)) :
    cut? marker (text ++ more) = some (before, rest ++ more) := by
  obtain ⟨whole, first⟩ := cut?_eq_some_iff.mp found
  rw [cut?_eq_some_iff]
  refine ⟨by rw [whole]; simp, ?_⟩
  intro place inside opens
  have size := congrArg List.length whole
  simp only [List.length_append] at size
  have enough : marker.length ≤ (text.drop place).length := by
    rw [List.length_drop]
    omega
  rw [List.drop_append_of_le_length (by omega)] at opens
  -- The marker ends inside `text`, where it does not start at `place`.
  exact first place inside
    (List.prefix_of_prefix_length_le opens (List.prefix_append _ more) enough)

/-- A cut that is made inside the first part of a text does not depend on the rest. -/
theorem exists_cut?_of_append {marker text more before rest : Text}
    (found : cut? marker (text ++ more) = some (before, rest))
    (inside : before ++ marker <+: text) :
    ∃ left, cut? marker text = some (before, left) ∧ rest = left ++ more := by
  obtain ⟨whole, first⟩ := cut?_eq_some_iff.mp found
  obtain ⟨left, rfl⟩ := inside
  refine ⟨left, cut?_eq_some_iff.mpr ⟨rfl, ?_⟩, ?_⟩
  · intro place earlier opens
    have reached : place ≤ (before ++ marker ++ left).length := by
      simp only [List.length_append]
      omega
    apply first place earlier
    rw [List.drop_append_of_le_length reached]
    exact opens.trans (List.prefix_append _ more)
  · rw [List.append_assoc] at whole
    exact (List.append_cancel_left whole).symm

/-- A marker that does not occur in what stands before it, nor across its own beginning, is found
where it is written. -/
theorem cut?_eq_some_of_not_isInfix {marker before : Text} (rest : Text)
    (absent : ¬ marker <:+: before ++ marker.dropLast) :
    cut? marker (before ++ marker ++ rest) = some (before, rest) := by
  rw [cut?_eq_some_iff]
  refine ⟨rfl, ?_⟩
  intro place inside opens
  apply absent
  rw [List.append_assoc, List.drop_append_of_le_length (Nat.le_of_lt inside)] at opens
  have shorter : before.drop place ++ marker.dropLast <+: before.drop place ++ (marker ++ rest) :=
    (List.prefix_append_right_inj _).mpr ((List.dropLast_prefix marker).trans
      (List.prefix_append marker rest))
  have enough : marker.length ≤ (before.drop place ++ marker.dropLast).length := by
    simp only [List.length_append, List.length_drop, List.length_dropLast]
    omega
  obtain ⟨tail, same⟩ := List.prefix_of_prefix_length_le opens shorter enough
  refine ⟨before.take place, tail, ?_⟩
  rw [List.append_assoc, same, ← List.append_assoc, List.take_append_drop]

/-- Text in which a marker cannot begin goes to the piece before the cut. -/
theorem cut?_append_of_not_mem {m : Char} {marker front : Text} (absent : m ∉ front) (text : Text) :
    cut? (m :: marker) (front ++ text) =
      (cut? (m :: marker) text).map (Prod.map (front ++ ·) id) := by
  induction front with
  | nil =>
      rw [List.nil_append]
      cases cut? (m :: marker) text <;> rfl
  | cons c front ih =>
      rw [List.mem_cons, not_or] at absent
      have other : after? (m :: marker) (c :: (front ++ text)) = none := by
        rw [after?_cons_cons, if_neg absent.1]
      rw [List.cons_append, cut?_cons_of_after?_eq_none other, ih absent.2, Option.map_map]
      rfl

/-! ### Rows of characters of one class -/

section

variable {p : Char → Bool} {text rest : Text}

/-- A row of characters of one class ends where a character of another follows. -/
theorem takeWhile_append_of_stop (all : ∀ c ∈ text, p c = true)
    (stop : ∀ c, rest.head? = some c → p c = false) : (text ++ rest).takeWhile p = text := by
  rw [List.takeWhile_append_of_pos all]
  cases rest with
  | nil => simp
  | cons c rest => simp [stop c rfl]

theorem dropWhile_append_of_stop (all : ∀ c ∈ text, p c = true)
    (stop : ∀ c, rest.head? = some c → p c = false) : (text ++ rest).dropWhile p = rest := by
  rw [List.dropWhile_append_of_pos all]
  cases rest with
  | nil => simp
  | cons c rest => simp [stop c rfl]

theorem any_head?_dropWhile (p : Char → Bool) (text : Text) :
    (text.dropWhile p).head?.any p = false := by
  rw [Option.any_eq_false]
  intro c first
  have stop := List.head?_dropWhile_not p text
  rw [first] at stop
  exact stop

end

end DocComments.Text
