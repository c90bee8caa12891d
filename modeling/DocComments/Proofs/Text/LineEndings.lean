import DocComments.Proofs.Text.Lines
import DocComments.Proofs.Text.Search

/-!
# Other line endings

Some texts end their lines with `\r\n` instead of `\n`. `withReturns` turns the one kind into the
other. A search for characters other than these two gives the same pieces of both
(`cut?_withReturns`), and the lines of both are the same but for a `\r` at the end of all but the
last (`lines_withReturns`). A text that mixes the two kinds still has returns only at the ends of
lines (`ReturnsEndLines`), and without these its lines are free of them (`inline_dropReturn`).
-/

namespace DocComments.Text

/-- A text with a carriage return before every line break. -/
def withReturns (text : Text) : Text := text.flatMap fun c => if c = '\n' then ['\r', '\n'] else [c]

@[simp] theorem withReturns_nil : withReturns [] = [] := rfl

@[simp] theorem withReturns_append (first second : Text) :
    withReturns (first ++ second) = withReturns first ++ withReturns second := List.flatMap_append

@[simp] theorem withReturns_cons_break (text : Text) :
    withReturns ('\n' :: text) = '\r' :: '\n' :: withReturns text := rfl

theorem withReturns_cons_of_ne {c : Char} (text : Text) (other : c ≠ '\n') :
    withReturns (c :: text) = c :: withReturns text := by
  rw [withReturns, List.flatMap_cons, if_neg other]
  rfl

theorem withReturns_of_unbroken {text : Text} (whole : '\n' ∉ text) : withReturns text = text := by
  induction text with
  | nil => rfl
  | cons c text ih =>
      rw [List.mem_cons, not_or] at whole
      rw [withReturns_cons_of_ne text (Ne.symm whole.1), ih whole.2]

theorem withReturns_eq_nil_iff {text : Text} : withReturns text = [] ↔ text = [] := by
  cases text with
  | nil => simp
  | cons c text =>
      by_cases isBreak : c = '\n'
      · simp [isBreak]
      · simp [withReturns_cons_of_ne text isBreak]

theorem breaks_withReturns (text : Text) : breaks (withReturns text) = breaks text := by
  induction text with
  | nil => rfl
  | cons c text ih =>
      by_cases isBreak : c = '\n'
      · subst isBreak
        have inserted : breaks ('\r' :: '\n' :: withReturns text) =
            breaks ('\n' :: withReturns text) := List.count_cons_of_ne (by decide)
        rw [withReturns_cons_break, inserted, breaks_cons_break, breaks_cons_break, ih]
      · rw [withReturns_cons_of_ne text isBreak, breaks, List.count_cons_of_ne isBreak, breaks,
          List.count_cons_of_ne isBreak]
        exact ih

theorem getLast?_withReturns (text : Text) : (withReturns text).getLast? = text.getLast? := by
  rcases List.eq_nil_or_concat' text with rfl | ⟨front, c, rfl⟩
  · rfl
  · rw [withReturns_append]
    by_cases isBreak : c = '\n'
    · subst isBreak
      simp
    · rw [withReturns_cons_of_ne [] isBreak]
      simp

/-! ### Dividing -/

/-- A division that treats the two characters of a line ending alike does not come between them. -/
theorem dropWhile_withReturns {p : Char → Bool} (alike : p '\r' = p '\n') (text : Text) :
    (withReturns text).dropWhile p = withReturns (text.dropWhile p) := by
  induction text with
  | nil => rfl
  | cons c text ih =>
      by_cases isBreak : c = '\n'
      · subst isBreak
        rw [withReturns_cons_break, List.dropWhile_cons, List.dropWhile_cons, List.dropWhile_cons,
          alike, ih]
        split
        · rfl
        · rfl
      · rw [withReturns_cons_of_ne text isBreak, List.dropWhile_cons, List.dropWhile_cons, ih]
        split
        · rfl
        · rw [withReturns_cons_of_ne text isBreak]

@[simp] theorem dropBlanks_withReturns (text : Text) :
    dropBlanks (withReturns text) = withReturns (dropBlanks text) :=
  dropWhile_withReturns rfl text

@[simp] theorem takeBlanks_withReturns (text : Text) :
    takeBlanks (withReturns text) = takeBlanks text := by
  have parts := takeBlanks_append_dropBlanks (withReturns text)
  have original := congrArg withReturns (takeBlanks_append_dropBlanks text)
  rw [withReturns_append, withReturns_of_unbroken (unbroken_takeBlanks text),
    ← dropBlanks_withReturns] at original
  exact List.append_cancel_right (parts.trans original.symm)

theorem drop_withReturns {front : Text} (rest : Text) (whole : '\n' ∉ front) :
    (withReturns (front ++ rest)).drop front.length = withReturns rest := by
  rw [withReturns_append, withReturns_of_unbroken whole, List.drop_left]

/-- The first line of a text that ends its lines with `\r\n`, and what its ending leaves of it. -/
theorem exists_firstLine_withReturns (text : Text) :
    ∃ ending, (ending = [] ∨ ending = ['\r']) ∧
      firstLine (withReturns text) = firstLine text ++ ending := by
  obtain ⟨rows, -, joined⟩ := exists_lines_eq_cons text
  have whole := unbroken_firstLine text
  rw [congrArg withReturns joined, withReturns_append, withReturns_of_unbroken whole]
  cases rows with
  | nil =>
      refine ⟨[], Or.inl rfl, ?_⟩
      rw [lineTail_nil, withReturns_nil, ← lineTail_nil, firstLine_append_lineTail [] whole,
        lineTail_nil, List.append_nil]
  | cons next rows =>
      refine ⟨['\r'], Or.inr rfl, ?_⟩
      have passes : ∀ c ∈ firstLine text ++ ['\r'], (c != '\n') = true := by
        intro c member
        rcases List.mem_append.mp member with inside | last
        · exact bne_iff_ne.mpr fun isBreak => whole (isBreak ▸ inside)
        · rw [List.mem_singleton.mp last]
          rfl
      rw [lineTail_cons, withReturns_cons_break, firstLine, ← List.singleton_append,
        ← List.append_assoc, List.takeWhile_append_of_pos passes]
      simp

/-! ### Searching -/

/-- A marker of characters that stand inside lines. -/
def Inline (marker : Text) : Prop := '\n' ∉ marker ∧ '\r' ∉ marker

theorem after?_withReturns {marker : Text} (inline : Inline marker) (text : Text) :
    after? marker (withReturns text) = (after? marker text).map withReturns := by
  induction marker generalizing text with
  | nil => rfl
  | cons m marker ih =>
      have later : Inline marker := ⟨fun member => inline.1 (List.mem_cons_of_mem _ member),
        fun member => inline.2 (List.mem_cons_of_mem _ member)⟩
      cases text with
      | nil => rfl
      | cons c text =>
          by_cases isBreak : c = '\n'
          · subst isBreak
            have noReturn : m ≠ '\r' := fun same => inline.2 (same ▸ List.mem_cons_self)
            have noBreak : m ≠ '\n' := fun same => inline.1 (same ▸ List.mem_cons_self)
            rw [withReturns_cons_break, after?_cons_cons, if_neg noReturn, after?_cons_cons,
              if_neg noBreak, Option.map_none]
          · rw [withReturns_cons_of_ne text isBreak, after?_cons_cons, after?_cons_cons,
              ih later text, apply_ite (Option.map withReturns), Option.map_none]

theorem cut?_withReturns {marker : Text} (inline : Inline marker) (text : Text) :
    cut? marker (withReturns text) =
      (cut? marker text).map (Prod.map withReturns withReturns) := by
  induction text with
  | nil =>
      cases marker with
      | nil => rfl
      | cons m marker => rfl
  | cons c text ih =>
      have opens := after?_withReturns inline (c :: text)
      cases attempt : after? marker (c :: text) with
      | some rest =>
          rw [attempt, Option.map_some] at opens
          rw [cut?_of_after?_eq_some opens, cut?_of_after?_eq_some attempt]
          rfl
      | none =>
          rw [attempt, Option.map_none] at opens
          rw [cut?_cons_of_after?_eq_none attempt, Option.map_map]
          by_cases isBreak : c = '\n'
          · subst isBreak
            -- The marker does not start at the break behind the return either.
            have second : after? marker ('\n' :: withReturns text) = none := by
              cases marker with
              | nil => cases attempt
              | cons m marker =>
                  rw [after?_cons_cons, if_neg]
                  exact fun same => inline.1 (same ▸ List.mem_cons_self)
            rw [withReturns_cons_break] at opens ⊢
            rw [cut?_cons_of_after?_eq_none opens, cut?_cons_of_after?_eq_none second, ih,
              Option.map_map, Option.map_map]
            rfl
          · rw [withReturns_cons_of_ne text isBreak] at opens ⊢
            rw [cut?_cons_of_after?_eq_none opens, ih, Option.map_map]
            refine congrArg (Option.map · _) (funext fun pieces => ?_)
            simp [Prod.map, withReturns_cons_of_ne _ isBreak]

/-! ### Lines -/

/-- A line as it stands above others. -/
def withReturn (row : Text) (later : List Text) : Text := if later = [] then row else row ++ ['\r']

theorem withReturns_append_lineTail {row : Text} {later : List Text}
    (whole : Unbroken (row :: later)) :
    withReturns (row ++ lineTail later) =
      withReturn row later ++ lineTail (rewriteLines withReturn later) := by
  induction later generalizing row with
  | nil =>
      have unbroken := (unbroken_cons.mp whole).1
      simp [withReturn, rewriteLines, withReturns_of_unbroken unbroken]
  | cons next later ih =>
      obtain ⟨unbroken, below⟩ := unbroken_cons.mp whole
      have above : withReturn row (next :: later) = row ++ ['\r'] := if_neg (List.cons_ne_nil _ _)
      rw [withReturns_append, withReturns_of_unbroken unbroken, lineTail_cons,
        withReturns_cons_break, ih below, above, rewriteLines, lineTail_cons]
      simp

theorem unbroken_rewriteLines_withReturn {rows : List Text} (whole : Unbroken rows) :
    Unbroken (rewriteLines withReturn rows) := by
  induction rows with
  | nil => exact whole
  | cons row rows ih =>
      obtain ⟨unbroken, below⟩ := unbroken_cons.mp whole
      rw [rewriteLines, unbroken_cons, withReturn]
      refine ⟨?_, ih below⟩
      split
      · exact unbroken
      · simp [unbroken]

theorem lines_withReturns (text : Text) :
    lines (withReturns text) = rewriteLines withReturn (lines text) := by
  obtain ⟨rows, split, joined⟩ := exists_lines_eq_cons text
  have whole := unbroken_lines text
  rw [split] at whole ⊢
  have parts : withReturns text = joinLines (rewriteLines withReturn (firstLine text :: rows)) := by
    rw [congrArg withReturns joined, withReturns_append_lineTail whole, rewriteLines,
      joinLines_cons]
  rw [parts]
  exact lines_joinLines (unbroken_rewriteLines_withReturn whole) (List.cons_ne_nil _ _)

theorem rewriteLines_withReturn_concat (rows : List Text) (last : Text) :
    rewriteLines withReturn (rows ++ [last]) = rows.map (· ++ ['\r']) ++ [last] := by
  induction rows with
  | nil => rfl
  | cons row rows ih =>
      have above : withReturn row (rows ++ [last]) = row ++ ['\r'] := if_neg (by simp)
      rw [List.cons_append, rewriteLines, above, ih, List.map_cons, List.cons_append]

/-- A text cut off between the two characters of a line ending has a return on every line. -/
theorem lines_withReturns_append_return (text : Text) :
    lines (withReturns text ++ ['\r']) = (lines text).map (· ++ ['\r']) := by
  have whole : lines (withReturns text ++ ['\r']) ++ [[]] =
      (lines text).map (· ++ ['\r']) ++ [[]] := by
    calc lines (withReturns text ++ ['\r']) ++ [[]]
      _ = lines (withReturns (text ++ '\n' :: [])) := by
        rw [withReturns_append, withReturns_cons_break, withReturns_nil]
        have split := lines_append_break (withReturns text ++ ['\r']) []
        rw [List.append_assoc, lines_of_unbroken List.not_mem_nil] at split
        exact split.symm
      _ = rewriteLines withReturn (lines text ++ [[]]) := by
        rw [lines_withReturns, lines_append_break, lines_of_unbroken List.not_mem_nil]
      _ = (lines text).map (· ++ ['\r']) ++ [[]] := rewriteLines_withReturn_concat _ _
  exact List.append_cancel_right whole

theorem map_rewriteLines_withReturn {α : Type} {f : Text → α} {rows : List Text}
    (same : ∀ row ∈ rows, f (row ++ ['\r']) = f row) :
    (rewriteLines withReturn rows).map f = rows.map f := by
  induction rows with
  | nil => rfl
  | cons row rows ih =>
      rw [rewriteLines, List.map_cons, List.map_cons,
        ih fun other member => same other (List.mem_cons_of_mem _ member), withReturn]
      split
      · rfl
      · rw [same row List.mem_cons_self]

/-! ### Returns at the ends of lines -/

/-- Whether every return of a text stands right before a line break. -/
def ReturnsEndLines (text : Text) : Prop :=
  ∀ place < text.length, text[place]? = some '\r' → text[place + 1]? = some '\n'

instance (text : Text) : Decidable (ReturnsEndLines text) :=
  inferInstanceAs (Decidable (∀ place < text.length, _))

theorem returnsEndLines_iff {text : Text} :
    ReturnsEndLines text ↔ ∀ front rest, text = front ++ '\r' :: rest → rest.head? = some '\n' := by
  constructor
  · rintro ends front rest rfl
    have next := ends front.length (by simp) (by simp)
    rw [List.getElem?_append_right (Nat.le_add_right _ _), Nat.add_sub_cancel_left,
      List.getElem?_cons_succ, ← List.head?_eq_getElem?] at next
    exact next
  · intro ends place inside present
    obtain ⟨_, same⟩ := List.getElem?_eq_some_iff.mp present
    have split : text = text.take place ++ '\r' :: text.drop (place + 1) := by
      rw [← same, List.getElem_cons_drop, List.take_append_drop]
    have next := ends _ _ split
    rw [List.head?_drop] at next
    exact next

/-- A piece of a text in which returns end lines is of the same kind, if it is not cut off between a
return and the line break that belongs to it. -/
theorem ReturnsEndLines.of_append {front text back : Text}
    (ends : ReturnsEndLines (front ++ text ++ back)) (apart : back.head? ≠ some '\n') :
    ReturnsEndLines text := by
  rw [returnsEndLines_iff] at ends ⊢
  rintro upper rest rfl
  have next := ends (front ++ upper) (rest ++ back) (by simp)
  cases rest with
  | nil => exact absurd next apart
  | cons c rest => exact next

theorem exists_eq_dropReturn_append (row : Text) :
    ∃ ending, (ending = [] ∨ ending = ['\r']) ∧ row = row.dropReturn ++ ending := by
  unfold dropReturn
  split
  · rename_i last
    obtain ⟨front, rfl⟩ := List.getLast?_eq_some_iff.mp last
    exact ⟨['\r'], Or.inr rfl, by rw [List.dropLast_concat]⟩
  · exact ⟨[], Or.inl rfl, (List.append_nil row).symm⟩

/-- A return inside a line is the last character of a line that is not the last one. -/
theorem ReturnsEndLines.eq_nil_of_lines {text row front rest : Text} {above below : List Text}
    (ends : ReturnsEndLines text) (split : lines text = above ++ row :: below)
    (inside : row = front ++ '\r' :: rest) : rest = [] ∧ below ≠ [] := by
  have whole := unbroken_lines text
  rw [split, inside, unbroken_append, unbroken_cons] at whole
  have parts : text = (lineHead above ++ front) ++ '\r' :: (rest ++ lineTail below) := by
    rw [← joinLines_lines text, split, inside, lineHead_append_joinLines above (List.cons_ne_nil _ _),
      joinLines_cons]
    simp
  have next := returnsEndLines_iff.mp ends _ _ parts
  cases rest with
  | cons c rest =>
      obtain rfl := Option.some.inj next
      exact absurd (by simp) whole.2.1
  | nil =>
      refine ⟨rfl, ?_⟩
      rintro rfl
      cases next

theorem ReturnsEndLines.inline_dropReturn {text row : Text} (ends : ReturnsEndLines text)
    (member : row ∈ lines text) : Inline row.dropReturn := by
  obtain ⟨ending, -, parts⟩ := exists_eq_dropReturn_append row
  obtain ⟨above, below, split⟩ := List.append_of_mem member
  constructor
  · intro broken
    apply unbroken_lines text row member
    rw [parts]
    exact List.mem_append_left _ broken
  · intro present
    obtain ⟨front, rest, inside⟩ := List.append_of_mem present
    have inRow : row = front ++ '\r' :: (rest ++ ending) := by
      rw [parts, inside, List.append_assoc, List.cons_append]
    -- Nothing stands behind the return, so that it would have been dropped.
    obtain ⟨rfl, rfl⟩ := List.append_eq_nil_iff.mp (ends.eq_nil_of_lines split inRow).1
    rw [List.append_nil] at parts
    rw [← parts] at inside
    have shorter := congrArg List.length parts
    rw [dropReturn, inside, if_pos (by simp)] at shorter
    simp at shorter

theorem ReturnsEndLines.inline_last {text row : Text} {above : List Text}
    (ends : ReturnsEndLines text) (split : lines text = above ++ [row]) : Inline row := by
  constructor
  · exact unbroken_lines text row (by simp [split])
  · intro present
    obtain ⟨front, rest, inside⟩ := List.append_of_mem present
    exact (ends.eq_nil_of_lines split inside).2 rfl

end DocComments.Text
