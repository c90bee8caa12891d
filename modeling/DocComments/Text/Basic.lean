/-!
# Text

A source, the body of a comment and a tag line are all lists of characters. Offsets into a text
count UTF-8 bytes, so the length that matters is `Text.byteSize`.

Two searches carry the whole of comment recognition: `Text.after?` asks whether a text opens with
a marker, and `Text.cut?` finds the first place where a marker occurs. Neither leaves more than it
was given: `length_le_of_after?` and `length_le_of_cut?`.
-/

namespace DocComments

/-- A piece of text, one character after the other. -/
abbrev Text := List Char

namespace Text

/-- The length of a text in UTF-8 bytes. -/
def byteSize (text : Text) : Nat := text.foldr (fun c size => c.utf8Size + size) 0

@[simp] theorem byteSize_nil : byteSize [] = 0 := rfl

@[simp] theorem byteSize_cons (c : Char) (text : Text) :
    byteSize (c :: text) = c.utf8Size + byteSize text := by
  simp [byteSize]

@[simp] theorem byteSize_append (first second : Text) :
    byteSize (first ++ second) = byteSize first + byteSize second := by
  induction first with
  | nil => simp
  | cons c first ih => rw [List.cons_append, byteSize_cons, ih, byteSize_cons, Nat.add_assoc]

/-- Spaces and tabs indent a line. No other character does. -/
def isBlank (c : Char) : Bool := c == ' ' || c == '\t'

/-- The spaces and tabs a text opens with. -/
def takeBlanks (text : Text) : Text := text.takeWhile isBlank

/-- A text without its leading spaces and tabs. -/
def dropBlanks (text : Text) : Text := text.dropWhile isBlank

/-- What follows `marker` in a text that opens with it. -/
def after? (marker text : Text) : Option Text := marker.isPrefixOf? text

@[simp] theorem after?_nil_left (text : Text) : after? [] text = some text := rfl

theorem after?_cons_cons (m c : Char) (marker text : Text) :
    after? (m :: marker) (c :: text) = if m = c then after? marker text else none := by
  show (if m == c then after? marker text else none) = _
  simp only [beq_iff_eq]

/-- Whether a text opens with `marker`. -/
def opensWith (marker text : Text) : Bool := (after? marker text).isSome

theorem length_le_of_after? {marker text rest : Text} (opens : after? marker text = some rest) :
    rest.length ≤ text.length := by
  induction marker generalizing text with
  | nil =>
      obtain rfl := Option.some.inj opens
      exact Nat.le_refl _
  | cons m marker ih =>
      cases text with
      | nil => cases opens
      | cons c text =>
          rw [after?_cons_cons] at opens
          split at opens
          · exact Nat.le_succ_of_le (ih opens)
          · cases opens

/-- Splits a text around the first occurrence of `marker`: what stands before it and what stands
after it. -/
def cut? (marker : Text) : Text → Option (Text × Text)
  | [] => (after? marker []).map fun rest => ([], rest)
  | c :: text =>
    match after? marker (c :: text) with
    | some rest => some ([], rest)
    | none => (cut? marker text).map fun (before, rest) => (c :: before, rest)

theorem length_le_of_cut? {marker text before rest : Text}
    (found : cut? marker text = some (before, rest)) : rest.length ≤ text.length := by
  induction text generalizing before with
  | nil =>
      simp only [cut?, Option.map_eq_some_iff, Prod.mk.injEq] at found
      obtain ⟨tail, opens, -, rfl⟩ := found
      exact length_le_of_after? opens
  | cons c text ih =>
      unfold cut? at found
      split at found
      · rename_i tail opens
        simp only [Option.some.injEq, Prod.mk.injEq] at found
        obtain ⟨-, rfl⟩ := found
        exact length_le_of_after? opens
      · simp only [Option.map_eq_some_iff, Prod.mk.injEq] at found
        obtain ⟨⟨head, tail⟩, cut, -, rfl⟩ := found
        exact Nat.le_succ_of_le (ih cut)

/-- A text without one trailing carriage return, if it ends in one. -/
def dropReturn (text : Text) : Text :=
  if text.getLast? = some '\r' then text.dropLast else text

end Text

end DocComments
