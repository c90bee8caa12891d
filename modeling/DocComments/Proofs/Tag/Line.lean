import DocComments.Proofs.Text.Lines
import DocComments.Proofs.Text.Search
import DocComments.Tag.Line

/-!
# The grammar of tag lines

A tag line is `@` and a name, which goes on as far as it can, and then the content with blanks around
it. `Written` says so without a word on how a line is read, and reading accepts exactly these lines
and gives back their two parts: `read?_grammar`. Whether a line is a tag line at all is seen from its
first two characters: `isSome_read?`.
-/

namespace DocComments.TagLine

open Text

/-! ### Blanks at both ends -/

/-- A text is `content` with the blanks `gap` in front of it and the blanks `trail` behind it. All
blanks that can go to the two ends do, and those of a text without content stand in front. -/
structure Padded (text gap content trail : Text) : Prop where
  text_eq : text = gap ++ (content ++ trail)
  gap_blank : gap.all isBlank = true
  trail_blank : trail.all isBlank = true
  starts : content.head?.any isBlank = false
  stops : content.getLast?.any isBlank = false
  bare : content = [] → trail = []

variable {text gap content trail name : Text}

theorem Padded.trimBlanks_eq (padded : Padded text gap content trail) :
    trimBlanks text = content := by
  obtain ⟨rfl, gapBlank, trailBlank, starts, stops, bare⟩ := padded
  have opened : dropBlanks (gap ++ (content ++ trail)) = content ++ trail := by
    apply dropWhile_append_of_stop (List.all_eq_true.mp gapBlank)
    intro c first
    cases content with
    | nil =>
        rw [bare rfl] at first
        cases first
    | cons d content => exact (Option.any_eq_false _ _).mp starts c first
  have closed : dropBlanks (trail.reverse ++ content.reverse) = content.reverse := by
    rw [← List.all_reverse] at trailBlank
    rw [← List.head?_reverse, Option.any_eq_false] at stops
    exact dropWhile_append_of_stop (List.all_eq_true.mp trailBlank) stops
  rw [trimBlanks, opened, List.reverse_append, closed, List.reverse_reverse]

theorem exists_padded_trimBlanks (text : Text) :
    ∃ gap trail, Padded text gap (trimBlanks text) trail := by
  let trail := (takeBlanks text.dropBlanks.reverse).reverse
  have parts : text.dropBlanks = trimBlanks text ++ trail := by
    have reversed := takeBlanks_append_dropBlanks text.dropBlanks.reverse
    rw [trimBlanks, ← List.reverse_append, reversed, List.reverse_reverse]
  have visible : text.dropBlanks.head?.any isBlank = false := any_head?_dropWhile isBlank text
  have trailBlank : trail.all isBlank = true := by
    rw [List.all_reverse]
    exact List.all_takeWhile
  refine ⟨text.takeBlanks, trail, ?_, List.all_takeWhile, trailBlank, ?_, ?_, ?_⟩
  · rw [← parts, takeBlanks_append_dropBlanks]
  · rw [parts, Option.any_eq_false] at visible
    rw [Option.any_eq_false]
    intro c first
    apply visible c
    rw [List.head?_append, first, Option.some_or]
  · rw [trimBlanks, List.getLast?_reverse]
    exact any_head?_dropWhile isBlank _
  · -- Blanks alone would all have been taken off in front.
    intro none
    rw [parts, none, List.nil_append] at visible
    cases blanks : trail with
    | nil => rfl
    | cons c rest =>
        rw [blanks, List.all_cons, Bool.and_eq_true] at trailBlank
        rw [blanks, List.head?_cons, Option.any_some, trailBlank.1] at visible
        cases visible

theorem trimBlanks_eq_iff : trimBlanks text = content ↔ ∃ gap trail, Padded text gap content trail := by
  constructor
  · rintro rfl
    exact exists_padded_trimBlanks text
  · rintro ⟨gap, trail, padded⟩
    exact padded.trimBlanks_eq

/-! ### Names -/

/-- Whether a text can be written as the name of a tag line. -/
def IsName (text : Text) : Prop := text ≠ [] ∧ text.all isNameChar = true

instance (text : Text) : Decidable (IsName text) := inferInstanceAs (Decidable (_ ∧ _))

theorem isNameChar_iff {c : Char} :
    isNameChar c = true ↔
      ('A' ≤ c ∧ c ≤ 'Z') ∨ ('a' ≤ c ∧ c ≤ 'z') ∨ ('0' ≤ c ∧ c ≤ '9') ∨ c = '_' := by
  have letterOrDigit : c.isAlphanum = (c.isUpper || c.isLower || c.isDigit) := rfl
  have upper : c.isUpper = decide ('A' ≤ c ∧ c ≤ 'Z') := rfl
  have lower : c.isLower = (decide ('a' ≤ c) && decide (c ≤ 'z')) := rfl
  have digit : c.isDigit = (decide ('0' ≤ c) && decide (c ≤ '9')) := rfl
  simp only [isNameChar, letterOrDigit, upper, lower, digit, Bool.or_eq_true, Bool.and_eq_true,
    decide_eq_true_eq, beq_iff_eq, or_assoc]

/-! ### Reading -/

/-- Whether a line starts as tag lines do: with `@` and a character of a name. -/
def opens : Text → Bool
  | '@' :: c :: _ => isNameChar c
  | _ => false

theorem opens_iff {line : Text} :
    opens line = true ↔ ∃ c rest, line = '@' :: c :: rest ∧ isNameChar c = true := by
  constructor
  · intro opened
    unfold opens at opened
    split at opened
    next c rest => exact ⟨c, rest, rfl, opened⟩
    next => cases opened
  · rintro ⟨c, rest, rfl, named⟩
    exact named

/-- How a tag line is written: `@`, a name, and the content between blanks. Behind the name stands no
further character of a name. -/
def Written (line name content : Text) : Prop :=
  ∃ rest, line = '@' :: (name ++ rest) ∧ IsName name ∧ rest.head?.any isNameChar = false ∧
    ∃ gap trail, Padded rest gap content trail

theorem split?_eq_some_iff {line : Text} :
    split? line = some (name, content) ↔
      ∃ rest, line = '@' :: (name ++ rest) ∧ IsName name ∧ rest.head?.any isNameChar = false ∧
        trimBlanks rest = content := by
  constructor
  · intro splits
    unfold split? at splits
    split at splits
    next rest =>
      dsimp only at splits
      split at splits
      next => cases splits
      next inhabited =>
        obtain ⟨rfl, rfl⟩ := Prod.mk.inj (Option.some.inj splits)
        refine ⟨rest.dropWhile isNameChar, ?_, ⟨?_, List.all_takeWhile⟩, ?_, rfl⟩
        · rw [List.takeWhile_append_dropWhile]
        · rwa [List.isEmpty_iff] at inhabited
        · exact any_head?_dropWhile isNameChar rest
    next => cases splits
  · rintro ⟨rest, rfl, ⟨inhabited, parts⟩, ends, rfl⟩
    have all : ∀ c ∈ name, isNameChar c = true := List.all_eq_true.mp parts
    have stop := (Option.any_eq_false _ _).mp ends
    have full : name.isEmpty = false := List.isEmpty_eq_false_iff.mpr inhabited
    simp only [split?, takeWhile_append_of_stop all stop, dropWhile_append_of_stop all stop, full,
      Bool.false_eq_true, if_false]

theorem split?_eq_some_iff_written {line : Text} :
    split? line = some (name, content) ↔ Written line name content := by
  simp only [split?_eq_some_iff, trimBlanks_eq_iff, Written]

theorem isSome_split? (line : Text) : (split? line).isSome = opens line := by
  rw [Bool.eq_iff_iff, opens_iff]
  constructor
  · intro found
    obtain ⟨⟨name, content⟩, splits⟩ := Option.isSome_iff_exists.mp found
    obtain ⟨rest, rfl, ⟨inhabited, parts⟩, -⟩ := split?_eq_some_iff.mp splits
    obtain ⟨c, more, rfl⟩ := List.exists_cons_of_ne_nil inhabited
    exact ⟨c, more ++ rest, rfl, List.all_eq_true.mp parts c List.mem_cons_self⟩
  · rintro ⟨c, rest, rfl, named⟩
    simp [split?, named]

theorem read?_eq_some_iff {line : String} {tag : TagLine} :
    read? line = some tag ↔ split? line.toList = some (tag.name.toList, tag.content.toList) := by
  rw [read?, Option.map_eq_some_iff]
  constructor
  · rintro ⟨⟨name, content⟩, splits, rfl⟩
    rw [splits, String.toList_ofList, String.toList_ofList]
  · intro splits
    refine ⟨_, splits, ?_⟩
    dsimp only
    rw [String.ofList_toList, String.ofList_toList]

theorem isSome_read? (line : String) : (read? line).isSome = opens line.toList := by
  rw [read?, Option.isSome_map, isSome_split?]

/-- A line is a tag line if it starts with `@` and a name, and the name ends where a character
follows that no name has. -/
theorem read?_of_isName {line name : String} {rest : Text}
    (written : line.toList = '@' :: (name.toList ++ rest)) (isName : IsName name.toList)
    (ends : rest.head?.any isNameChar = false) :
    read? line = some ⟨name, String.ofList (trimBlanks rest)⟩ := by
  rw [read?_eq_some_iff, split?_eq_some_iff]
  exact ⟨rest, written, isName, ends, String.toList_ofList.symm⟩

theorem exists_of_read? {line : String} {tag : TagLine} (splits : read? line = some tag) :
    ∃ rest, line.toList = '@' :: (tag.name.toList ++ rest) ∧
      tag.content.toList = trimBlanks rest := by
  rw [read?_eq_some_iff, split?_eq_some_iff] at splits
  obtain ⟨rest, written, -, -, trimmed⟩ := splits
  exact ⟨rest, written, trimmed.symm⟩

/-- Reading a line gives a name and a content exactly if the line is written with them as a tag line,
which can be in one way only. It gives nothing exactly if the line does not start with `@` and a
letter, a digit or an underscore. -/
theorem read?_grammar (line : String) :
    (∀ tag, read? line = some tag ↔
      Written line.toList tag.name.toList tag.content.toList) ∧
    (∀ name content other more, Written line.toList name content → Written line.toList other more →
      name = other ∧ content = more) ∧
    (read? line = none ↔ ¬ ∃ c rest, line.toList = '@' :: c :: rest ∧ isNameChar c = true) ∧
    ∀ c, isNameChar c = true ↔
      ('A' ≤ c ∧ c ≤ 'Z') ∨ ('a' ≤ c ∧ c ≤ 'z') ∨ ('0' ≤ c ∧ c ≤ '9') ∨ c = '_' := by
  refine ⟨?_, ?_, ?_, fun c => isNameChar_iff⟩
  · intro tag
    rw [read?_eq_some_iff, split?_eq_some_iff_written]
  · intro name content other more first second
    rw [← split?_eq_some_iff_written] at first second
    exact Prod.mk.inj (Option.some.inj (first.symm.trans second))
  · rw [← opens_iff, ← isSome_read?, Bool.not_eq_true, Option.isSome_eq_false_iff,
      Option.isNone_iff_eq_none]

/-- A name ends before a letter that is not ASCII, and content may have line breaks in it. -/
theorem read?_grammar_broken :
    let line := "@name_1é\r\n\tb \t"
    Written line.toList "name_1".toList "é\r\n\tb".toList ∧
      read? line = some ⟨"name_1", "é\r\n\tb"⟩ ∧
      ∀ name content, Written line.toList name content →
        name = "name_1".toList ∧ content = "é\r\n\tb".toList := by
  intro line
  have padded : Padded "é\r\n\tb \t".toList [] "é\r\n\tb".toList " \t".toList :=
    ⟨rfl, rfl, rfl, rfl, rfl, nofun⟩
  have written : Written line.toList "name_1".toList "é\r\n\tb".toList :=
    ⟨_, by decide +kernel, by decide, rfl, _, _, padded⟩
  obtain ⟨reads, unique, -⟩ := read?_grammar line
  exact ⟨written, (reads ⟨"name_1", "é\r\n\tb"⟩).mpr written,
    fun name content other => unique _ _ _ _ other written⟩

end DocComments.TagLine
