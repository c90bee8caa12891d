import DocComments.Proofs.Table
import DocComments.Tag.OwnEntry

/-!
# Reading the lines of a comment

Everything that can happen to an entry is said once. `Registry.Reads` lists what a line can turn out
to be, and `Entry.applyLine_cases` what taking it in does. An entry `Grows` when lines are added to
its description and fields are set; whatever was read or computed, it keeps its context and its
range, and it has no fields but those it had and those that were set.

For a whole comment, `contains_ownEntry` says which fields its lines set.
-/

namespace DocComments

/-! ### What a line turns out to be -/

/-- The readings that a line can have, each with what is then known about the line. -/
inductive Registry.Reads (registry : Registry) (role : Role) (kind line : String) :
    LineReading → Prop
  | text (plain : TagLine.read? line = none) : Reads registry role kind line .text
  | unknown {tag : TagLine} (splits : TagLine.read? line = some tag)
      (unreadable : (registry.rule? (registry.canonicalName tag.name)).bind TagRule.parse = none) :
      Reads registry role kind line (.unknown (registry.canonicalName tag.name))
  | notAllowed {tag : TagLine} {rule : TagRule} {parse : String → Option Value}
      (splits : TagLine.read? line = some tag)
      (known : registry.rule? (registry.canonicalName tag.name) = some rule)
      (readable : rule.parse = some parse) (normal : role = .normal)
      (refused : rule.allows kind = false) :
      Reads registry role kind line (.notAllowed (registry.canonicalName tag.name))
  | value {tag : TagLine} {rule : TagRule} {parse : String → Option Value}
      (splits : TagLine.read? line = some tag)
      (known : registry.rule? (registry.canonicalName tag.name) = some rule)
      (readable : rule.parse = some parse) (allowed : role = .normal → rule.allows kind = true) :
      Reads registry role kind line
        (.value (registry.canonicalName tag.name) tag.content rule.repeatable (parse tag.content))

theorem Registry.reads_readLine (registry : Registry) (role : Role) (kind line : String) :
    registry.Reads role kind line (registry.readLine role kind line) := by
  unfold readLine
  split
  next plain => exact .text plain
  next tag splits =>
    simp only
    split
    next missing => exact .unknown splits (by rw [missing]; rfl)
    next rule known =>
      split
      next unreadable => exact .unknown splits (by rw [known]; exact unreadable)
      next parse readable =>
        split
        next refused =>
          simp only [Bool.and_eq_true, decide_eq_true_eq, Bool.not_eq_true'] at refused
          exact .notAllowed splits known readable refused.1 refused.2
        next permitted =>
          refine .value splits known readable ?_
          intro normal
          simpa [normal] using permitted

/-- A line has only one of the readings. -/
theorem Registry.Reads.readLine_eq {registry : Registry} {role : Role} {kind line : String}
    {reading : LineReading} (reads : registry.Reads role kind line reading) :
    registry.readLine role kind line = reading := by
  cases reads with
  | text plain => simp only [readLine, plain]
  | unknown splits unreadable =>
      simp only [readLine, splits]
      split
      next => rfl
      next rule known =>
        rw [known, Option.bind_some] at unreadable
        rw [unreadable]
  | notAllowed splits known readable normal refused =>
      simp only [readLine, splits, known, readable]
      rw [if_pos (by simp [normal, refused])]
  | value splits known readable allowed =>
      simp only [readLine, splits, known, readable]
      rw [if_neg (by simpa using allowed)]

theorem Registry.readLine_ne_text {registry : Registry} {line : String} {tag : TagLine}
    (splits : TagLine.read? line = some tag) (role : Role) (kind : String) :
    registry.readLine role kind line ≠ .text := by
  intro plain
  have reads := registry.reads_readLine role kind line
  rw [plain] at reads
  cases reads with
  | text unsplit =>
      rw [splits] at unsplit
      cases unsplit

/-- The tag whose field a line sets: the one of which it has a value. -/
def LineReading.field? : LineReading → Option String
  | .value name _ _ (some _) => some name
  | _ => none

/-! ### What a line does to an entry -/

namespace Entry

variable {entry start : Entry} {name : String}

theorem contains_setField (value : FieldValue) (other : String) :
    (entry.setField name value).contains other = (decide (other = name) || entry.contains other) :=
  Table.contains_insert

/-- A value is stored in the field of its tag, or refused because there is one already. -/
theorem store?_cases (entry : Entry) (name : String) (repeatable : Bool) (value : Value) :
    (∃ field, entry.store? name repeatable value = some (entry.setField name field)) ∨
      (entry.store? name repeatable value = none ∧ entry.contains name = true) := by
  unfold store?
  split
  · exact Or.inl ⟨_, rfl⟩
  · split
    · split
      · exact Or.inl ⟨_, rfl⟩
      · exact Or.inl ⟨_, rfl⟩
    · split
      next present => exact Or.inr ⟨rfl, present⟩
      next => exact Or.inl ⟨_, rfl⟩

/-- A line is added to the description, sets the field of its tag, or changes nothing. In the last
case a field that it could have set is there already. -/
theorem applyLine_cases (entry : Entry) (line : String) (reading : LineReading) :
    (reading.field? = none ∧ (entry.applyLine line reading).1 = entry.addLine line) ∨
      (∃ name field, reading.field? = some name ∧
        (entry.applyLine line reading).1 = entry.setField name field) ∨
      ((entry.applyLine line reading).1 = entry ∧
        ∀ name ∈ reading.field?, entry.contains name = true) := by
  cases reading with
  | text => exact Or.inl ⟨rfl, rfl⟩
  | unknown name => exact Or.inr (Or.inr ⟨rfl, nofun⟩)
  | notAllowed name => exact Or.inr (Or.inr ⟨rfl, nofun⟩)
  | value name content repeatable read =>
      cases read with
      | none => exact Or.inr (Or.inr ⟨rfl, nofun⟩)
      | some value =>
          rcases store?_cases entry name repeatable value with ⟨field, stored⟩ | ⟨refused, present⟩
          · refine Or.inr (Or.inl ⟨name, field, rfl, ?_⟩)
            simp only [applyLine, stored]
          · refine Or.inr (Or.inr ⟨?_, ?_⟩)
            · simp only [applyLine, refused]
            · intro other same
              obtain rfl := Option.some.inj same
              exact present

theorem contains_applyLine (entry : Entry) (line : String) (reading : LineReading) (name : String) :
    (entry.applyLine line reading).1.contains name =
      (entry.contains name || decide (reading.field? = some name)) := by
  rcases applyLine_cases entry line reading with
    ⟨unset, added⟩ | ⟨other, field, sets, stored⟩ | ⟨unchanged, present⟩
  · rw [added, unset]
    simp [addLine, contains]
  · rw [stored, contains_setField, sets, Bool.or_comm]
    simp [eq_comm]
  · rw [unchanged]
    by_cases sets : reading.field? = some name
    · simp [present name sets]
    · simp [sets]

/-! ### Growth -/

/-- An entry that was made out of another one by adding lines to the description and setting fields
of tags with a property. -/
inductive Grows (sets : String → Prop) (start : Entry) : Entry → Prop
  | start : Grows sets start start
  | line {entry : Entry} (grows : Grows sets start entry) (line : String) :
      Grows sets start (entry.addLine line)
  | field {entry : Entry} {name : String} (grows : Grows sets start entry) (set : sets name)
      (value : FieldValue) : Grows sets start (entry.setField name value)

namespace Grows

variable {sets larger : String → Prop}

theorem trans {middle : Entry} (first : Grows sets start middle)
    (second : Grows sets middle entry) : Grows sets start entry := by
  induction second with
  | start => exact first
  | line _ line ih => exact ih.line line
  | field _ set value ih => exact ih.field set value

theorem mono (grows : Grows sets start entry) (included : ∀ name, sets name → larger name) :
    Grows larger start entry := by
  induction grows with
  | start => exact .start
  | line _ line ih => exact ih.line line
  | field _ set value ih => exact ih.field (included _ set) value

theorem context_eq (grows : Grows sets start entry) : entry.context = start.context := by
  induction grows with
  | start => rfl
  | line _ _ ih => exact ih
  | field _ _ _ ih => exact ih

theorem range_eq (grows : Grows sets start entry) : entry.range = start.range := by
  induction grows with
  | start => rfl
  | line _ _ ih => exact ih
  | field _ _ _ ih => exact ih

theorem contains_or_sets (grows : Grows sets start entry) (present : entry.contains name = true) :
    start.contains name = true ∨ sets name := by
  induction grows with
  | start => exact Or.inl present
  | line _ _ ih => exact ih present
  | field _ set _ ih =>
      rw [contains_setField, Bool.or_eq_true, decide_eq_true_eq] at present
      rcases present with rfl | earlier
      · exact Or.inr set
      · exact ih earlier

end Grows

end Entry

/-! ### The lines of a comment -/

/-- Whether a tag may be set by the lines of a comment: it has a rule, which allows it unless the
comment is a poster. -/
def Registry.Admits (registry : Registry) (role : Role) (kind name : String) : Prop :=
  ∃ rule, registry.rule? name = some rule ∧ (role = .normal → rule.allows kind = true)

variable {registry : Registry} {role : Role}

/-- A line that sets a field is a tag line for a rule that can read it and allows it. -/
theorem Registry.Reads.exists_rule {kind line name : String} {reading : LineReading}
    (reads : registry.Reads role kind line reading) (sets : reading.field? = some name) :
    ∃ tag rule, TagLine.read? line = some tag ∧ registry.canonicalName tag.name = name ∧
      registry.rule? name = some rule ∧ rule.parse.isSome = true ∧
      (role = .normal → rule.allows kind = true) := by
  cases reads with
  | text => cases sets
  | unknown => cases sets
  | notAllowed => cases sets
  | @value tag rule parse splits known readable allowed =>
      cases read : parse tag.content with
      | none =>
          rw [read] at sets
          cases sets
      | some value =>
          rw [read] at sets
          obtain rfl := Option.some.inj sets
          exact ⟨tag, rule, splits, rfl, known, by rw [readable]; rfl, allowed⟩

namespace Entry

theorem grows_applyLine {kind line : String} {reading : LineReading}
    (reads : registry.Reads role kind line reading) (entry : Entry) :
    Grows (registry.Admits role kind) entry (entry.applyLine line reading).1 := by
  rcases applyLine_cases entry line reading with
    ⟨-, added⟩ | ⟨name, field, sets, stored⟩ | ⟨unchanged, -⟩
  · rw [added]
    exact Grows.start.line line
  · obtain ⟨tag, rule, -, -, known, -, allowed⟩ := reads.exists_rule sets
    rw [stored]
    exact Grows.start.field ⟨rule, known, allowed⟩ field
  · rw [unchanged]
    exact .start

theorem context_applyLine (entry : Entry) (line : String) (reading : LineReading) :
    (entry.applyLine line reading).1.context = entry.context := by
  rcases applyLine_cases entry line reading with
    ⟨-, added⟩ | ⟨name, field, -, stored⟩ | ⟨unchanged, -⟩
  · rw [added]
    rfl
  · rw [stored]
    rfl
  · rw [unchanged]

theorem readLines_cons (entry : Entry) (line : String) (lines : List String) :
    (entry.readLines registry role (line :: lines)).1 =
      ((entry.applyLine line (registry.readLine role entry.context.kind line)).1.readLines registry
        role lines).1 := rfl

theorem readLines_append (entry : Entry) (before after : List String) :
    (entry.readLines registry role (before ++ after)).1 =
      ((entry.readLines registry role before).1.readLines registry role after).1 := by
  induction before generalizing entry with
  | nil => rfl
  | cons line before ih => rw [List.cons_append, readLines_cons, readLines_cons, ih]

theorem events_readLines_cons (entry : Entry) (line : String) (lines : List String) :
    (entry.readLines registry role (line :: lines)).2 =
      (entry.applyLine line (registry.readLine role entry.context.kind line)).2 ++
        ((entry.applyLine line (registry.readLine role entry.context.kind line)).1.readLines
          registry role lines).2 := rfl

theorem events_readLines_append (entry : Entry) (before after : List String) :
    (entry.readLines registry role (before ++ after)).2 =
      (entry.readLines registry role before).2 ++
        ((entry.readLines registry role before).1.readLines registry role after).2 := by
  induction before generalizing entry with
  | nil => rfl
  | cons line before ih =>
      rw [List.cons_append, events_readLines_cons, events_readLines_cons, readLines_cons, ih,
        List.append_assoc]

theorem grows_readLines (entry : Entry) (lines : List String) :
    Grows (registry.Admits role entry.context.kind) entry
      (entry.readLines registry role lines).1 := by
  induction lines generalizing entry with
  | nil => exact .start
  | cons line lines ih =>
      have first := grows_applyLine (registry.reads_readLine role entry.context.kind line) entry
      have later := ih (entry.applyLine line (registry.readLine role entry.context.kind line)).1
      rw [first.context_eq] at later
      exact first.trans later

/-- The last line of some is taken in by the entry that the others have made. -/
theorem readLines_concat (entry : Entry) (lines : List String) (line : String) :
    let made := entry.readLines registry role lines
    let last := made.1.applyLine line (registry.readLine role entry.context.kind line)
    entry.readLines registry role (lines ++ [line]) = (last.1, made.2 ++ last.2) := by
  intro made last
  have single : made.1.readLines registry role [line] = (last.1, last.2 ++ []) := by
    rw [readLines, (grows_readLines entry lines).context_eq]
    rfl
  apply Prod.ext
  · rw [readLines_append, single]
  · rw [events_readLines_append, single, List.append_nil]

theorem contains_readLines (entry : Entry) (lines : List String) (name : String) :
    (entry.readLines registry role lines).1.contains name =
      (entry.contains name || lines.any fun line =>
        decide ((registry.readLine role entry.context.kind line).field? = some name)) := by
  induction lines generalizing entry with
  | nil => simp [readLines]
  | cons line lines ih =>
      rw [readLines_cons, ih, contains_applyLine, context_applyLine, List.any_cons, Bool.or_assoc]

end Entry

theorem Registry.grows_ownEntry (registry : Registry) (comment : Comment) :
    Entry.Grows (registry.Admits comment.role comment.context.kind) (Entry.ofComment comment)
      (registry.ownEntry comment).1 :=
  Entry.grows_readLines (Entry.ofComment comment) comment.lines

/-- A comment with one more line has the entry that takes in this line. -/
theorem Registry.ownEntry_concat (registry : Registry) (comment : Comment) (line : String) :
    let own := registry.ownEntry comment
    let last := own.1.applyLine line (registry.readLine comment.role comment.context.kind line)
    registry.ownEntry { comment with lines := comment.lines ++ [line] } =
      (last.1, own.2 ++ last.2) :=
  Entry.readLines_concat (Entry.ofComment comment) comment.lines line

/-- The lines of a comment set the fields of the tags of which they have a value. -/
theorem Registry.contains_ownEntry (registry : Registry) (comment : Comment) (name : String) :
    (registry.ownEntry comment).1.contains name = comment.lines.any fun line =>
      decide ((registry.readLine comment.role comment.context.kind line).field? = some name) := by
  rw [ownEntry, Entry.contains_readLines]
  rfl

end DocComments
