import DocComments.Proofs.Tag.Line
import DocComments.Proofs.Tag.Reader
import DocComments.Report
import Mathlib.Data.List.Forall2

/-!
# Spelling out aliases

In a tag line an alias may be replaced by the name it stands for, and nothing changes: the two lines
are read alike, and no entry can tell which of them it has taken in (`Respells.applyLine_eq`). This
holds for any of the lines of any comments, so a report does not show where aliases were used
(`read_respelled`). The name that an alias stands for has to be one that can be written in a line,
and it must not be an alias for something else: an alias is followed only once.
-/

namespace DocComments

/-- How a line may be spelled: as it is, or, if it is a tag line, with the name that its name stands
for in place of it. That one must be a name that stands for itself. What follows the name stays. -/
inductive Registry.Respells (registry : Registry) (line : String) : String → Prop
  | kept : Respells registry line line
  | renamed {name canonical other : String} {rest : Text}
      (written : line.toList = '@' :: (name.toList ++ rest))
      (isName : TagLine.IsName name.toList)
      (ends : rest.head?.any TagLine.isNameChar = false)
      (stands : registry.canonicalName name = canonical)
      (writable : TagLine.IsName canonical.toList)
      (settled : registry.canonicalName canonical = canonical)
      (rewritten : other.toList = '@' :: (canonical.toList ++ rest)) :
      Respells registry line other

/-- Whether a comment is another one with any of its lines spelled in another way. -/
def Comment.Respelled (registry : Registry) (comment other : Comment) : Prop :=
  ∃ lines, List.Forall₂ registry.Respells comment.lines lines ∧ other = { comment with lines }

variable {registry : Registry} {line other : String}

/-! ### One line -/

theorem Entry.applyLine_of_ne_text {reading : LineReading} (tagged : reading ≠ .text)
    (entry : Entry) (line other : String) :
    entry.applyLine other reading = entry.applyLine line reading := by
  cases reading with
  | text => exact absurd rfl tagged
  | unknown name => rfl
  | notAllowed name => rfl
  | value name content repeatable read => cases read <;> rfl

theorem Registry.Respells.applyLine_eq (respells : registry.Respells line other) (entry : Entry)
    (role : Role) (kind : String) :
    entry.applyLine other (registry.readLine role kind other) =
      entry.applyLine line (registry.readLine role kind line) := by
  cases respells with
  | kept => rfl
  | @renamed name canonical _ rest written isName ends stands writable settled rewritten =>
      have first := TagLine.read?_of_isName written isName ends
      have second := TagLine.read?_of_isName rewritten writable ends
      have same : registry.readLine role kind other = registry.readLine role kind line := by
        simp only [readLine, first, second, stands, settled]
      rw [same]
      exact Entry.applyLine_of_ne_text (readLine_ne_text first role kind) entry line other

/-! ### All lines of all comments -/

theorem Entry.readLines_respelled {lines others : List String} (role : Role)
    (respelled : List.Forall₂ registry.Respells lines others) (entry : Entry) :
    entry.readLines registry role others = entry.readLines registry role lines := by
  induction respelled generalizing entry with
  | nil => rfl
  | cons here _ ih => simp only [readLines, here.applyLine_eq, ih]

theorem Comment.Respelled.ownEntry_eq {comment other : Comment}
    (respelled : comment.Respelled registry other) :
    registry.ownEntry other = registry.ownEntry comment := by
  obtain ⟨lines, spelled, rfl⟩ := respelled
  exact Entry.readLines_respelled comment.role spelled (Entry.ofComment comment)

namespace TagReader

/-- A report does not depend on whether tag lines name a tag or use an alias for it. -/
theorem read_respelled (reader : TagReader) {comments others : List Comment}
    (respelled : List.Forall₂ (Comment.Respelled reader.registry) comments others) :
    reader.read others = reader.read comments := by
  have same : List.Forall₂ (fun comment other => comment.role = other.role ∧
      reader.registry.ownEntry comment = reader.registry.ownEntry other) comments others := by
    refine respelled.imp ?_
    intro comment other spelled
    refine ⟨?_, spelled.ownEntry_eq.symm⟩
    obtain ⟨lines, -, rfl⟩ := spelled
    rfl
  rw [read, read, readFrom_congr (fun _ _ => rfl) same]

theorem read_respelled_mixed :
    let text : TagRule := { parse := some fun content => some (.string content) }
    let registry : Registry := Registry.insertAlias
      (Registry.insertAlias (Registry.insertAlias (Registry.insert (Registry.insert
        (Registry.insert {} "see" text) "param" { text with kinds := some ["function"] })
        "old" text) "old" "see") "p" "param") "x" "lost"
    let reader := TagReader.new registry (.all true)
    let poster (lines : List String) : Comment := { lines, role := .poster, context := {} }
    let normal (lines : List String) : Comment := { lines, context := { kind := "class" } }
    let written := [poster ["@old a", "@p\tb "], normal ["c", "@p d", "@x", "@old, e"]]
    let respelled := [poster ["@see a", "@p\tb "], normal ["c", "@param d", "@lost", "@see, e"]]
    reader.read respelled = reader.read written ∧
      (reader.read respelled).warnings = [.notAllowed "param" "class", .unknown "lost"] := by
  intro text registry reader poster normal written respelled
  constructor
  · apply reader.read_respelled
    have old : registry.canonicalName "old" = "see" ∧ registry.canonicalName "see" = "see" := by
      decide +kernel
    have short : registry.canonicalName "p" = "param" ∧
        registry.canonicalName "param" = "param" := by
      decide +kernel
    have unknown : registry.canonicalName "x" = "lost" ∧ registry.canonicalName "lost" = "lost" := by
      decide +kernel
    refine .cons ⟨_, .cons ?_ (.cons .kept .nil), rfl⟩
      (.cons ⟨_, .cons .kept (.cons ?_ (.cons ?_ (.cons ?_ .nil))), rfl⟩ .nil)
    · have spelled : "@old a".toList = '@' :: ("old".toList ++ " a".toList) := rfl
      exact .renamed spelled (by decide) rfl old.1 (by decide) old.2 rfl
    · have spelled : "@p d".toList = '@' :: ("p".toList ++ " d".toList) := rfl
      exact .renamed spelled (by decide) rfl short.1 (by decide) short.2 rfl
    · have spelled : "@x".toList = '@' :: ("x".toList ++ []) := rfl
      exact .renamed spelled (by decide) rfl unknown.1 (by decide) unknown.2 rfl
    · have spelled : "@old, e".toList = '@' :: ("old".toList ++ ", e".toList) := rfl
      exact .renamed spelled (by decide) rfl old.1 (by decide) old.2 rfl
  · decide +kernel

end TagReader

end DocComments
