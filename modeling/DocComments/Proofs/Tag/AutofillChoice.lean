import DocComments.Proofs.Tag.Warnings
import Mathlib.Data.List.Forall2

/-!
# Choosing autofills by removing the others

A choice of autofills comes to the same as a registry in which the rules of all other tags have lost
theirs. For the turn of one tag this is `Entry.completeField_keepAutofill`. Without their autofills
the rules still read lines as before (`readsAlike_keepAutofills`), so the comments say the same by
themselves, and the fields and events of a whole report are the same: `read_eq_read_keepAutofills`.
-/

namespace DocComments

/-- A rule with its autofill, or without it. -/
def TagRule.keepAutofill (rule : TagRule) (keep : Bool) : TagRule :=
  if keep then rule else { rule with autofill := none }

namespace TagRule

theorem reading_keepAutofill (rule : TagRule) (keep : Bool) :
    (rule.keepAutofill keep).reading = rule.reading := by
  cases keep <;> rfl

theorem allows_keepAutofill (rule : TagRule) (keep : Bool) :
    (rule.keepAutofill keep).allows = rule.allows := by
  cases keep <;> rfl

theorem fallback_keepAutofill (rule : TagRule) (keep : Bool) :
    (rule.keepAutofill keep).fallback = rule.fallback := by
  cases keep <;> rfl

end TagRule

/-- The registry in which the tags with a property keep their autofill, and the others have none. -/
def Registry.keepAutofills (registry : Registry) (keeps : String → Bool) : Registry :=
  { registry with rules := registry.rules.mapValues fun name rule => rule.keepAutofill (keeps name) }

namespace Registry

variable {first second : Registry}

theorem rule?_keepAutofills (registry : Registry) (keeps : String → Bool) (name : String) :
    (registry.keepAutofills keeps).rule? name =
      (registry.rule? name).map fun rule => rule.keepAutofill (keeps name) :=
  Table.get?_mapValues _ registry.rules name

theorem readsAlike_keepAutofills (registry : Registry) (keeps : String → Bool) :
    ReadsAlike registry (registry.keepAutofills keeps) where
  names _ := rfl
  rules name := by
    rw [rule?_keepAutofills, Option.map_map]
    exact Option.map_congr fun rule _ => (rule.reading_keepAutofill (keeps name)).symm

theorem ReadsAlike.allows_eq (alike : ReadsAlike first second) (name kind : String) :
    first.allows name kind = second.allows name kind := by
  have reads (registry : Registry) : registry.allows name kind =
      ((registry.rule? name).map TagRule.reading).all (·.allows kind) := by
    rw [allows, Option.all_map]
    rfl
  rw [reads, reads, alike.rules]

theorem ReadsAlike.inheriting_eq (alike : ReadsAlike first second) (own : Entry)
    (poster : Option Entry) : own.inheriting first poster = own.inheriting second poster := by
  have field : Entry.inheritField first = Entry.inheritField second := by
    funext entry field
    rw [Entry.inheritField, Entry.inheritField, alike.allows_eq]
  cases poster with
  | none => rfl
  | some lender =>
      show own.inherit first lender = own.inherit second lender
      rw [Entry.inherit, Entry.inherit, field]

end Registry

namespace Entry

theorem applyAutofill_keepAutofill (choice : Autofill) (entry : Entry) (name : String)
    (rule : TagRule) :
    entry.applyAutofill (.all true) name (rule.keepAutofill (choice.enables name)) =
      entry.applyAutofill choice name rule := by
  rw [applyAutofill_eq, applyAutofill_eq]
  cases choice.enables name with
  | true => simp [TagRule.keepAutofill, Autofill.enables]
  | false => simp [TagRule.keepAutofill]

/-- In the turn of a tag it is the same whether its autofill is not enabled or not there. -/
theorem completeField_keepAutofill (choice : Autofill) (entry : Entry) (name : String)
    (rule : TagRule) :
    entry.completeField (.all true) name (rule.keepAutofill (choice.enables name)) =
      entry.completeField choice name rule := by
  simp only [completeField, applyFallback, TagRule.allows_keepAutofill,
    TagRule.fallback_keepAutofill, applyAutofill_keepAutofill]

theorem complete_keepAutofill (choice : Autofill) (entry : Entry)
    (rules : List (String × TagRule)) :
    entry.complete (.all true)
        (rules.map fun (name, rule) => (name, rule.keepAutofill (choice.enables name))) =
      entry.complete choice rules := by
  induction rules generalizing entry with
  | nil => rfl
  | cons first rules ih =>
      obtain ⟨name, rule⟩ := first
      simp only [List.map_cons, complete, completeField_keepAutofill, ih]

end Entry

namespace TagReader

/-- A reader gives the report of the reader that enables all autofills of a registry in which none
are left but those it enables itself. -/
theorem read_eq_read_keepAutofills (registry : Registry) (choice : Autofill)
    (comments : List Comment) :
    TagReader.read ⟨registry, choice⟩ comments =
      TagReader.read ⟨registry.keepAutofills choice.enables, .all true⟩ comments := by
  have alike := registry.readsAlike_keepAutofills choice.enables
  have finishes (poster : Option Entry) (own : Entry) :
      TagReader.finish ⟨registry, choice⟩ poster own =
        TagReader.finish ⟨registry.keepAutofills choice.enables, .all true⟩ poster own := by
    rw [finish_eq, finish_eq, alike.inheriting_eq]
    exact (Entry.complete_keepAutofill choice _ registry.rules.entries).symm
  have owns : List.Forall₂ (fun comment other => comment.role = other.role ∧
      registry.ownEntry comment = (registry.keepAutofills choice.enables).ownEntry other)
        comments comments :=
    List.forall₂_same.mpr fun comment _ => ⟨rfl, alike.ownEntry_eq comment⟩
  rw [read, readFrom_congr finishes owns none, read]

/-- To enable the autofills of some tags, given by their names or aliases, is to remove those of the
tags whose registered name none of these stands for. To enable none is to remove all. -/
theorem read_autofills_removed (registry : Registry) (names : List String)
    (comments : List Comment) :
    (TagReader.new registry (.only names)).read comments =
        (TagReader.new (registry.keepAutofills fun name =>
          decide (∃ alternative ∈ names, registry.canonicalName alternative = name))
          (.all true)).read comments ∧
      (TagReader.new registry (.all false)).read comments =
        (TagReader.new (registry.keepAutofills fun _ => false) (.all true)).read comments := by
  constructor
  · have enabled : (Autofill.canonical registry (.only names)).enables = fun name =>
        decide (∃ alternative ∈ names, registry.canonicalName alternative = name) := by
      funext name
      simp [Autofill.canonical, Autofill.enables, List.contains_eq_mem]
    rw [new, read_eq_read_keepAutofills, enabled]
    rfl
  · exact read_eq_read_keepAutofills registry (.all false) comments

end TagReader

end DocComments
