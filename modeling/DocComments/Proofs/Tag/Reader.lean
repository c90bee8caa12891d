import DocComments.Proofs.Tag.OwnEntry
import DocComments.Tag.Reader

/-!
# Reading comment by comment

A reader goes from one comment to the next with nothing in its hands but the first poster it has
met. So a run over some comments and then some more is two runs, the second of which starts with
that poster (`readFrom_append`), and every entry is the entry of one normal comment, finished with
the first poster in front of it (`exists_of_mem_readFrom`). What happens to an entry on the way is
told by the fields that can be set (`grows_finish`).
-/

namespace DocComments

/-! ### Inherited and computed fields -/

namespace Entry

theorem grows_inheritField (registry : Registry) (entry : Entry) (field : String × FieldValue) :
    Grows (fun name => name = field.1 ∧ registry.allows name entry.context.kind = true) entry
      (inheritField registry entry field) := by
  unfold inheritField
  split
  next taken =>
    rw [Bool.and_eq_true] at taken
    exact Grows.start.field ⟨rfl, taken.1⟩ field.2
  next => exact .start

theorem grows_inheritFields (registry : Registry) (entry : Entry)
    (fields : List (String × FieldValue)) :
    Grows
      (fun name => name ∈ fields.map Prod.fst ∧ registry.allows name entry.context.kind = true)
      entry (fields.foldl (inheritField registry) entry) := by
  induction fields generalizing entry with
  | nil => exact .start
  | cons field fields ih =>
      have here := grows_inheritField registry entry field
      have later := ih (inheritField registry entry field)
      rw [here.context_eq] at later
      refine (here.mono ?_).trans (later.mono ?_)
      · rintro name ⟨rfl, allowed⟩
        exact ⟨List.mem_cons_self, allowed⟩
      · rintro name ⟨member, allowed⟩
        exact ⟨List.mem_cons_of_mem _ member, allowed⟩

theorem grows_inherit (registry : Registry) (entry poster : Entry) :
    Grows
      (fun name => poster.contains name = true ∧ registry.allows name entry.context.kind = true)
      entry (entry.inherit registry poster) := by
  refine (grows_inheritFields registry entry poster.fields.entries).mono ?_
  exact fun name ⟨member, allowed⟩ => ⟨Table.contains_iff.mpr member, allowed⟩

theorem grows_compute (entry : Entry) (name : String) (function : Entry → Option FieldValue) :
    Grows (· = name) entry (entry.compute name function) := by
  unfold compute
  split
  next value computed =>
    refine Grows.start.field ?_ value
    rfl
  next => exact .start

theorem grows_applyFallback (entry : Entry) (name : String) (rule : TagRule) :
    Grows (· = name) entry (entry.applyFallback name rule).1 := by
  unfold applyFallback
  split
  · split
    · exact .start
    · exact grows_compute entry name _
  · exact .start

theorem grows_applyAutofill (choice : Autofill) (entry : Entry) (name : String) (rule : TagRule) :
    Grows (· = name) entry (entry.applyAutofill choice name rule).1 := by
  unfold applyAutofill
  split
  · split
    · exact grows_compute entry name _
    · exact .start
  · exact .start

theorem grows_completeField (choice : Autofill) (entry : Entry) (name : String) (rule : TagRule) :
    Grows (fun other => other = name ∧ rule.allows entry.context.kind = true) entry
      (entry.completeField choice name rule).1 := by
  unfold completeField
  split
  next allowed =>
    have filled := (grows_applyFallback entry name rule).trans
      (grows_applyAutofill choice (entry.applyFallback name rule).1 name rule)
    exact filled.mono fun other same => ⟨same, allowed⟩
  next => exact .start

theorem grows_complete (choice : Autofill) (entry : Entry) (rules : List (String × TagRule)) :
    Grows (fun name => ∃ rule, (name, rule) ∈ rules ∧ rule.allows entry.context.kind = true) entry
      (entry.complete choice rules).1 := by
  induction rules generalizing entry with
  | nil => exact .start
  | cons first rules ih =>
      obtain ⟨name, rule⟩ := first
      have here := grows_completeField choice entry name rule
      have later := ih (entry.completeField choice name rule).1
      rw [here.context_eq] at later
      refine (here.mono ?_).trans (later.mono ?_)
      · rintro other ⟨rfl, allowed⟩
        exact ⟨rule, List.mem_cons_self, allowed⟩
      · rintro other ⟨deeper, member, allowed⟩
        exact ⟨deeper, List.mem_cons_of_mem _ member, allowed⟩

end Entry

namespace TagReader

variable {reader : TagReader}

/-- An entry is finished by setting fields that the poster has and fields that have a rule, and only
such as the rules allow. -/
theorem grows_finish (poster : Option Entry) (own : Entry) :
    Entry.Grows
      (fun name =>
        (∃ lender ∈ poster, lender.contains name = true ∧
          reader.registry.allows name own.context.kind = true) ∨
        reader.registry.Admits .normal own.context.kind name)
      own (reader.finish poster own).1 := by
  have completed (entry : Entry) :
      Entry.Grows (reader.registry.Admits .normal entry.context.kind) entry
        (entry.complete reader.autofill reader.registry.rules.entries).1 := by
    refine (Entry.grows_complete reader.autofill entry _).mono ?_
    rintro name ⟨rule, member, allowed⟩
    exact ⟨rule, Table.get?_eq_some_iff.mpr member, fun _ => allowed⟩
  cases poster with
  | none => exact (completed own).mono fun name admitted => Or.inr admitted
  | some lender =>
      have inherited := Entry.grows_inherit reader.registry own lender
      have later := completed (own.inherit reader.registry lender)
      rw [inherited.context_eq] at later
      refine (inherited.mono ?_).trans (later.mono fun name admitted => Or.inr admitted)
      exact fun name lent => Or.inl ⟨lender, rfl, lent⟩

/-! ### One comment after the other -/

/-- The entry of a normal comment that follows the given poster, if there was one. -/
def entryOf (reader : TagReader) (poster : Option Entry) (comment : Comment) : Entry :=
  (reader.finish poster (reader.registry.ownEntry comment).1).1

/-- The poster that a reader has after some comments: the one it had, or else the first of them. -/
def posterAfter (reader : TagReader) (poster : Option Entry) (comments : List Comment) :
    Option Entry :=
  poster.or ((comments.find? Comment.isPoster).map fun comment =>
    (reader.registry.ownEntry comment).1)

variable {poster : Option Entry} {comment : Comment}

theorem readFrom_cons_normal (comments : List Comment) (normal : comment.role = .normal) :
    (reader.readFrom poster (comment :: comments)).1 =
      reader.entryOf poster comment :: (reader.readFrom poster comments).1 := by
  rw [readFrom, normal]
  rfl

theorem readFrom_cons_poster (comments : List Comment) (isPoster : comment.role = .poster) :
    (reader.readFrom poster (comment :: comments)).1 =
      (reader.readFrom (poster.or (some (reader.registry.ownEntry comment).1)) comments).1 := by
  rw [readFrom, isPoster]
  cases poster with
  | none => rfl
  | some first => rfl

theorem posterAfter_nil : reader.posterAfter poster [] = poster := Option.or_none

theorem posterAfter_cons_normal (comments : List Comment) (normal : comment.role = .normal) :
    reader.posterAfter poster (comment :: comments) = reader.posterAfter poster comments := by
  have other : comment.isPoster = false := by simp [Comment.isPoster, normal]
  rw [posterAfter, List.find?_cons_of_neg (by simp [other])]
  rfl

theorem posterAfter_cons_poster (comments : List Comment) (isPoster : comment.role = .poster) :
    reader.posterAfter poster (comment :: comments) =
      reader.posterAfter (poster.or (some (reader.registry.ownEntry comment).1)) comments := by
  have found : comment.isPoster = true := by simp [Comment.isPoster, isPoster]
  rw [posterAfter, List.find?_cons_of_pos found, posterAfter]
  cases poster with
  | none => rfl
  | some first => rfl

theorem readFrom_append (poster : Option Entry) (before after : List Comment) :
    (reader.readFrom poster (before ++ after)).1 =
      (reader.readFrom poster before).1 ++
        (reader.readFrom (reader.posterAfter poster before) after).1 := by
  induction before generalizing poster with
  | nil =>
      rw [posterAfter_nil]
      rfl
  | cons comment before ih =>
      rw [List.cons_append]
      cases role : comment.role with
      | normal =>
          rw [readFrom_cons_normal _ role, readFrom_cons_normal _ role,
            posterAfter_cons_normal _ role, ih, List.cons_append]
      | poster =>
          rw [readFrom_cons_poster _ role, readFrom_cons_poster _ role,
            posterAfter_cons_poster _ role, ih]

/-- Every entry belongs to a normal comment, and was finished with the first poster before it. -/
theorem exists_of_mem_readFrom {entry : Entry} {comments : List Comment}
    (member : entry ∈ (reader.readFrom poster comments).1) :
    ∃ before comment after, comments = before ++ comment :: after ∧ comment.role = .normal ∧
      entry = reader.entryOf (reader.posterAfter poster before) comment := by
  induction comments generalizing poster with
  | nil => cases member
  | cons first comments ih =>
      cases role : first.role with
      | normal =>
          rw [readFrom_cons_normal _ role] at member
          rcases List.mem_cons.mp member with here | later
          · exact ⟨[], first, comments, rfl, role, by rw [posterAfter_nil, here]⟩
          · obtain ⟨before, comment, after, split, normal, made⟩ := ih later
            refine ⟨first :: before, comment, after, ?_, normal, ?_⟩
            · rw [split, List.cons_append]
            · rw [posterAfter_cons_normal _ role, made]
      | poster =>
          rw [readFrom_cons_poster _ role] at member
          obtain ⟨before, comment, after, split, normal, made⟩ := ih member
          refine ⟨first :: before, comment, after, ?_, normal, ?_⟩
          · rw [split, List.cons_append]
          · rw [posterAfter_cons_poster _ role, made]

/-- Two readers give the same for two lists of comments if they make the same of each comment by
itself and finish every entry alike. -/
theorem readFrom_congr {first second : TagReader} {comments others : List Comment}
    (finishes : ∀ poster own, first.finish poster own = second.finish poster own)
    (same : List.Forall₂ (fun comment other => comment.role = other.role ∧
      first.registry.ownEntry comment = second.registry.ownEntry other) comments others)
    (poster : Option Entry) :
    first.readFrom poster comments = second.readFrom poster others := by
  induction same generalizing poster with
  | nil => rfl
  | @cons comment other comments others here _ ih =>
      obtain ⟨role, own⟩ := here
      rw [readFrom, readFrom, role, own]
      cases other.role with
      | normal => simp only [finishes, ih]
      | poster =>
          cases poster with
          | none => simp only [ih]
          | some lender => simp only [ih]

theorem context_entryOf (reader : TagReader) (poster : Option Entry) (comment : Comment) :
    (reader.entryOf poster comment).context = comment.context :=
  (grows_finish poster _).context_eq.trans (reader.registry.grows_ownEntry comment).context_eq

theorem range_entryOf (reader : TagReader) (poster : Option Entry) (comment : Comment) :
    (reader.entryOf poster comment).range = comment.range :=
  (grows_finish poster _).range_eq.trans (reader.registry.grows_ownEntry comment).range_eq

end TagReader

end DocComments
