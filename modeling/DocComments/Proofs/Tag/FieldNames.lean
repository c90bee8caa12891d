import DocComments.Proofs.Tag.Grouping

/-!
# The names of fields

Fields are set by lines, taken over from a poster and computed. Whichever way a field came into an
entry, its name has a rule, and the rule allows it on the kind of the entry
(`TagReader.admits_of_mem_readFrom`). Rules come from registering tags and from nothing else, so a
name that is only an alias is never the name of a field (`read_fields_registered`).
-/

namespace DocComments

/-! ### Registering -/

/-- One call that registers something. -/
inductive Registration where
  | tag (name : String) (rule : TagRule)
  | shorthand (short canonical : String)

namespace Registry

/-- The registry after one more call. -/
def register (registry : Registry) : Registration → Registry
  | .tag name rule => registry.insert name rule
  | .shorthand short canonical => registry.insertAlias short canonical

/-- The registry that results from calls in order, of tags and aliases in any mixture. -/
def ofRegistrations (calls : List Registration) : Registry := calls.foldl register {}

theorem rule?_register (registry : Registry) (call : Registration) (name : String) :
    ((registry.register call).rule? name = registry.rule? name) ∨
      ∃ rule, call = .tag name rule ∧ (registry.register call).rule? name = some rule := by
  cases call with
  | shorthand short canonical => exact Or.inl rfl
  | tag other rule =>
      have stored : (registry.insert other rule).rule? name =
          if name = other then some rule else registry.rule? name := Table.get?_insert _ _ _ _
      by_cases same : name = other
      · subst same
        exact Or.inr ⟨rule, rfl, stored.trans (if_pos rfl)⟩
      · exact Or.inl (stored.trans (if_neg same))

/-- A rule of a registry is one that was registered under its name. -/
theorem mem_of_rule?_ofRegistrations {calls : List Registration} {name : String} {rule : TagRule}
    (known : (ofRegistrations calls).rule? name = some rule) : .tag name rule ∈ calls := by
  induction calls using List.reverseRecOn with
  | nil => cases known
  | append_singleton calls call ih =>
      rw [ofRegistrations, List.foldl_append] at known
      rcases rule?_register (ofRegistrations calls) call name with same | ⟨newer, called, stored⟩
      · exact List.mem_append_left _ (ih (same.symm.trans known))
      · obtain rfl := Option.some.inj (stored.symm.trans known)
        rw [called]
        exact List.mem_append_right _ List.mem_cons_self

end Registry

/-! ### Fields of entries -/

namespace TagReader

variable {reader : TagReader} {comments : List Comment} {entry : Entry} {name : String}

/-- The fields of a poster have rules, but need not be allowed on its kind. -/
theorem exists_rule_of_posterAfter {lender : Entry}
    (lends : lender ∈ reader.posterAfter none comments) (present : lender.contains name = true) :
    ∃ rule, reader.registry.rule? name = some rule := by
  rw [posterAfter, Option.none_or, Option.mem_def, Option.map_eq_some_iff] at lends
  obtain ⟨comment, -, rfl⟩ := lends
  rcases (reader.registry.grows_ownEntry comment).contains_or_sets present with
    before | ⟨rule, known, -⟩
  · cases before
  · exact ⟨rule, known⟩

/-- Every field of an entry has a rule, and the rule allows it. -/
theorem admits_of_mem_readFrom (member : entry ∈ (reader.readFrom none comments).1)
    (present : entry.contains name = true) :
    reader.registry.Admits .normal entry.context.kind name := by
  obtain ⟨before, comment, after, -, normal, rfl⟩ := exists_of_mem_readFrom member
  have own := reader.registry.grows_ownEntry comment
  rw [context_entryOf]
  rcases (grows_finish _ _).contains_or_sets present with
    said | ⟨lender, lends, lent, allowed⟩ | computed
  · rcases own.contains_or_sets said with unread | admitted
    · cases unread
    · rw [normal] at admitted
      exact admitted
  · obtain ⟨rule, known⟩ := exists_rule_of_posterAfter lends lent
    rw [own.context_eq, Registry.allows, known] at allowed
    exact ⟨rule, known, fun _ => allowed⟩
  · rw [own.context_eq] at computed
    exact computed

/-- In a report every field has a name that is registered and allowed on the kind of its entry, and
no entry has two fields of one name. In particular no field has a name that was never registered but
as an alias. -/
theorem read_fields_registered (calls : List Registration) (choice : Autofill)
    (comments : List Comment) {kind : String} {group : List Entry} {entry : Entry}
    (grouped : (kind, group) ∈
      ((TagReader.new (.ofRegistrations calls) choice).read comments).groups.entries)
    (member : entry ∈ group) :
    entry.context.kind = kind ∧ entry.fields.keys.Nodup ∧
      (∀ name ∈ entry.fields.keys, ∃ rule,
        (Registry.ofRegistrations calls).rule? name = some rule ∧ rule.allows kind = true) ∧
      ∀ name, (∀ rule, .tag name rule ∉ calls) → entry.contains name = false := by
  obtain ⟨made, ofKind⟩ := Groups.mem_of_mem_ofEntries grouped member
  have registered : ∀ name, entry.contains name = true → ∃ rule,
      (Registry.ofRegistrations calls).rule? name = some rule ∧ rule.allows kind = true := by
    intro name present
    obtain ⟨rule, known, allowed⟩ := admits_of_mem_readFrom made present
    exact ⟨rule, known, ofKind ▸ allowed rfl⟩
  refine ⟨ofKind, entry.fields.distinct, ?_, ?_⟩
  · intro name present
    exact registered name (Table.contains_iff.mpr present)
  · intro name unregistered
    rw [← Bool.not_eq_true]
    intro present
    obtain ⟨rule, known, -⟩ := registered name present
    exact unregistered rule (Registry.mem_of_rule?_ofRegistrations known)

theorem read_fields_registered_shadowed :
    let text : TagRule := { parse := some fun content => some (.string content) }
    let calls : List Registration :=
      [.tag "see" text, .shorthand "link" "see", .shorthand "old" "see", .tag "old" text,
        .tag "kind" { fallback := some fun entry => some (.scalar (.string entry.context.kind)) },
        .tag "param" text, .tag "param" { text with kinds := some ["function"] }]
    let reader := TagReader.new (.ofRegistrations calls) (.all true)
    let poster : Comment :=
      { lines := ["@param x", "@link a"], role := .poster, context := { kind := "function" } }
    let comment : Comment := { lines := ["@old b", "@param y"], context := { kind := "class" } }
    ∃ entry, (reader.read [poster, comment]).groups.entries = [("class", [entry])] ∧
      entry.fields.keys = ["see", "kind"] ∧
      (∀ name ∈ entry.fields.keys, ∃ rule,
        reader.registry.rule? name = some rule ∧ rule.allows "class" = true) ∧
      entry.contains "link" = false := by
  intro text calls reader poster comment
  have normal : comment.role = .normal := rfl
  have alone := reader.groups_read_alone (some poster) (by decide) normal
  have fields := read_fields_registered calls (.all true) [poster, comment]
    (alone ▸ List.mem_cons_self) List.mem_cons_self
  refine ⟨_, alone, by decide +kernel, fields.2.2.1, fields.2.2.2 "link" ?_⟩
  simp [calls]

end TagReader

end DocComments
