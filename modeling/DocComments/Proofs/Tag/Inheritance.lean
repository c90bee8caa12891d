import DocComments.Proofs.Tag.Grouping

/-!
# Inheriting is inlining

What a comment inherits from a poster it could as well have said itself: reading it behind the
poster gives the entry that results from adding those tag lines of the poster to it that may stand
there and whose fields it does not set (`read_inlined`).

Inheriting puts the poster's fields that are taken over behind the entry's own
(`Entry.exists_inherit_eq`). So it commutes with storing a value in the poster, for a tag that is
taken over, and does not see it for any other tag. That makes one line of the poster
(`Entry.inherit_applyLine_of_lends`, `Entry.inherit_applyLine_of_not_lends`), and the lines together
are an induction.
-/

namespace DocComments

variable {registry : Registry} {own poster : Entry} {name : String}

namespace Entry

/-- Whether an entry takes over the field of a tag from a poster: it may have it and does not. -/
def takes (registry : Registry) (entry : Entry) (name : String) : Bool :=
  registry.allows name entry.context.kind && !entry.contains name

/-! ### The inherited fields -/

theorem takes_setField {other : String} (value : FieldValue) (different : other ≠ name) :
    (own.setField name value).takes registry other = own.takes registry other := by
  rw [takes, contains_setField, decide_eq_false different, Bool.false_or]
  rfl

theorem not_mem_of_takes (taken : own.takes registry name = true) :
    name ∉ own.fields.entries.map Prod.fst := by
  rw [takes, Bool.and_eq_true, Bool.not_eq_true'] at taken
  exact Table.contains_eq_false_iff.mp taken.2

theorem exists_inheritFields_eq (own : Entry) (fields : List (String × FieldValue))
    (distinct : (fields.map Prod.fst).Nodup) :
    ∃ table : Table FieldValue,
      fields.foldl (inheritField registry) own = { own with fields := table } ∧
        table.entries =
          own.fields.entries ++ fields.filter fun field => own.takes registry field.1 := by
  induction fields generalizing own with
  | nil => exact ⟨own.fields, rfl, (List.append_nil _).symm⟩
  | cons field fields ih =>
      rw [List.map_cons, List.nodup_cons] at distinct
      rw [List.foldl_cons, List.filter_cons]
      by_cases taken : own.takes registry field.1 = true
      · have step : inheritField registry own field = own.setField field.1 field.2 := if_pos taken
        obtain ⟨table, same, entries⟩ := ih (own.setField field.1 field.2) distinct.2
        refine ⟨table, ?_, ?_⟩
        · rw [step, same]
          rfl
        · have stored : (own.setField field.1 field.2).fields.entries =
              own.fields.entries ++ [field] := by
            have last := Table.insertEntry_append (not_mem_of_takes taken) field.2 []
            rw [List.append_nil] at last
            exact last
          -- The later names are others, so it does not matter to them that this one is set.
          have later : fields.filter
                (fun other => (own.setField field.1 field.2).takes registry other.1) =
              fields.filter fun other => own.takes registry other.1 := by
            refine List.filter_congr fun other member => takes_setField field.2 ?_
            exact fun equal => distinct.1 (equal ▸ List.mem_map_of_mem member)
          rw [entries, stored, later, if_pos taken, List.append_assoc, List.singleton_append]
      · have step : inheritField registry own field = own := if_neg taken
        rw [step, if_neg taken]
        exact ih own distinct.2

/-- The fields that are taken over stand behind the entry's own, in the order of the poster. -/
theorem exists_inherit_eq (registry : Registry) (own poster : Entry) :
    ∃ table : Table FieldValue, own.inherit registry poster = { own with fields := table } ∧
      table.entries = own.fields.entries ++
        poster.fields.entries.filter fun field => own.takes registry field.1 :=
  exists_inheritFields_eq own poster.fields.entries poster.fields.distinct

theorem inherit_setField_of_takes (value : FieldValue) (taken : own.takes registry name = true) :
    own.inherit registry (poster.setField name value) =
      (own.inherit registry poster).setField name value := by
  obtain ⟨after, inheritsAfter, entriesAfter⟩ :=
    exists_inherit_eq registry own (poster.setField name value)
  obtain ⟨before, inheritsBefore, entriesBefore⟩ := exists_inherit_eq registry own poster
  have same : after = before.insert name value := by
    apply Table.eq_of_entries
    show after.entries = Table.insertEntry name value before.entries
    rw [entriesAfter, entriesBefore, Table.insertEntry_append (not_mem_of_takes taken)]
    exact congrArg _ (Table.filter_insertEntry_of_pos (own.takes registry) taken _)
  rw [inheritsAfter, inheritsBefore, same]
  rfl

theorem inherit_setField_of_not_takes (value : FieldValue)
    (refused : own.takes registry name = false) :
    own.inherit registry (poster.setField name value) = own.inherit registry poster := by
  obtain ⟨after, inheritsAfter, entriesAfter⟩ :=
    exists_inherit_eq registry own (poster.setField name value)
  obtain ⟨before, inheritsBefore, entriesBefore⟩ := exists_inherit_eq registry own poster
  have same : after = before := by
    apply Table.eq_of_entries
    rw [entriesAfter, entriesBefore]
    exact congrArg _ (Table.filter_insertEntry_of_neg (own.takes registry) refused _)
  rw [inheritsAfter, inheritsBefore, same]

theorem field?_inherit (poster : Entry) (taken : own.takes registry name = true) :
    (own.inherit registry poster).field? name = poster.field? name := by
  obtain ⟨table, inherits, entries⟩ := exists_inherit_eq registry own poster
  have absent : own.fields.entries.lookup name = none := by
    rw [takes, Bool.and_eq_true, Bool.not_eq_true'] at taken
    exact Option.isNone_iff_eq_none.mp (Option.isSome_eq_false_iff.mp taken.2)
  rw [inherits]
  show table.entries.lookup name = _
  rw [entries, List.lookup_append, absent, Option.none_or]
  exact Table.lookup_filter (own.takes registry) taken _

/-! ### One line of the poster -/

theorem store?_inherit (poster : Entry) (repeatable : Bool) (value : Value)
    (taken : own.takes registry name = true) :
    (own.inherit registry poster).store? name repeatable value =
      (poster.store? name repeatable value).map (own.inherit registry) := by
  have field := field?_inherit poster taken
  have contains : (own.inherit registry poster).contains name = poster.contains name :=
    congrArg Option.isSome field
  unfold store?
  rw [field, contains]
  split
  · rw [Option.map_some, inherit_setField_of_takes _ taken]
  · split
    · split
      · rw [Option.map_some, inherit_setField_of_takes _ taken]
      · rw [Option.map_some, inherit_setField_of_takes _ taken]
    · split
      · rfl
      · rw [Option.map_some, inherit_setField_of_takes _ taken]

/-- A value of a tag that is taken over may be stored in the poster or in the entry. -/
theorem inherit_applyLine_of_takes (line content : String) (repeatable : Bool)
    (read : Option Value) (taken : own.takes registry name = true) :
    own.inherit registry (poster.applyLine line (.value name content repeatable read)).1 =
      ((own.inherit registry poster).applyLine line (.value name content repeatable read)).1 := by
  cases read with
  | none => rfl
  | some value =>
      have stored := store?_inherit poster repeatable value taken
      simp only [applyLine, stored]
      cases poster.store? name repeatable value with
      | none => rfl
      | some next => rfl

/-- A line of the poster that sets no field that is taken over leaves what is inherited. -/
theorem inherit_applyLine_of_not_takes (line : String) {reading : LineReading}
    (refused : ∀ name ∈ reading.field?, own.takes registry name = false) :
    own.inherit registry (poster.applyLine line reading).1 = own.inherit registry poster := by
  rcases applyLine_cases poster line reading with
    ⟨-, added⟩ | ⟨name, field, sets, stored⟩ | ⟨unchanged, -⟩
  · rw [added]
    rfl
  · rw [stored, inherit_setField_of_not_takes field (refused name sets)]
  · rw [unchanged]

end Entry

/-! ### All lines of the poster -/

/-- Whether a line of a poster counts for a comment as if it stood there: it is a tag line that the
registry can read, its tag is allowed on the comment, and no line of the comment sets its field. -/
def Registry.lends (registry : Registry) (comment : Comment) (line : String) : Bool :=
  match TagLine.read? line with
  | none => false
  | some tag =>
    let name := registry.canonicalName tag.name
    (registry.rule? name).any (fun rule =>
        rule.parse.isSome && rule.allows comment.context.kind) &&
      !comment.lines.any fun own =>
        (registry.readLine comment.role comment.context.kind own).field? = some name

/-- A comment with the lines of a poster that count for it added to its own. -/
def Comment.inlined (comment poster : Comment) (registry : Registry) : Comment :=
  { comment with lines := comment.lines ++ poster.lines.filter (registry.lends comment) }

theorem Registry.takes_ownEntry {rule : TagRule} (comment : Comment)
    (known : registry.rule? name = some rule) :
    (registry.ownEntry comment).1.takes registry name =
      (rule.allows comment.context.kind && !comment.lines.any fun own =>
        (registry.readLine comment.role comment.context.kind own).field? = some name) := by
  have context : (registry.ownEntry comment).1.context = comment.context :=
    (registry.grows_ownEntry comment).context_eq
  rw [Entry.takes, contains_ownEntry, context, allows, known]
  rfl

namespace Entry

variable {comment : Comment} {line : String}

theorem inherit_applyLine_of_lends (lent : registry.lends comment line = true) (poster : Entry) :
    let own := (registry.ownEntry comment).1
    own.inherit registry
        (poster.applyLine line (registry.readLine .poster poster.context.kind line)).1 =
      ((own.inherit registry poster).applyLine line
        (registry.readLine .normal comment.context.kind line)).1 := by
  intro own
  unfold Registry.lends at lent
  split at lent
  next => cases lent
  next tag splits =>
    rw [Bool.and_eq_true, Option.any_eq_true] at lent
    obtain ⟨⟨rule, known, usable⟩, unset⟩ := lent
    rw [Bool.and_eq_true, Option.isSome_iff_exists] at usable
    obtain ⟨⟨parse, readable⟩, allowed⟩ := usable
    have taken : own.takes registry (registry.canonicalName tag.name) = true := by
      rw [Registry.takes_ownEntry comment known, allowed, unset]
      rfl
    have inPoster : registry.readLine .poster poster.context.kind line = _ :=
      Registry.Reads.readLine_eq (.value splits known readable nofun)
    have inComment : registry.readLine .normal comment.context.kind line = _ :=
      Registry.Reads.readLine_eq (.value splits known readable fun _ => allowed)
    rw [inPoster, inComment]
    exact inherit_applyLine_of_takes line tag.content rule.repeatable (parse tag.content) taken

theorem inherit_applyLine_of_not_lends (kept : registry.lends comment line = false)
    (poster : Entry) :
    let own := (registry.ownEntry comment).1
    own.inherit registry
        (poster.applyLine line (registry.readLine .poster poster.context.kind line)).1 =
      own.inherit registry poster := by
  intro own
  apply inherit_applyLine_of_not_takes
  intro name sets
  obtain ⟨tag, rule, splits, rfl, known, readable, -⟩ :=
    (registry.reads_readLine .poster poster.context.kind line).exists_rule sets
  rw [Registry.takes_ownEntry comment known]
  simpa [Registry.lends, splits, known, readable] using kept

theorem readLines_lent (registry : Registry) (comment : Comment) (poster : Entry)
    (lines : List String) :
    let own := (registry.ownEntry comment).1
    ((own.inherit registry poster).readLines registry .normal
        (lines.filter (registry.lends comment))).1 =
      own.inherit registry (poster.readLines registry .poster lines).1 := by
  intro own
  have kind (poster : Entry) :
      (own.inherit registry poster).context.kind = comment.context.kind := by
    have inherited := (grows_inherit registry own poster).context_eq
    rw [inherited, (registry.grows_ownEntry comment).context_eq]
    rfl
  induction lines generalizing poster with
  | nil => rfl
  | cons line lines ih =>
      rw [readLines_cons, ← ih]
      by_cases lent : registry.lends comment line = true
      · rw [List.filter_cons_of_pos lent, readLines_cons, kind,
          inherit_applyLine_of_lends lent]
      · rw [List.filter_cons_of_neg lent,
          inherit_applyLine_of_not_lends (Bool.eq_false_iff.mpr lent)]

end Entry

/-- What a comment says with the lines of a poster added is what it says by itself with the fields
of the poster inherited. -/
theorem Registry.ownEntry_inlined (registry : Registry) {comment poster : Comment}
    (normal : comment.role = .normal) (isPoster : poster.role = .poster) :
    (registry.ownEntry (comment.inlined poster registry)).1 =
      (registry.ownEntry comment).1.inherit registry (registry.ownEntry poster).1 := by
  -- A poster of which no line has been read has nothing to lend.
  have nothing : (registry.ownEntry comment).1.inherit registry (Entry.ofComment poster) =
      (registry.ownEntry comment).1 := rfl
  calc (registry.ownEntry (comment.inlined poster registry)).1
    _ = ((Entry.ofComment comment).readLines registry comment.role
          (comment.lines ++ poster.lines.filter (registry.lends comment))).1 := rfl
    _ = ((registry.ownEntry comment).1.readLines registry .normal
          (poster.lines.filter (registry.lends comment))).1 := by
      rw [Entry.readLines_append, ownEntry, normal]
    _ = (registry.ownEntry comment).1.inherit registry
          ((Entry.ofComment poster).readLines registry .poster poster.lines).1 := by
      rw [← Entry.readLines_lent, nothing]
    _ = (registry.ownEntry comment).1.inherit registry (registry.ownEntry poster).1 := by
      rw [ownEntry.eq_def registry poster, isPoster]

/-- A normal comment behind a poster has the entry that it has alone, when the lines of the poster
that count for it are added to its own. -/
theorem TagReader.read_inlined (reader : TagReader) {comment poster : Comment}
    (normal : comment.role = .normal) (isPoster : poster.role = .poster) :
    ∃ entry,
      (reader.read [poster, comment]).groups.entries = [(comment.context.kind, [entry])] ∧
        (reader.read [comment.inlined poster reader.registry]).groups.entries =
          [(comment.context.kind, [entry])] := by
  refine ⟨reader.entryOf (some (reader.registry.ownEntry poster).1) comment, ?_, ?_⟩
  · refine reader.groups_read_alone (some poster) ?_ normal
    intro other same
    obtain rfl := Option.some.inj same
    exact decide_eq_true isPoster
  · have inlinedNormal : (comment.inlined poster reader.registry).role = .normal := normal
    have same : reader.entryOf none (comment.inlined poster reader.registry) =
        reader.entryOf (some (reader.registry.ownEntry poster).1) comment := by
      rw [entryOf, reader.registry.ownEntry_inlined normal isPoster]
      rfl
    rw [← same]
    exact reader.groups_read_alone none nofun inlinedNormal

theorem TagReader.read_inlined_mixed :
    let registry : Registry := Registry.insertAlias
      { rules := .ofList
          [("see", { parse := some fun content => some (.string content) }),
            ("since", { parse := some fun content => some (.string content), repeatable := false }),
            ("open", { parse := some fun _ => some (.boolean true) }),
            ("param", { parse := some fun content => some (.string content),
                        kinds := some ["function"] })] }
      "link" "see"
    let poster : Comment :=
      { lines := ["text", "@link a", "@since 1", "@param x", "@open", "@none", "@see b"],
        role := .poster, context := {} }
    let comment : Comment := { lines := ["more", "@since 2"], context := { kind := "class" } }
    let reader := TagReader.new registry (.all true)
    (comment.inlined poster registry).lines =
        ["more", "@since 2", "@link a", "@open", "@see b"] ∧
      ∃ entry, (reader.read [poster, comment]).groups.entries = [("class", [entry])] ∧
        (reader.read [comment.inlined poster registry]).groups.entries = [("class", [entry])] := by
  intro registry poster comment reader
  exact ⟨by decide +kernel, reader.read_inlined rfl rfl⟩

end DocComments
