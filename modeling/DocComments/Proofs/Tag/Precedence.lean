import DocComments.Proofs.Tag.Completion
import DocComments.Proofs.Tag.Independence
import DocComments.Proofs.Tag.Inheritance

/-!
# Where a field comes from

The field of a tag in a finished entry comes from the comment's own lines, else from the first
poster, else from the tag's fallback, unless the tag's autofill is enabled and gives one. The
functions of a tag are called on the own and inherited fields together with the finished fields of
the tags registered before it, and every computed field that is new goes last
(`read_field_precedence`).
-/

namespace DocComments

/-- The fields of an entry of which some tags have been decided: the fields at the start keep their
places, the decided tags that had no field follow in order, and a decided tag shows its final
field. -/
def overlay (start : List (String × FieldValue)) (final : String → Option FieldValue)
    (decided : List String) : List (String × FieldValue) :=
  (start.map Prod.fst ++ decided.filter (· ∉ start.map Prod.fst)).filterMap fun name =>
    (if name ∈ decided then final name else start.lookup name).map (name, ·)

/-- A tag with a rule is allowed where the rule allows it. -/
theorem Registry.allows_of_mem {registry : Registry} {name : String} {rule : TagRule}
    (member : (name, rule) ∈ registry.rules.entries) (kind : String) :
    registry.allows name kind = rule.allows kind := by
  rw [allows, rule?, Table.get?_eq_some_iff.mpr member, Option.all_some]

namespace Entry

variable {registry : Registry} {own : Entry} {name : String}

/-- The fields that an entry has when the rules begin to compute: its own, and behind them those of
the poster, if there is one, that it takes over. -/
def startFields (registry : Registry) (own : Entry) (poster : Option Entry) :
    List (String × FieldValue) :=
  own.fields.entries ++
    (poster.elim [] (·.fields.entries)).filter fun field => own.takes registry field.1

/-- The entry of a comment with the fields it takes over from a poster, if there is one. -/
def inheriting (registry : Registry) (own : Entry) (poster : Option Entry) : Entry :=
  poster.elim own (own.inherit registry)

theorem exists_inheriting_eq (registry : Registry) (own : Entry) (poster : Option Entry) :
    ∃ table : Table FieldValue, own.inheriting registry poster = { own with fields := table } ∧
      table.entries = own.startFields registry poster := by
  cases poster with
  | none => exact ⟨own.fields, rfl, by simp [startFields]⟩
  | some poster => exact exists_inherit_eq registry own poster

/-- An allowed tag has the field that the own lines set, or else the one that the poster has. -/
theorem field?_inheriting (poster : Option Entry)
    (allowed : registry.allows name own.context.kind = true) :
    (own.inheriting registry poster).field? name =
      (own.field? name).or (poster.bind (·.field? name)) := by
  cases poster with
  | none => exact Option.or_none.symm
  | some poster =>
      obtain ⟨table, inherits, entries⟩ := exists_inherit_eq registry own poster
      have looked : (own.inherit registry poster).field? name = (own.field? name).or
          ((poster.fields.entries.filter fun field => own.takes registry field.1).lookup name) := by
        rw [inherits]
        show table.entries.lookup name = _
        rw [entries, List.lookup_append]
        rfl
      show (own.inherit registry poster).field? name = _
      cases stored : own.field? name with
      | some value => rw [looked, stored, Option.some_or, Option.some_or]
      | none =>
          have taken : own.takes registry name = true := by
            rw [takes, allowed, contains, Table.contains, ← field?, stored]
            rfl
          rw [field?_inherit poster taken]
          rfl

/-- The fields that have been computed stand where `overlay` puts them. -/
theorem entries_complete (choice : Autofill) (entry : Entry) {rules : List (String × TagRule)}
    (distinct : (rules.map Prod.fst).Nodup) {final : String → Option FieldValue}
    (agrees : ∀ tag ∈ rules.map Prod.fst, (entry.complete choice rules).1.field? tag = final tag) :
    (entry.complete choice rules).1.fields.entries =
      overlay entry.fields.entries final (rules.map Prod.fst) := by
  have value (tag : String) : (entry.complete choice rules).1.fields.get? tag =
      if tag ∈ rules.map Prod.fst then final tag else entry.fields.entries.lookup tag := by
    split
    next decided => exact agrees tag decided
    next absent => exact field?_complete_of_not_mem choice entry absent
  rw [Table.entries_eq_filterMap, keys_complete choice entry distinct, overlay,
    List.filterMap_append, List.filterMap_append, List.filterMap_filter, List.filterMap_filter]
  simp only [value]
  -- A new tag for which nothing was computed is no name of the entry, and no name of the overlay.
  refine congrArg _ (List.filterMap_congr fun tag decided => ?_)
  have computed : (entry.complete choice rules).1.contains tag = (final tag).isSome :=
    congrArg Option.isSome (agrees tag decided)
  rw [if_pos decided, computed]
  cases present : entry.contains tag with
  | true =>
      have stored : tag ∈ entry.fields.entries.map Prod.fst := Table.contains_iff.mp present
      simp [stored]
  | false =>
      have fresh : tag ∉ entry.fields.entries.map Prod.fst := Table.contains_eq_false_iff.mp present
      cases final tag with
      | none => simp
      | some value => simp [fresh]

end Entry

namespace TagReader

variable {reader : TagReader} {comments : List Comment} {index : Nat} {comment : Comment}

theorem finish_eq (reader : TagReader) (poster : Option Entry) (own : Entry) :
    reader.finish poster own =
      (own.inheriting reader.registry poster).complete reader.autofill
        reader.registry.rules.entries := by
  cases poster <;> rfl

/-- Which functions are called when an entry is finished: the fallback of a tag that neither the own
lines nor the poster set, and the autofill of a tag for which it is enabled. -/
theorem events_finish (reader : TagReader) (poster : Option Entry) (own : Entry) :
    (reader.finish poster own).2 =
      reader.registry.rules.entries.flatMap fun (name, rule) =>
        Entry.calls reader.autofill own.context.kind name rule
          (own.contains name || poster.any (·.contains name)) := by
  have context : (own.inheriting reader.registry poster).context = own.context := by
    obtain ⟨table, inherits, -⟩ := own.exists_inheriting_eq reader.registry poster
    rw [inherits]
  rw [finish_eq, Entry.events_complete _ _ reader.registry.rules.distinct, context]
  refine List.flatMap_congr fun ⟨name, rule⟩ member => ?_
  cases allowed : rule.allows own.context.kind with
  | false => simp [Entry.calls, allowed]
  | true =>
      have field := Entry.field?_inheriting poster
        ((reader.registry.allows_of_mem member own.context.kind).trans allowed)
      have contains : (own.inheriting reader.registry poster).contains name =
          (own.contains name || poster.any (·.contains name)) := by
        refine (congrArg Option.isSome field).trans ?_
        rw [Option.isSome_or]
        cases poster <;> rfl
      simp only [contains]

theorem events_readFrom_cons_normal {poster : Option Entry} (comments : List Comment)
    (normal : comment.role = .normal) :
    (reader.readFrom poster (comment :: comments)).2 =
      (reader.registry.ownEntry comment).2 ++
        (reader.finish poster (reader.registry.ownEntry comment).1).2 ++
        (reader.readFrom poster comments).2 := by
  rw [readFrom, normal]

theorem events_readFrom_cons_poster {poster : Option Entry} (comments : List Comment)
    (isPoster : comment.role = .poster) :
    (reader.readFrom poster (comment :: comments)).2 =
      (reader.registry.ownEntry comment).2 ++
        (if poster.isSome then [.warn .multiplePosters] else []) ++
        (reader.readFrom (poster.or (some (reader.registry.ownEntry comment).1)) comments).2 := by
  rw [readFrom, isPoster]
  cases poster with
  | none => simp
  | some first => simp

theorem events_readFrom_append (reader : TagReader) (poster : Option Entry)
    (before after : List Comment) :
    (reader.readFrom poster (before ++ after)).2 =
      (reader.readFrom poster before).2 ++
        (reader.readFrom (reader.posterAfter poster before) after).2 := by
  induction before generalizing poster with
  | nil =>
      rw [posterAfter_nil]
      rfl
  | cons comment before ih =>
      rw [List.cons_append]
      cases role : comment.role with
      | normal =>
          rw [events_readFrom_cons_normal _ role, events_readFrom_cons_normal _ role,
            posterAfter_cons_normal _ role, ih, ← List.append_assoc]
      | poster =>
          rw [events_readFrom_cons_poster _ role, events_readFrom_cons_poster _ role,
            posterAfter_cons_poster _ role, ih, ← List.append_assoc]

/-- The entry in which some tags have been decided differs from the comment's own entry in its
fields only, and these are laid over the fields at the start. -/
theorem complete_inheriting (reader : TagReader) (poster : Option Entry) (own : Entry)
    {rules : List (String × TagRule)} (distinct : (rules.map Prod.fst).Nodup)
    {final : String → Option FieldValue} :
    let entry := ((own.inheriting reader.registry poster).complete reader.autofill rules).1
    (∀ tag ∈ rules.map Prod.fst, entry.field? tag = final tag) →
      entry = { own with fields := entry.fields } ∧
        entry.fields.entries =
          overlay (own.startFields reader.registry poster) final (rules.map Prod.fst) := by
  intro entry agrees
  obtain ⟨table, inherits, entries⟩ := own.exists_inheriting_eq reader.registry poster
  have fields : (own.inheriting reader.registry poster).fields = table := by rw [inherits]
  refine ⟨?_, ?_⟩
  · obtain ⟨completed, same⟩ :=
      (own.inheriting reader.registry poster).exists_complete_eq reader.autofill rules
    have all : entry = _ := same
    rw [all, inherits]
  · rw [Entry.entries_complete reader.autofill _ distinct agrees, fields, entries]

/-- The turn of a tag: its functions are called on an entry that shows the tags before it as they
are in the end, and gives the tag the field that it has in the end. -/
theorem exists_turn (reader : TagReader) (poster : Option Entry) (own : Entry)
    {before after : List (String × TagRule)} {name : String} {rule : TagRule}
    (split : reader.registry.rules.entries = before ++ (name, rule) :: after)
    (allowed : rule.allows own.context.kind = true) :
    ∃ seen base,
      seen = { own with fields := seen.fields } ∧
      seen.fields.entries =
        overlay (own.startFields reader.registry poster) (reader.finish poster own).1.field?
          (before.map Prod.fst) ∧
      base = ((own.field? name).or (poster.bind (·.field? name))).or
        (rule.fallback.bind (· seen)) ∧
      (reader.finish poster own).1.field? name =
        ((if reader.autofill.enables name then rule.autofill else none).bind
          (· (seen.withField name base))).or base := by
  have distinct := reader.registry.rules.distinct
  rw [split] at distinct
  obtain ⟨earlier, -, apart⟩ := List.nodup_append.mp (List.map_append ▸ distinct)
  have fresh : name ∉ before.map Prod.fst := fun member =>
    apart name member name List.mem_cons_self rfl
  rw [finish_eq, split]
  obtain ⟨same, fields⟩ := reader.complete_inheriting poster own earlier fun tag member =>
    (Entry.field?_complete_append reader.autofill (own.inheriting reader.registry poster) distinct
      member).symm
  refine ⟨_, _, same, fields, rfl, ?_⟩
  have registered : (name, rule) ∈ reader.registry.rules.entries := by simp [split]
  have inherited := Entry.field?_inheriting poster
    ((reader.registry.allows_of_mem registered own.context.kind).trans allowed)
  rw [Entry.field?_complete_turn reader.autofill _ distinct
      (by rw [congrArg Entry.context same, allowed]),
    Entry.decidedField, Entry.baseField, Entry.field?_complete_of_not_mem _ _ fresh, inherited]

/-- The events of a normal comment are those of its own lines, and then the calls of its rules. -/
theorem events_read_take (reader : TagReader) (present : comments[index]? = some comment)
    (normal : comment.role = .normal) :
    (reader.read (comments.take (index + 1))).events =
      (reader.read (comments.take index)).events ++ ((reader.registry.ownEntry comment).2 ++
        (reader.finish (reader.posterAfter none (comments.take index))
          (reader.registry.ownEntry comment).1).2) := by
  have upTo : comments.take (index + 1) = comments.take index ++ [comment] := by
    rw [List.take_add_one, present, Option.toList_some]
  have events := reader.events_readFrom_append none (comments.take index) [comment]
  rw [events_readFrom_cons_normal _ normal] at events
  rw [upTo]
  exact events.trans (congrArg _ (List.append_nil _))

/-- An allowed tag of a normal comment has the field that its autofill gives, if it has one that is
enabled and does not decline, and otherwise its base: the field of the own lines, else that of the
first poster before the comment, else what the fallback gives. Both functions see the fields at the
start with the tags registered before in their final state, and the autofill sees the base too. The
fallback is called only for a tag that neither the own lines nor the poster set. The fields at the
start keep their places, and the computed ones follow in the order of registration. -/
theorem read_field_precedence (reader : TagReader) (present : comments[index]? = some comment)
    (normal : comment.role = .normal) :
    let own := (reader.registry.ownEntry comment).1
    let poster := ((comments.take index).find? Comment.isPoster).map fun first =>
      (reader.registry.ownEntry first).1
    let start := own.startFields reader.registry poster
    ∃ entry, reader.entryFor? comments index = some entry ∧
      entry = { own with fields := entry.fields } ∧
      entry.fields.entries = overlay start entry.field? reader.registry.names ∧
      (∀ before name rule after,
        reader.registry.rules.entries = before ++ (name, rule) :: after →
        rule.allows comment.context.kind = true →
        ∃ seen base,
          seen = { own with fields := seen.fields } ∧
          seen.fields.entries = overlay start entry.field? (before.map Prod.fst) ∧
          base = ((own.field? name).or (poster.bind (·.field? name))).or
            (rule.fallback.bind (· seen)) ∧
          entry.field? name =
            ((if reader.autofill.enables name then rule.autofill else none).bind
              (· (seen.withField name base))).or base) ∧
      (reader.read (comments.take (index + 1))).events =
        (reader.read (comments.take index)).events ++ ((reader.registry.ownEntry comment).2 ++
          reader.registry.rules.entries.flatMap fun (name, rule) =>
            Entry.calls reader.autofill comment.context.kind name rule
              (own.contains name || poster.any (·.contains name))) ∧
      (reader.read (comments.take (index + 1))).events <+: (reader.read comments).events := by
  intro own poster start
  have context : own.context = comment.context :=
    (reader.registry.grows_ownEntry comment).context_eq
  have made : reader.entryFor? comments index = some (reader.finish poster own).1 :=
    entryFor?_eq_entryOf present normal
  obtain ⟨same, fields⟩ := reader.complete_inheriting poster own reader.registry.rules.distinct
    fun _ _ => rfl
  rw [← finish_eq] at same fields
  refine ⟨_, made, same, fields, ?_, ?_, ?_⟩
  · intro before name rule after split allowed
    exact reader.exists_turn poster own split (context ▸ allowed)
  · have events := reader.events_read_take present normal
    rw [events_finish, (reader.registry.grows_ownEntry comment).context_eq] at events
    exact events
  · have events := reader.events_readFrom_append none (comments.take (index + 1))
      (comments.drop (index + 1))
    rw [List.take_append_drop] at events
    exact ⟨_, events.symm⟩

theorem read_field_precedence_mixed :
    let text : String → Option Value := fun content => some (.string content)
    let since : TagRule :=
      { parse := some text, repeatable := false,
        fallback := some fun _ => some (.scalar (.string "0")) }
    let see : TagRule :=
      { parse := some text,
        autofill := some fun entry => some (.list (entry.values "see" ++ [.string "z"])) }
    let names : TagRule :=
      { fallback := some fun entry => some (.list (entry.fields.keys.map .string)) }
    let reader := TagReader.new
      { rules := .ofList [("since", since), ("see", see), ("names", names)] } (.all true)
    let poster : Comment := { lines := ["@since 1", "@see y"], role := .poster, context := {} }
    let comment : Comment := { lines := ["@see x"], context := {} }
    let own := (reader.registry.ownEntry comment).1
    let lent := (reader.registry.ownEntry poster).1
    let start := own.startFields reader.registry (some lent)
    start.map Prod.fst = ["see", "since"] ∧
      ∃ entry, reader.entryFor? [poster, comment] 1 = some entry ∧
        entry.fields.entries = overlay start entry.field? ["since", "see", "names"] ∧
        (∃ seen : Entry, seen.fields.entries = overlay start entry.field? ["since", "see"] ∧
          entry.field? "names" = some (.list (seen.fields.keys.map .string))) ∧
        (reader.read [poster, comment]).events =
          [.parse "since" "1", .parse "see" "y", .parse "see" "x", .autofill "see",
            .fallback "names"] := by
  intro text since see names reader poster comment own lent start
  refine ⟨by decide +kernel, ?_⟩
  have present : [poster, comment][1]? = some comment := rfl
  obtain ⟨entry, found, -, fields, turns, trace, -⟩ := reader.read_field_precedence present rfl
  refine ⟨entry, found, fields, ?_, ?_⟩
  · obtain ⟨seen, base, -, shown, same, decided⟩ :=
      turns [("since", since), ("see", see)] "names" names [] rfl rfl
    have unset : own.field? "names" = none := Option.isNone_iff_eq_none.mp (by decide +kernel)
    have unlent : lent.field? "names" = none := Option.isNone_iff_eq_none.mp (by decide +kernel)
    refine ⟨seen, shown, decided.trans ?_⟩
    rw [same]
    show ((own.field? "names").or (lent.field? "names")).or _ = _
    rw [unset, unlent]
    rfl
  · exact trace.trans (by decide +kernel)

end TagReader

end DocComments
