import DocComments.Proofs.Tag.Completion
import DocComments.Proofs.Tag.Grouping
import Mathlib.Data.List.DropRight

/-!
# The values of a tag

What the lines of a comment make of a tag depends on the values that they give this tag, and on
nothing else in them. `FieldValue.store` is what one more value makes of the field, and
`Entry.store?_eq` says when a value is turned away instead. The field of a tag is then a fold over
its values (`field?_readLines`), which has a closed form for a tag that may repeat
(`ownEntry_repeatable`) and for one that may not (`ownEntry_single`).
-/

namespace DocComments

/-- The truth of a boolean value. -/
def Value.boolean? : Value → Option Bool
  | .boolean truth => some truth
  | _ => none

namespace FieldValue

/-- The field of a tag after one more value. -/
def store (repeatable : Bool) (old : Option FieldValue) (value : Value) : FieldValue :=
  match value.boolean? with
  | some truth => .flag truth
  | none =>
    if repeatable then .list ((old.bind list?).getD [] ++ [value]) else old.getD (.scalar value)

/-- Whether a value is turned away: the tag may not repeat and has a field, and the value is no
boolean. -/
def refuses (repeatable : Bool) (old : Option FieldValue) (value : Value) : Bool :=
  !repeatable && old.isSome && value.boolean?.isNone

/-- A value that is turned away leaves the field as it is. -/
theorem store_of_refuses {repeatable : Bool} {old : Option FieldValue} {value : Value}
    (refused : refuses repeatable old value = true) : some (store repeatable old value) = old := by
  unfold refuses at refused
  simp only [Bool.and_eq_true, Bool.not_eq_true', Option.isSome_iff_exists,
    Option.isNone_iff_eq_none] at refused
  obtain ⟨⟨rfl, field, rfl⟩, plain⟩ := refused
  rw [store, plain]
  rfl

/-- The field of a tag that may repeat: a flag if its last value is a boolean, and otherwise the
list of the values behind the last boolean. -/
def ofRepeated (values : List Value) : Option FieldValue :=
  values.getLast?.map fun last =>
    match last.boolean? with
    | some truth => .flag truth
    | none => .list (values.rtakeWhile (·.boolean?.isNone))

/-- The field of a tag that may not repeat: a flag if any of its values is a boolean, with the truth
of the last one, and otherwise its first value. -/
def ofSingle (values : List Value) : Option FieldValue :=
  match (values.filterMap Value.boolean?).getLast? with
  | some truth => some (.flag truth)
  | none => values.head?.map .scalar

/-- The field of a tag after some more values, in order. -/
def storeAll (repeatable : Bool) (old : Option FieldValue) (values : List Value) :
    Option FieldValue :=
  values.foldl (fun field value => some (store repeatable field value)) old

theorem storeAll_concat (repeatable : Bool) (old : Option FieldValue) (values : List Value)
    (value : Value) :
    storeAll repeatable old (values ++ [value]) =
      some (store repeatable (storeAll repeatable old values) value) := by
  rw [storeAll, List.foldl_append]
  rfl

theorem isSome_storeAll (repeatable : Bool) (values : List Value) :
    (storeAll repeatable none values).isSome = !values.isEmpty := by
  induction values using List.reverseRecOn with
  | nil => rfl
  | append_singleton values value _ => simp [storeAll_concat]

theorem list?_ofRepeated (values : List Value) :
    ((ofRepeated values).bind list?).getD [] = values.rtakeWhile (·.boolean?.isNone) := by
  induction values using List.reverseRecOn with
  | nil => rfl
  | append_singleton values value _ =>
      rw [ofRepeated, List.getLast?_concat, Option.map_some, List.rtakeWhile_concat]
      cases value.boolean? with
      | some truth => simp [list?]
      | none => simp [list?]

theorem storeAll_repeatable (values : List Value) : storeAll true none values = ofRepeated values := by
  induction values using List.reverseRecOn with
  | nil => rfl
  | append_singleton values value ih =>
      rw [storeAll_concat, ih, ofRepeated.eq_def (values ++ [value]), List.getLast?_concat,
        Option.map_some, store, list?_ofRepeated, List.rtakeWhile_concat]
      cases value.boolean? with
      | some truth => rfl
      | none => rfl

theorem storeAll_single (values : List Value) : storeAll false none values = ofSingle values := by
  induction values using List.reverseRecOn with
  | nil => rfl
  | append_singleton values value ih =>
      rw [storeAll_concat, ih, ofSingle.eq_def (values ++ [value]), List.filterMap_append, store]
      cases truth : value.boolean? with
      | some truth => simp [truth]
      | none =>
          simp only [List.filterMap_cons, truth, List.filterMap_nil, List.append_nil, ofSingle]
          cases (values.filterMap Value.boolean?).getLast? with
          | some earlier => rfl
          | none => cases values <;> rfl

theorem ofSingle_of_plain_tail {values : List Value}
    (plain : ∀ value ∈ values.tail, value.boolean? = none) :
    ofSingle values = values.head?.map (store false none) := by
  cases values with
  | nil => rfl
  | cons first rest =>
      have none : rest.filterMap Value.boolean? = [] := List.filterMap_eq_nil_iff.mpr plain
      cases truth : first.boolean? with
      | some truth => simp [ofSingle, store, none, truth]
      | none => simp [ofSingle, store, none, truth]

end FieldValue

/-! ### One more value -/

namespace Entry

variable {entry : Entry} {name : String}

/-- A value is turned away, or makes of the field what `FieldValue.store` says. -/
theorem store?_eq (entry : Entry) (name : String) (repeatable : Bool) (value : Value) :
    entry.store? name repeatable value =
      if FieldValue.refuses repeatable (entry.field? name) value then none
      else some (entry.setField name (.store repeatable (entry.field? name) value)) := by
  have present : entry.contains name = (entry.field? name).isSome := rfl
  unfold store? FieldValue.refuses FieldValue.store
  rw [present]
  cases value with
  | boolean truth => simp [Value.boolean?]
  | _ =>
      cases repeatable with
      | true =>
          rcases entry.field? name with _ | _ | _ | _ <;> simp [Value.boolean?, FieldValue.list?]
      | false =>
          cases entry.field? name <;> simp [Value.boolean?]

theorem applyLine_value (entry : Entry) (line name content : String) (repeatable : Bool)
    (value : Value) :
    entry.applyLine line (.value name content repeatable (some value)) =
      if FieldValue.refuses repeatable (entry.field? name) value then
        (entry, [.parse name content, .warn (.duplicate name)])
      else
        (entry.setField name (.store repeatable (entry.field? name) value),
          [.parse name content]) := by
  rw [applyLine, store?_eq]
  by_cases refused : FieldValue.refuses repeatable (entry.field? name) value = true
  · rw [if_pos refused, if_pos refused]
  · rw [if_neg refused, if_neg refused]

theorem field?_applyLine_of_ne {reading : LineReading} (line : String)
    (other : reading.field? ≠ some name) :
    (entry.applyLine line reading).1.field? name = entry.field? name := by
  rcases applyLine_cases entry line reading with
    ⟨-, added⟩ | ⟨set, field, sets, stored⟩ | ⟨unchanged, -⟩
  · rw [added]
    rfl
  · have different : name ≠ set := fun same => other (same ▸ sets)
    rw [stored, field?_setField, if_neg different]
  · rw [unchanged]

theorem count_duplicate_applyLine_of_ne {reading : LineReading} (line : String)
    (other : reading.field? ≠ some name) :
    (entry.applyLine line reading).2.count (.warn (.duplicate name)) = 0 := by
  cases reading with
  | text => rfl
  | unknown tag => rfl
  | notAllowed tag => rfl
  | value tag content repeatable read =>
      cases read with
      | none => rfl
      | some value =>
          have different : ¬ tag = name := fun same => other (congrArg some same)
          rw [applyLine_value]
          split
          · simp [different]
          · rfl

theorem keys_applyLine (entry : Entry) (line : String) (reading : LineReading) :
    (entry.applyLine line reading).1.fields.keys =
      match reading.field? with
      | some name =>
        if name ∈ entry.fields.keys then entry.fields.keys else entry.fields.keys ++ [name]
      | none => entry.fields.keys := by
  rcases applyLine_cases entry line reading with
    ⟨unset, added⟩ | ⟨name, field, sets, stored⟩ | ⟨unchanged, present⟩
  · rw [added, unset]
    rfl
  · rw [stored, sets]
    exact Table.keys_insert entry.fields name field
  · rw [unchanged]
    cases sets : reading.field? with
    | none => rfl
    | some name => exact (if_pos (Table.contains_iff.mp (present name sets))).symm

end Entry

/-! ### The values that lines give -/

namespace Registry

variable {registry : Registry} {role : Role} {kind name line : String} {rule : TagRule}
  {parse : String → Option Value}

/-- A tag to which the lines of a comment can give values. Its rule reads them with `parse`, and
allows the tag unless the comment is a poster. -/
structure CanRead (registry : Registry) (role : Role) (kind name : String) (rule : TagRule)
    (parse : String → Option Value) : Prop where
  known : registry.rule? name = some rule
  readable : rule.parse = some parse
  allowed : role = .normal → rule.allows kind = true

/-- The value that a line gives a tag: what `parse` makes of the content, if the line is a tag line
for this tag or for one of its aliases. -/
def valueOf? (registry : Registry) (parse : String → Option Value) (name line : String) :
    Option Value :=
  (TagLine.read? line).bind fun tag =>
    if registry.canonicalName tag.name = name then parse tag.content else none

/-- The values that lines give a tag, in order. -/
def valuesOf (registry : Registry) (parse : String → Option Value) (name : String)
    (lines : List String) : List Value :=
  lines.filterMap (registry.valueOf? parse name)

theorem valuesOf_concat (lines : List String) (line : String) :
    registry.valuesOf parse name (lines ++ [line]) =
      registry.valuesOf parse name lines ++ (registry.valueOf? parse name line).toList := by
  rw [valuesOf, List.filterMap_append]
  cases gives : registry.valueOf? parse name line with
  | none => rw [List.filterMap_cons_none gives, valuesOf]; rfl
  | some value => rw [List.filterMap_cons_some gives, valuesOf]; rfl

/-- Only tag lines give values. -/
theorem valuesOf_eq_filterMap_tags (lines : List String) :
    registry.valuesOf parse name lines = (lines.filterMap TagLine.read?).filterMap fun tag =>
      if registry.canonicalName tag.name = name then parse tag.content else none := by
  rw [List.filterMap_filterMap]
  rfl

/-- The tag to which a line gives a value, if its rule reads one and allows the tag. -/
def valuedTag? (registry : Registry) (role : Role) (kind line : String) : Option String :=
  (TagLine.read? line).bind fun tag =>
    let name := registry.canonicalName tag.name
    (registry.rule? name).bind fun rule =>
      if role = .poster ∨ rule.allows kind = true then
        (rule.parse.bind (· tag.content)).map fun _ => name
      else none

theorem field?_readLine (registry : Registry) (role : Role) (kind line : String) :
    (registry.readLine role kind line).field? = registry.valuedTag? role kind line := by
  have reads := registry.reads_readLine role kind line
  generalize registry.readLine role kind line = reading at reads
  unfold valuedTag?
  cases reads with
  | text plain =>
      rw [plain]
      rfl
  | @unknown tag splits unreadable =>
      simp only [splits, Option.bind_some]
      cases known : registry.rule? (registry.canonicalName tag.name) with
      | none => rfl
      | some rule =>
          rw [known, Option.bind_some] at unreadable
          simp [LineReading.field?, unreadable]
  | notAllowed splits known readable normal refused =>
      simp only [splits, Option.bind_some, known]
      rw [if_neg (by simp [normal, refused])]
      rfl
  | @value tag rule parse splits known readable allowed =>
      have permitted : role = .poster ∨ rule.allows kind = true := by
        cases role with
        | poster => exact Or.inl rfl
        | normal => exact Or.inr (allowed rfl)
      simp only [splits, Option.bind_some, known, readable]
      rw [if_pos permitted]
      cases parse tag.content with
      | none => rfl
      | some value => rfl

theorem CanRead.readLine_eq (reads : registry.CanRead role kind name rule parse) {tag : TagLine}
    (splits : TagLine.read? line = some tag) (resolves : registry.canonicalName tag.name = name) :
    registry.readLine role kind line =
      .value name tag.content rule.repeatable (parse tag.content) := by
  subst resolves
  exact (Reads.value splits reads.known reads.readable reads.allowed).readLine_eq

/-- A line gives a tag a value, which is then what the line is read as, or it does nothing to the
field of the tag. -/
theorem CanRead.value_cases (reads : registry.CanRead role kind name rule parse) (line : String) :
    (∃ content value, registry.valueOf? parse name line = some value ∧
      registry.readLine role kind line = .value name content rule.repeatable (some value)) ∨
    (registry.valueOf? parse name line = none ∧
      (registry.readLine role kind line).field? ≠ some name) := by
  unfold valueOf?
  cases splits : TagLine.read? line with
  | none =>
      right
      refine ⟨rfl, ?_⟩
      rw [(Reads.text splits).readLine_eq]
      exact nofun
  | some tag =>
      rw [Option.bind_some]
      by_cases resolves : registry.canonicalName tag.name = name
      · rw [if_pos resolves, reads.readLine_eq splits resolves]
        cases parse tag.content with
        | some value => exact Or.inl ⟨tag.content, value, rfl, rfl⟩
        | none => exact Or.inr ⟨rfl, nofun⟩
      · right
        refine ⟨if_neg resolves, ?_⟩
        intro sets
        obtain ⟨other, -, again, same, -⟩ :=
          (registry.reads_readLine role kind line).exists_rule sets
        obtain rfl := Option.some.inj (splits.symm.trans again)
        exact resolves same

end Registry

namespace Entry

variable {registry : Registry} {role : Role} {name : String} {rule : TagRule}
  {parse : String → Option Value}

/-- The field of a tag after some lines is made of the values that they give it. -/
theorem field?_readLines (entry : Entry)
    (reads : registry.CanRead role entry.context.kind name rule parse) (lines : List String) :
    (entry.readLines registry role lines).1.field? name =
      FieldValue.storeAll rule.repeatable (entry.field? name)
        (registry.valuesOf parse name lines) := by
  -- The last line comes apart, since what it does depends on the field that the others leave.
  induction lines using List.reverseRecOn with
  | nil => rfl
  | append_singleton lines line ih =>
      rw [readLines_concat, Registry.valuesOf_concat]
      rcases reads.value_cases line with ⟨content, value, gives, reading⟩ | ⟨none, other⟩
      · rw [reading, applyLine_value, gives, Option.toList_some, FieldValue.storeAll_concat, ← ih]
        split
        next refused => exact (FieldValue.store_of_refuses refused).symm
        next => rw [field?_setField, if_pos rfl]
      · rw [field?_applyLine_of_ne line other, ih, none, Option.toList_none, List.append_nil]

/-- A tag that may repeat gets no warning about a further value. One that may not gets a warning for
every value behind the first that is no boolean. -/
theorem count_duplicate_readLines (entry : Entry)
    (reads : registry.CanRead role entry.context.kind name rule parse)
    (unset : entry.field? name = none) (lines : List String) :
    (entry.readLines registry role lines).2.count (.warn (.duplicate name)) =
      if rule.repeatable then 0
      else (registry.valuesOf parse name lines).tail.countP (·.boolean?.isNone) := by
  induction lines using List.reverseRecOn with
  | nil => simp [readLines, Registry.valuesOf]
  | append_singleton lines line ih =>
      rw [readLines_concat, Registry.valuesOf_concat, List.count_append, ih]
      rcases reads.value_cases line with ⟨content, value, gives, reading⟩ | ⟨none, other⟩
      · -- The field is there exactly if an earlier line has given a value.
        have present : ((entry.readLines registry role lines).1.field? name).isSome =
            !(registry.valuesOf parse name lines).isEmpty := by
          rw [field?_readLines entry reads, unset, FieldValue.isSome_storeAll]
        rw [reading, applyLine_value, gives, Option.toList_some, FieldValue.refuses, present]
        cases rule.repeatable with
        | true => simp
        | false =>
            cases registry.valuesOf parse name lines with
            | nil => simp
            | cons first rest => cases truth : value.boolean? <;> simp [truth]
      · rw [count_duplicate_applyLine_of_ne line other, none, Option.toList_none, List.append_nil,
          Nat.add_zero]

theorem keys_readLines (entry : Entry) (unset : entry.fields.keys = []) (lines : List String) :
    (entry.readLines registry role lines).1.fields.keys =
      (lines.filterMap (registry.valuedTag? role entry.context.kind)).eraseDups := by
  induction lines using List.reverseRecOn with
  | nil => exact unset
  | append_singleton lines line ih =>
      rw [readLines_concat, keys_applyLine, Registry.field?_readLine, List.filterMap_append]
      cases valued : registry.valuedTag? role entry.context.kind line with
      | none =>
          rw [List.filterMap_cons_none valued, List.filterMap_nil, List.append_nil]
          exact ih
      | some name =>
          rw [List.filterMap_cons_some valued, List.filterMap_nil, Groups.eraseDups_concat, ← ih]

end Entry

/-! ### The fields of a comment -/

namespace Registry

variable {registry : Registry} {comment : Comment} {name : String} {rule : TagRule}
  {parse : String → Option Value}

theorem field?_ownEntry
    (reads : registry.CanRead comment.role comment.context.kind name rule parse) :
    (registry.ownEntry comment).1.field? name =
      FieldValue.storeAll rule.repeatable none (registry.valuesOf parse name comment.lines) :=
  Entry.field?_readLines (.ofComment comment) reads comment.lines

theorem count_duplicate_ownEntry
    (reads : registry.CanRead comment.role comment.context.kind name rule parse) :
    (registry.ownEntry comment).2.count (.warn (.duplicate name)) =
      if rule.repeatable then 0
      else (registry.valuesOf parse name comment.lines).tail.countP (·.boolean?.isNone) :=
  Entry.count_duplicate_readLines (.ofComment comment) reads rfl comment.lines

/-- A tag that may repeat has no field if the lines give it no value, the flag of its last value if
that is a boolean, and otherwise the list of the values behind the last boolean. No warning says
that it repeats. The fields of the lines stand in the order in which their tags first get a value. -/
theorem ownEntry_repeatable
    (reads : registry.CanRead comment.role comment.context.kind name rule parse)
    (repeatable : rule.repeatable = true) :
    let own := registry.ownEntry comment
    own.1.field? name = FieldValue.ofRepeated (registry.valuesOf parse name comment.lines) ∧
      .warn (.duplicate name) ∉ own.2 ∧
      own.1.fields.keys = (comment.lines.filterMap
        (registry.valuedTag? comment.role comment.context.kind)).eraseDups := by
  intro own
  refine ⟨?_, ?_, ?_⟩
  · rw [field?_ownEntry reads, repeatable, FieldValue.storeAll_repeatable]
  · apply List.count_eq_zero.mp
    rw [count_duplicate_ownEntry reads, if_pos repeatable]
  · exact Entry.keys_readLines (.ofComment comment) rfl comment.lines

theorem ownEntry_repeatable_mixed :
    let text : String → Option Value := fun content =>
      if content = "?" then none
      else if content = "" then some (.boolean true) else some (.string content)
    let see : TagRule := { parse := some text }
    let since : TagRule := { parse := some text, repeatable := false, kinds := some ["function"] }
    let registry : Registry := Registry.insertAlias
      { rules := .ofList [("since", since), ("see", see)] } "link" "see"
    let comment : Comment :=
      { lines := ["@see ?", "@since 1", "@see a", "text", "@link", "@none", "@link b", "@see c"],
        context := { kind := "function" } }
    let own := registry.ownEntry comment
    registry.valuesOf text "see" comment.lines =
        [.string "a", .boolean true, .string "b", .string "c"] ∧
      own.1.field? "see" = some (.list [.string "b", .string "c"]) ∧
      .warn (.duplicate "see") ∉ own.2 ∧ own.1.fields.keys = ["since", "see"] := by
  intro text see since registry comment own
  have reads : registry.CanRead .normal "function" "see" see text :=
    ⟨rfl, rfl, fun _ => rfl⟩
  have tags : comment.lines.filterMap TagLine.read? =
      [⟨"see", "?"⟩, ⟨"since", "1"⟩, ⟨"see", "a"⟩, ⟨"link", ""⟩, ⟨"none", ""⟩, ⟨"link", "b"⟩,
        ⟨"see", "c"⟩] := by
    decide +kernel
  have values : registry.valuesOf text "see" comment.lines =
      [.string "a", .boolean true, .string "b", .string "c"] := by
    rw [valuesOf_eq_filterMap_tags, tags]
    rfl
  have exactly : own.1.field? "see" = _ ∧ _ ∉ own.2 ∧ own.1.fields.keys = _ :=
    ownEntry_repeatable reads rfl
  rw [values] at exactly
  exact ⟨values, exactly.1.trans rfl, exactly.2.1, exactly.2.2.trans (by decide +kernel)⟩

/-- A tag that may not repeat has the field of its first value, unless a later one is a boolean: the
last boolean makes it a flag. Every value behind the first that is no boolean leaves the entry as it
is and gives one warning. -/
theorem ownEntry_single
    (reads : registry.CanRead comment.role comment.context.kind name rule parse)
    (single : rule.repeatable = false) :
    let own := registry.ownEntry comment
    let values := registry.valuesOf parse name comment.lines
    own.1.field? name = FieldValue.ofSingle values ∧
      ((∀ value ∈ values.tail, value.boolean? = none) →
        own.1.field? name = values.head?.map (FieldValue.store false none)) ∧
      own.2.count (.warn (.duplicate name)) = values.tail.countP (·.boolean?.isNone) ∧
      ∀ line tag value, TagLine.read? line = some tag → registry.canonicalName tag.name = name →
        parse tag.content = some value → value.boolean? = none → values ≠ [] →
        registry.ownEntry { comment with lines := comment.lines ++ [line] } =
          (own.1, own.2 ++ [.parse name tag.content, .warn (.duplicate name)]) := by
  intro own values
  have field : own.1.field? name = FieldValue.ofSingle values := by
    rw [field?_ownEntry reads, single, FieldValue.storeAll_single]
  refine ⟨field, ?_, ?_, ?_⟩
  · intro plain
    rw [field, FieldValue.ofSingle_of_plain_tail plain]
  · rw [count_duplicate_ownEntry reads, if_neg (by simp [single])]
  · intro line tag value splits resolves gives plain further
    have present : (own.1.field? name).isSome = true := by
      rw [field, ← FieldValue.storeAll_single, FieldValue.isSome_storeAll]
      simpa using further
    have refused : FieldValue.refuses rule.repeatable (own.1.field? name) value = true := by
      simp [FieldValue.refuses, single, present, plain]
    rw [ownEntry_concat, reads.readLine_eq splits resolves, gives, Entry.applyLine_value,
      if_pos refused]

theorem ownEntry_single_repeated :
    let text : String → Option Value := fun content => some (.string content)
    let rule : TagRule := { parse := some text, repeatable := false, kinds := some ["variable"] }
    let registry : Registry := { rules := .ofList [("type", rule)] }
    let comment : Comment :=
      { lines := ["@type Map", "text", "@type List"], context := { kind := "variable" } }
    let own := registry.ownEntry comment
    own.1.field? "type" = some (.scalar (.string "Map")) ∧
      own.2.count (.warn (.duplicate "type")) = 1 ∧
      registry.ownEntry { comment with lines := comment.lines ++ ["@type Set"] } =
        (own.1, own.2 ++ [.parse "type" "Set", .warn (.duplicate "type")]) := by
  intro text rule registry comment own
  have reads : registry.CanRead .normal "variable" "type" rule text :=
    ⟨rfl, rfl, fun _ => by decide⟩
  have tags : comment.lines.filterMap TagLine.read? = [⟨"type", "Map"⟩, ⟨"type", "List"⟩] := by
    decide +kernel
  have values : registry.valuesOf text "type" comment.lines =
      [.string "Map", .string "List"] := by
    rw [valuesOf_eq_filterMap_tags, tags]
    rfl
  have exactly : own.1.field? "type" = _ ∧ _ ∧ own.2.count _ = _ ∧ _ :=
    ownEntry_single reads rfl
  obtain ⟨field, -, count, further⟩ := exactly
  rw [values] at field count
  refine ⟨field.trans rfl, count.trans rfl, ?_⟩
  exact further "@type Set" ⟨"type", "Set"⟩ (.string "Set") (by decide +kernel) (by decide +kernel)
    rfl rfl (by rw [values]; exact nofun)

/-- A boolean takes the place of the first value of a tag that may not repeat, and no warning says
so. -/
theorem ownEntry_single_replaced :
    let text : String → Option Value := fun content =>
      if content = "" then some (.boolean true) else some (.string content)
    let rule : TagRule := { parse := some text, repeatable := false }
    let registry : Registry := { rules := .ofList [("type", rule)] }
    let comment : Comment := { lines := ["@type Map", "@type"], context := { kind := "variable" } }
    let own := registry.ownEntry comment
    registry.CanRead comment.role comment.context.kind "type" rule text ∧
      rule.repeatable = false ∧
      registry.valuesOf text "type" comment.lines = [.string "Map", .boolean true] ∧
      own.1.field? "type" ≠ some (.scalar (.string "Map")) ∧
      own.1.field? "type" = some (.flag true) ∧
      .warn (.duplicate "type") ∉ own.2 := by
  intro text rule registry comment own
  have reads : registry.CanRead comment.role comment.context.kind "type" rule text :=
    ⟨rfl, rfl, fun _ => rfl⟩
  have tags : comment.lines.filterMap TagLine.read? = [⟨"type", "Map"⟩, ⟨"type", ""⟩] := by
    decide +kernel
  have values : registry.valuesOf text "type" comment.lines = [.string "Map", .boolean true] := by
    rw [valuesOf_eq_filterMap_tags, tags]
    rfl
  have field : own.1.field? "type" = some (.flag true) := by
    rw [field?_ownEntry reads, values]
    rfl
  refine ⟨reads, rfl, values, ?_, field, by decide +kernel⟩
  rw [field]
  exact nofun

end Registry

end DocComments
