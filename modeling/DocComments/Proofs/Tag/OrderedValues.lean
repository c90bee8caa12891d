import DocComments.Documenter
import DocComments.Proofs.Tag.Values

/-!
# Values with ordered objects

An object keeps its members in the order of their names, so it has every name once. The values in a
report come from outside, out of the readers of tags, the functions that compute fields and the
resolver. If these give ordered values whenever they are given ordered ones
(`Documenter.GivesOrdered`), all values of a report are ordered: no line that is read, no field that
is inherited or computed makes one that is not (`Documenter.ordered_of_mem_document`).
-/

namespace DocComments

/-- A value in which the members of every object stand in the order of their names. -/
inductive Value.Ordered : Value → Prop
  | null : Ordered .null
  | boolean (value : Bool) : Ordered (.boolean value)
  | number (value : Number) : Ordered (.number value)
  | string (value : String) : Ordered (.string value)
  | array {items : List Value} (each : ∀ item ∈ items, Ordered item) : Ordered (.array items)
  | object {members : List (String × Value)} (sorted : Dictionary.Sorted members)
      (each : ∀ member ∈ members, Ordered member.2) : Ordered (.object members)

/-- A field of which all values are ordered. -/
def FieldValue.Ordered : FieldValue → Prop
  | .list values => ∀ value ∈ values, value.Ordered
  | .scalar value => value.Ordered
  | .flag _ => True

/-- A context of which all extras are ordered. -/
def Context.Ordered (context : Context) : Prop := ∀ extra ∈ context.extras.entries, extra.2.Ordered

/-- An entry of which all values are ordered. -/
structure Entry.Ordered (entry : Entry) : Prop where
  context : entry.context.Ordered
  fields : ∀ name, ∀ field ∈ entry.field? name, field.Ordered

/-! ### What a caller provides -/

/-- A rule whose functions give ordered values when they are given ordered ones. -/
structure TagRule.GivesOrdered (rule : TagRule) : Prop where
  parse : ∀ parse ∈ rule.parse, ∀ content, ∀ value ∈ parse content, value.Ordered
  fallback : ∀ function ∈ rule.fallback, ∀ entry : Entry, entry.Ordered →
    ∀ field ∈ function entry, field.Ordered
  autofill : ∀ function ∈ rule.autofill, ∀ entry : Entry, entry.Ordered →
    ∀ field ∈ function entry, field.Ordered

/-- A rule that computes no fields gives ordered values if its reader does. -/
theorem TagRule.givesOrdered_of_parse {parse : String → Option Value} {repeatable : Bool}
    (ordered : ∀ content, ∀ value ∈ parse content, value.Ordered) :
    TagRule.GivesOrdered { parse := some parse, repeatable } where
  parse := by
    intro read same
    obtain rfl := Option.some.inj same
    exact ordered
  fallback := nofun
  autofill := nofun

/-- A registry of which all rules give ordered values. -/
def Registry.GivesOrdered (registry : Registry) : Prop :=
  ∀ rule ∈ registry.rules.entries, rule.2.GivesOrdered

/-- A documenter whose rules and whose resolver give ordered values. -/
structure Documenter.GivesOrdered (documenter : Documenter) : Prop where
  rules : documenter.reader.registry.GivesOrdered
  contexts : ∀ rest lines, (documenter.extractor.resolver rest lines).Ordered

/-! ### What is set in an entry -/

/-- One more value leaves a field ordered. -/
theorem FieldValue.ordered_store {old : Option FieldValue} (before : ∀ field ∈ old, field.Ordered)
    (repeatable : Bool) {value : Value} (given : value.Ordered) :
    (store repeatable old value).Ordered := by
  unfold store
  split
  · trivial
  · split
    · intro item member
      rcases List.mem_append.mp member with earlier | last
      · rcases old with _ | (_ | _ | _)
        case some.list values => exact before _ rfl item earlier
        all_goals cases earlier
      · rw [List.mem_singleton.mp last]
        exact given
    · cases old with
      | none => exact given
      | some field => exact before field rfl

namespace Entry.Ordered

variable {entry : Entry}

theorem setField (ordered : entry.Ordered) (name : String) {field : FieldValue}
    (given : field.Ordered) : (entry.setField name field).Ordered where
  context := ordered.context
  fields := by
    intro other stored found
    rw [field?_setField] at found
    split at found
    · obtain rfl := Option.some.inj found
      exact given
    · exact ordered.fields other stored found

theorem withField (ordered : entry.Ordered) (name : String) {value : Option FieldValue}
    (given : ∀ field ∈ value, field.Ordered) : (entry.withField name value).Ordered := by
  cases value with
  | none => exact ordered
  | some field => exact ordered.setField name (given field rfl)

/-! ### Lines -/

variable {registry : Registry} {role : Role} {kind line : String}

theorem applyLine (rules : registry.GivesOrdered) {reading : LineReading}
    (reads : registry.Reads role kind line reading) (ordered : entry.Ordered) :
    (entry.applyLine line reading).1.Ordered := by
  cases reads with
  | text => exact ⟨ordered.context, ordered.fields⟩
  | unknown => exact ordered
  | notAllowed => exact ordered
  | @value tag rule parse _ known readable _ =>
      cases read : parse tag.content with
      | none => exact ordered
      | some value =>
          have gives := rules _ (Table.get?_eq_some_iff.mp known)
          have given := gives.parse parse readable tag.content value read
          rw [applyLine_value]
          split
          · exact ordered
          · exact ordered.setField _ (FieldValue.ordered_store (ordered.fields _) _ given)

theorem readLines (rules : registry.GivesOrdered) (ordered : entry.Ordered) (lines : List String) :
    (entry.readLines registry role lines).1.Ordered := by
  induction lines generalizing entry with
  | nil => exact ordered
  | cons line lines ih =>
      rw [readLines_cons]
      exact ih (ordered.applyLine rules (registry.reads_readLine role _ line))

/-! ### Inherited and computed fields -/

theorem inheritField (ordered : entry.Ordered) {field : String × FieldValue}
    (lent : field.2.Ordered) : (entry.inheritField registry field).Ordered := by
  unfold Entry.inheritField
  split
  · exact ordered.setField _ lent
  · exact ordered

theorem inherit {poster : Entry} (ordered : entry.Ordered) (lender : poster.Ordered) :
    (entry.inherit registry poster).Ordered := by
  have lent : ∀ field ∈ poster.fields.entries, field.2.Ordered := by
    rintro ⟨name, field⟩ member
    exact lender.fields name field (Table.get?_eq_some_iff.mpr member)
  unfold Entry.inherit
  generalize poster.fields.entries = fields at lent
  induction fields generalizing entry with
  | nil => exact ordered
  | cons field fields ih =>
      rw [List.forall_mem_cons] at lent
      exact ih (ordered.inheritField lent.1) lent.2

variable {rule : TagRule}

theorem baseField (gives : rule.GivesOrdered) (ordered : entry.Ordered) (name : String) :
    ∀ field ∈ entry.baseField name rule, field.Ordered := by
  intro field found
  rcases Option.or_eq_some_iff.mp found with stored | ⟨-, computed⟩
  · exact ordered.fields name field stored
  · obtain ⟨function, fallback, result⟩ := Option.bind_eq_some_iff.mp computed
    exact gives.fallback function fallback entry ordered field result

theorem decidedField (gives : rule.GivesOrdered) (ordered : entry.Ordered) (choice : Autofill)
    (name : String) : ∀ field ∈ entry.decidedField choice name rule, field.Ordered := by
  have base := baseField gives ordered name
  intro field found
  rcases Option.or_eq_some_iff.mp found with filled | ⟨-, kept⟩
  · obtain ⟨function, autofill, result⟩ := Option.bind_eq_some_iff.mp filled
    split at autofill
    · exact gives.autofill function autofill _ (ordered.withField name base) field result
    · cases autofill
  · exact base field kept

theorem completeField (gives : rule.GivesOrdered) (ordered : entry.Ordered) (choice : Autofill)
    (name : String) : (entry.completeField choice name rule).1.Ordered := by
  cases allowed : rule.allows entry.context.kind with
  | true =>
      rw [completeField_of_allows allowed]
      exact ordered.withField name (decidedField gives ordered choice name)
  | false =>
      rw [completeField_of_not_allows allowed]
      exact ordered

theorem complete {rules : List (String × TagRule)} (gives : ∀ rule ∈ rules, rule.2.GivesOrdered)
    (ordered : entry.Ordered) (choice : Autofill) : (entry.complete choice rules).1.Ordered := by
  induction rules generalizing entry with
  | nil => exact ordered
  | cons first rules ih =>
      rw [List.forall_mem_cons] at gives
      exact ih gives.2 (ordered.completeField gives.1 choice first.1)

end Entry.Ordered

/-! ### Comments and sources -/

theorem Registry.GivesOrdered.ordered_ownEntry {registry : Registry} (rules : registry.GivesOrdered)
    {comment : Comment} (context : comment.context.Ordered) :
    (registry.ownEntry comment).1.Ordered := by
  have unread : (Entry.ofComment comment).Ordered := ⟨context, nofun⟩
  exact unread.readLines rules comment.lines

namespace TagReader

variable {reader : TagReader} (rules : reader.registry.GivesOrdered)

include rules

theorem ordered_entryOf {poster : Option Entry} {comment : Comment}
    (lender : ∀ lender ∈ poster, lender.Ordered) (context : comment.context.Ordered) :
    (reader.entryOf poster comment).Ordered := by
  have own := rules.ordered_ownEntry context
  cases poster with
  | none => exact own.complete rules reader.autofill
  | some lent => exact (own.inherit (lender lent rfl)).complete rules reader.autofill

theorem ordered_of_mem_readFrom {comments : List Comment} {entry : Entry}
    (contexts : ∀ comment ∈ comments, comment.context.Ordered)
    (member : entry ∈ (reader.readFrom none comments).1) : entry.Ordered := by
  obtain ⟨before, comment, after, rfl, -, rfl⟩ := exists_of_mem_readFrom member
  rw [List.forall_mem_append, List.forall_mem_cons] at contexts
  obtain ⟨above, here, -⟩ := contexts
  refine ordered_entryOf rules ?_ here
  intro lender lends
  rw [posterAfter, Option.none_or, Option.mem_def, Option.map_eq_some_iff] at lends
  obtain ⟨poster, found, rfl⟩ := lends
  exact rules.ordered_ownEntry (above poster (List.mem_of_find?_eq_some found))

end TagReader

/-- The context of a comment is what the resolver made of the source behind it. -/
theorem Extractor.exists_resolver_of_mem_extract {extractor : Extractor} {source : String}
    {comment : Comment} (member : comment ∈ extractor.extract source) :
    ∃ rest lines, comment.context = extractor.resolver rest lines := by
  rw [Extractor.extract_eq_map] at member
  obtain ⟨found, -, rfl⟩ := List.mem_map.mp member
  exact ⟨_, _, rfl⟩

theorem Documenter.ordered_of_mem_document {documenter : Documenter}
    (gives : documenter.GivesOrdered) {source kind : String} {group : List Entry} {entry : Entry}
    (grouped : (kind, group) ∈ (documenter.document source).groups.entries)
    (member : entry ∈ group) : entry.Ordered := by
  refine TagReader.ordered_of_mem_readFrom gives.rules ?_
    (Groups.mem_of_mem_ofEntries grouped member).1
  intro comment found
  obtain ⟨rest, lines, resolved⟩ := Extractor.exists_resolver_of_mem_extract found
  rw [resolved]
  exact gives.contexts rest lines

end DocComments
