import DocComments.Proofs.Json.Report
import DocComments.Proofs.Tag.FieldNames
import DocComments.Proofs.Tag.OrderedValues
import Mathlib.Data.List.Forall2

/-!
# The names of members

The object of an entry has members of its own and one for every field, and that of a context has the
kind and one member for every extra. Nothing keeps a tag from being called `description`, or an
extra from being called `type`: what comes later in the object then hides the member of that name
(`Entry.member?_tree`, `Context.member?_tree`). `Documenter.document_member_names` says exactly when
an object of a report repeats a name, and that everything is read back by its name if none does.
-/

namespace DocComments

variable {α : Type}

theorem Dictionary.Sorted.nodup {entries : List (String × α)} (sorted : Sorted entries) :
    (entries.map Prod.fst).Nodup := by
  refine List.Pairwise.imp ?_ sorted
  rintro name other before rfl
  exact String.lt_irrefl name before

/-- A dictionary as a table. -/
def Dictionary.toTable (dictionary : Dictionary α) : Table α :=
  ⟨dictionary.entries, dictionary.sorted.nodup⟩

/-! ### Members of objects -/

namespace Json

/-- A value of which no object has two members of one name. -/
inductive DistinctNames : Json → Prop
  | null : DistinctNames .null
  | boolean (value : Bool) : DistinctNames (.boolean value)
  | number (token : String) : DistinctNames (.number token)
  | string (value : String) : DistinctNames (.string value)
  | array {items : List Json} (each : ∀ item ∈ items, DistinctNames item) :
      DistinctNames (.array items)
  | object {members : List (String × Json)} (distinct : (members.map Prod.fst).Nodup)
      (each : ∀ member ∈ members, DistinctNames member.2) : DistinctNames (.object members)

theorem distinctNames_array {items : List Json} :
    (array items).DistinctNames ↔ ∀ item ∈ items, item.DistinctNames :=
  ⟨fun | .array each => each, .array⟩

theorem distinctNames_object {members : List (String × Json)} :
    (object members).DistinctNames ↔
      (members.map Prod.fst).Nodup ∧ ∀ member ∈ members, member.2.DistinctNames :=
  ⟨fun | .object distinct each => ⟨distinct, each⟩, fun both => .object both.1 both.2⟩

/-- What an object has under a name. Of members with one name the last counts. -/
def member? (name : String) : Json → Option Json
  | .object members => members.reverse.lookup name
  | _ => none

/-- If the names are distinct, it does not matter which of the members with a name counts. -/
theorem member?_eq_lookup {members : List (String × Json)}
    (distinct : (members.map Prod.fst).Nodup) (name : String) :
    (object members).member? name = members.lookup name := by
  have reversed : (members.reverse.map Prod.fst).Nodup := by
    rw [List.map_reverse]
    exact List.pairwise_reverse.mpr (distinct.imp Ne.symm)
  let forward : Table Json := ⟨members, distinct⟩
  let backward : Table Json := ⟨members.reverse, reversed⟩
  show backward.get? name = forward.get? name
  ext value
  rw [Table.get?_eq_some_iff, Table.get?_eq_some_iff]
  exact List.mem_reverse

/-- The members that stand for the values of a table. -/
def tableMembers (tree : α → Json) (table : Table α) : List (String × Json) :=
  table.entries.map fun (name, value) => (name, tree value)

theorem map_fst_tableMembers (tree : α → Json) (table : Table α) :
    (tableMembers tree table).map Prod.fst = table.keys := List.map_map

theorem member?_tableMembers (tree : α → Json) (table : Table α) (name : String) :
    (object (tableMembers tree table)).member? name = (table.get? name).map tree :=
  (member?_eq_lookup (table.mapValues fun _ => tree).distinct name).trans
    (table.get?_mapValues (fun _ => tree) name)

/-- The values of a table are found under their names, and hide what has these names in front of
them. -/
theorem member?_append_tableMembers (own : List (String × Json)) (tree : α → Json) (table : Table α)
    (name : String) :
    (object (own ++ tableMembers tree table)).member? name =
      ((table.get? name).map tree).or ((object own).member? name) := by
  rw [← member?_tableMembers]
  simp only [member?, List.reverse_append, List.lookup_append]

/-- Members for the values of a table do not repeat a name unless they hide what stands in front of
them. -/
theorem distinctNames_append_tableMembers {own : List (String × Json)} {tree : α → Json}
    {table : Table α} (unique : (own.map Prod.fst).Nodup)
    (each : ∀ entry ∈ table.entries, (tree entry.2).DistinctNames) :
    (object (own ++ tableMembers tree table)).DistinctNames ↔
      (∀ name ∈ own.map Prod.fst, table.get? name = none) ∧
        ∀ member ∈ own, member.2.DistinctNames := by
  rw [distinctNames_object, List.map_append, map_fst_tableMembers, List.nodup_append,
    List.forall_mem_append]
  constructor
  · rintro ⟨⟨-, -, apart⟩, fine, -⟩
    refine ⟨?_, fine⟩
    intro name fixed
    rw [Table.get?_eq_none_iff]
    exact fun later => apart name fixed name later rfl
  · rintro ⟨absent, fine⟩
    refine ⟨⟨unique, table.distinct, ?_⟩, fine, List.forall_mem_map.mpr each⟩
    rintro name fixed other later rfl
    exact Table.get?_eq_none_iff.mp (absent name fixed) later

end Json

/-! ### Values and fields -/

theorem Value.Ordered.distinctNames_tree {value : Value} (ordered : value.Ordered) :
    value.tree.DistinctNames := by
  induction ordered with
  | null => exact .null
  | boolean value => exact .boolean value
  | number value =>
      rw [Value.tree, Number.tree]
      split
      · exact .number _
      · exact .null
  | string value => exact .string value
  | array _ each =>
      rw [Value.tree, itemTrees_eq_map]
      exact .array (List.forall_mem_map.mpr each)
  | @object members sorted _ each =>
      rw [Value.tree, memberTrees_eq_map]
      refine .object ?_ (List.forall_mem_map.mpr each)
      rw [List.map_map]
      exact sorted.nodup

theorem FieldValue.Ordered.distinctNames_tree {field : FieldValue} (ordered : field.Ordered) :
    field.tree.DistinctNames := by
  cases field with
  | list values =>
      refine .array (List.forall_mem_map.mpr ?_)
      exact fun value member => (ordered value member).distinctNames_tree
  | scalar value => exact Value.Ordered.distinctNames_tree ordered
  | flag value => exact .boolean value

/-! ### Contexts and entries -/

namespace Context

/-- An extra hides the kind if it has its name. -/
theorem member?_tree (context : Context) (name : String) :
    context.tree.member? name = ((context.get? name).map Value.tree).or
      ((Json.object [("type", .string context.kind)]).member? name) :=
  Json.member?_append_tableMembers [("type", .string context.kind)] Value.tree
    context.extras.toTable name

theorem distinctNames_tree_iff {context : Context} (ordered : context.Ordered) :
    context.tree.DistinctNames ↔ context.get? "type" = none := by
  have unique : ([("type", Json.string context.kind)].map Prod.fst).Nodup :=
    List.pairwise_singleton _ _
  have each : ∀ extra ∈ context.extras.toTable.entries, extra.2.tree.DistinctNames :=
    fun extra member => (ordered extra member).distinctNames_tree
  refine (Json.distinctNames_append_tableMembers unique each).trans ?_
  simp only [List.map_cons, List.map_nil, List.forall_mem_singleton, Json.DistinctNames.string,
    and_true]
  rfl

end Context

namespace Entry

/-- The members of an entry that are no fields. -/
def ownMembers (entry : Entry) : List (String × Json) :=
  [("description", .string entry.description), ("context", entry.context.tree),
    ("commentRange", entry.range.tree)]

/-- The names of the members that are no fields. -/
def ownNames : List String := ["description", "context", "commentRange"]

/-- An entry that has no field with the name of another member, and no extra with that of the
kind. -/
structure NamesDistinct (entry : Entry) : Prop where
  fields : ∀ name ∈ ownNames, entry.field? name = none
  extras : entry.context.get? "type" = none

/-- A field hides the member of the same name. -/
theorem member?_tree (entry : Entry) (name : String) :
    entry.tree.member? name = ((entry.field? name).map FieldValue.tree).or
      ((Json.object entry.ownMembers).member? name) :=
  Json.member?_append_tableMembers entry.ownMembers FieldValue.tree entry.fields name

theorem distinctNames_tree_iff {entry : Entry} (ordered : entry.Ordered) :
    entry.tree.DistinctNames ↔ entry.NamesDistinct := by
  have each : ∀ field ∈ entry.fields.entries, field.2.tree.DistinctNames := by
    rintro ⟨name, field⟩ member
    exact (ordered.fields name field (Table.get?_eq_some_iff.mpr member)).distinctNames_tree
  have range : entry.range.tree.DistinctNames := by
    refine .object (show ["start", "end"].Nodup by decide) ?_
    simp [Json.DistinctNames.number]
  have unique : (entry.ownMembers.map Prod.fst).Nodup := show ownNames.Nodup by decide
  refine (Json.distinctNames_append_tableMembers unique each).trans ?_
  constructor
  · rintro ⟨absent, own⟩
    have context : entry.context.tree.DistinctNames :=
      own ("context", entry.context.tree) (List.mem_cons_of_mem _ List.mem_cons_self)
    exact ⟨absent, (Context.distinctNames_tree_iff ordered.context).mp context⟩
  · rintro ⟨absent, extras⟩
    refine ⟨absent, ?_⟩
    simp [ownMembers, Json.DistinctNames.string, range,
      (Context.distinctNames_tree_iff ordered.context).mpr extras]

/-- What a reader that goes by names finds in the object of an entry. -/
structure ReadsBack (entry : Entry) (tree : Json) : Prop where
  description : tree.member? "description" = some (.string entry.description)
  range : tree.member? "commentRange" = some entry.range.tree
  kind : (tree.member? "context").bind (Json.member? "type") = some (.string entry.context.kind)
  extras : ∀ name value, entry.context.get? name = some value →
    (tree.member? "context").bind (Json.member? name) = some value.tree
  fields : ∀ name value, entry.field? name = some value → tree.member? name = some value.tree

theorem NamesDistinct.readsBack_tree {entry : Entry} (distinct : entry.NamesDistinct) :
    entry.ReadsBack entry.tree := by
  have own : ∀ name ∈ ownNames,
      entry.tree.member? name = (Json.object entry.ownMembers).member? name := by
    intro name fixed
    rw [member?_tree, distinct.fields name fixed]
    rfl
  have context : entry.tree.member? "context" = some entry.context.tree := own "context" (by decide)
  refine ⟨own "description" (by decide), own "commentRange" (by decide), ?_, ?_, ?_⟩
  · rw [context, Option.bind_some, Context.member?_tree, distinct.extras]
    rfl
  · intro name value stored
    rw [context, Option.bind_some, Context.member?_tree, stored]
    rfl
  · intro name value stored
    rw [member?_tree, stored]
    rfl

end Entry

/-! ### Reports -/

namespace Report

/-- A report of which all entries have distinct names. -/
def NamesDistinct (report : Report) : Prop :=
  ∀ group ∈ report.groups.entries, ∀ entry ∈ group.2, entry.NamesDistinct

theorem member?_tree (report : Report) (kind : String) :
    report.tree.member? kind =
      (report.groups.get? kind).map fun group => .array (group.map Entry.tree) :=
  Json.member?_tableMembers (fun group : List Entry => .array (group.map Entry.tree))
    report.groups kind

theorem distinctNames_tree_iff {report : Report}
    (ordered : ∀ group ∈ report.groups.entries, ∀ entry ∈ group.2, entry.Ordered) :
    report.tree.DistinctNames ↔ report.NamesDistinct := by
  rw [tree, Json.distinctNames_object, List.map_map, List.forall_mem_map]
  constructor
  · rintro ⟨-, each⟩ group grouped entry member
    have items := Json.distinctNames_array.mp (each group grouped)
    exact (Entry.distinctNames_tree_iff (ordered group grouped entry member)).mp
      (items _ (List.mem_map_of_mem member))
  · intro distinct
    refine ⟨report.groups.distinct, ?_⟩
    intro group grouped
    refine .array (List.forall_mem_map.mpr ?_)
    intro entry member
    exact (Entry.distinctNames_tree_iff (ordered group grouped entry member)).mpr
      (distinct group grouped entry member)

end Report

namespace Documenter

/-- No entry has two members of one name if no tag is called like a member of entries and no extra
like the kind. -/
theorem namesDistinct_document {documenter : Documenter}
    (unruled : ∀ name ∈ Entry.ownNames, documenter.reader.registry.rule? name = none)
    (untyped : ∀ rest lines, (documenter.extractor.resolver rest lines).get? "type" = none)
    (source : String) : (documenter.document source).NamesDistinct := by
  rintro ⟨kind, group⟩ grouped entry member
  have made := (Groups.mem_of_mem_ofEntries grouped member).1
  constructor
  · intro name own
    by_contra present
    obtain ⟨rule, known, -⟩ :=
      TagReader.admits_of_mem_readFrom made (Option.isSome_iff_ne_none.mpr present)
    rw [unruled name own] at known
    cases known
  · obtain ⟨before, comment, after, split, -, rfl⟩ := TagReader.exists_of_mem_readFrom made
    have found : comment ∈ documenter.extract source := by
      rw [split]
      exact List.mem_append_right _ List.mem_cons_self
    obtain ⟨rest, lines, resolved⟩ := Extractor.exists_resolver_of_mem_extract found
    rw [TagReader.context_entryOf, resolved]
    exact untyped rest lines

theorem distinctNames_tree_document_iff {documenter : Documenter}
    (gives : documenter.GivesOrdered) (source : String) :
    (documenter.document source).tree.DistinctNames ↔
      (documenter.document source).NamesDistinct :=
  Report.distinctNames_tree_iff fun _ grouped _ member =>
    documenter.ordered_of_mem_document gives grouped member

/-- A field that is called like another member of its entry hides that member. -/
theorem not_distinctNames_of_field? {documenter : Documenter} (gives : documenter.GivesOrdered)
    {source kind name : String} {group : List Entry} {entry : Entry} {field : FieldValue}
    (grouped : (kind, group) ∈ (documenter.document source).groups.entries)
    (member : entry ∈ group) (own : name ∈ Entry.ownNames)
    (stored : entry.field? name = some field) :
    ¬ (documenter.document source).tree.DistinctNames ∧
      entry.tree.member? name = some field.tree := by
  constructor
  · rw [distinctNames_tree_document_iff gives]
    intro distinct
    rw [(distinct _ grouped entry member).fields name own] at stored
    cases stored
  · rw [Entry.member?_tree, stored]
    rfl

/-- The JSON of a report repeats a name in some object exactly if a field is called like another
member of its entry, or an extra like the kind. Otherwise everything is found under its name. In
particular this holds for all sources if no tag and no extra has such a name. -/
theorem document_member_names {documenter : Documenter} (gives : documenter.GivesOrdered)
    (source : String) :
    let report := documenter.document source
    ∃ tree, Json.parse? report.toJson = some tree ∧
      (tree.DistinctNames ↔ report.NamesDistinct) ∧
      (report.NamesDistinct → ∀ kind group, (kind, group) ∈ report.groups.entries →
        ∃ items, tree.member? kind = some (.array items) ∧
          List.Forall₂ Entry.ReadsBack group items) ∧
      ((∀ name ∈ Entry.ownNames, documenter.reader.registry.rule? name = none) →
        (∀ rest lines, (documenter.extractor.resolver rest lines).get? "type" = none) →
        report.NamesDistinct) := by
  intro report
  refine ⟨report.tree, ?_, distinctNames_tree_document_iff gives source, ?_, ?_⟩
  · rw [Report.toJson, Json.parse?_pretty_ofDocument, Json.ofDocument_report]
  · intro distinct kind group grouped
    refine ⟨group.map Entry.tree, ?_, ?_⟩
    · rw [Report.member?_tree, Table.get?_eq_some_iff.mpr grouped]
      rfl
    · rw [List.forall₂_map_right_iff, List.forall₂_same]
      exact fun entry member => (distinct _ grouped entry member).readsBack_tree
  · exact fun unruled untyped => namesDistinct_document unruled untyped source

theorem document_member_names_nested :
    let param : TagRule :=
      { parse := some fun content =>
          some (.object [("name", .string content), ("optional", .boolean false)]) }
    let summary : TagRule :=
      { fallback := some fun entry => some (.scalar (.string entry.description)) }
    let resolver : Resolver := fun rest _ =>
      { kind := "function", extras := Dictionary.empty.insert "name" (.string rest) }
    let documenter : Documenter :=
      { extractor := .ofDelimiters resolver {}
        reader := .new (({} : Registry).insert "param" param |>.insert "summary" summary)
          (.all true) }
    let report := documenter.document "/// Adds.\n/// @param x\nadd"
    documenter.GivesOrdered ∧ report.groups.keys = ["function"] ∧
      ∃ tree, Json.parse? report.toJson = some tree ∧ tree.DistinctNames ∧
        ∀ kind group, (kind, group) ∈ report.groups.entries →
          ∃ items, tree.member? kind = some (.array items) ∧
            List.Forall₂ Entry.ReadsBack group items := by
  intro param summary resolver documenter report
  have gives : documenter.GivesOrdered := by
    refine ⟨?_, ?_⟩
    · have readable : param.GivesOrdered := by
        refine TagRule.givesOrdered_of_parse ?_
        intro content value read
        obtain rfl := Option.some.inj read
        have sorted : ["name", "optional"].Pairwise (· < ·) := by decide
        refine .object sorted ?_
        simp [Value.Ordered.string, Value.Ordered.boolean]
      have computed : summary.GivesOrdered := by
        refine ⟨nofun, ?_, nofun⟩
        intro function same entry _ field result
        obtain rfl := Option.some.inj same
        obtain rfl := Option.some.inj result
        exact .string _
      have all : ∀ rule ∈ [("param", param), ("summary", summary)], rule.2.GivesOrdered := by
        simp [readable, computed]
      exact all
    · intro rest lines
      exact List.forall_mem_singleton.mpr (.string rest)
  obtain ⟨tree, parsed, distinct, readBack, free⟩ :=
    document_member_names gives "/// Adds.\n/// @param x\nadd"
  have names : report.NamesDistinct := by
    refine free ?_ fun _ _ => rfl
    simp only [Entry.ownNames, List.forall_mem_cons]
    exact ⟨rfl, rfl, rfl, nofun⟩
  exact ⟨gives, by decide +kernel, tree, parsed, distinct.mpr names, readBack names⟩

/-- A tag called `description` gives an object two members of this name, and of the two the
description is not found. -/
theorem document_names_repeated :
    let rule : TagRule :=
      { parse := some fun content => some (.string content), repeatable := false }
    let documenter : Documenter :=
      { extractor := .ofDelimiters (fun _ _ => { kind := "t" }) {}
        reader := .new (({} : Registry).insert "description" rule) (.all true) }
    let repeats (source shown : String) : Prop :=
      ∃ tree item, Json.parse? (documenter.document source).toJson = some tree ∧
        ¬ tree.DistinctNames ∧ tree.member? "t" = some (.array [item]) ∧
        item.member? "description" = some (.string shown)
    repeats "/// @description" "" ∧ repeats "/// Adds.\n/// @description x" "x" := by
  intro rule documenter repeats
  have gives : documenter.GivesOrdered := by
    refine ⟨?_, fun _ _ => nofun⟩
    have readable : rule.GivesOrdered := by
      refine TagRule.givesOrdered_of_parse ?_
      intro content value read
      obtain rfl := Option.some.inj read
      exact .string content
    exact List.forall_mem_singleton.mpr readable
  have repeats_of_stored (source shown : String)
      (stored : (documenter.document source).groups.entries.map (fun group => (group.1,
          group.2.map fun entry =>
            ((entry.field? "description").bind FieldValue.scalar?).bind Value.string?)) =
        [("t", [some shown])]) : repeats source shown := by
    obtain ⟨⟨kind, group⟩, entries, same⟩ := List.map_eq_singleton_iff.mp stored
    obtain ⟨rfl, inside⟩ := Prod.mk.inj same
    obtain ⟨entry, rfl, text⟩ := List.map_eq_singleton_iff.mp inside
    obtain ⟨value, scalar, isText⟩ := Option.bind_eq_some_iff.mp text
    obtain ⟨field, present, isScalar⟩ := Option.bind_eq_some_iff.mp scalar
    have grouped : ("t", [entry]) ∈ (documenter.document source).groups.entries := by
      rw [entries]
      exact List.mem_cons_self
    have written : field.tree = .string shown := by
      cases field <;> cases isScalar
      cases value <;> cases isText
      rfl
    obtain ⟨repeated, hidden⟩ :=
      not_distinctNames_of_field? gives grouped List.mem_cons_self List.mem_cons_self present
    refine ⟨(documenter.document source).tree, entry.tree, ?_, repeated, ?_, ?_⟩
    · rw [Report.toJson, Json.parse?_pretty_ofDocument, Json.ofDocument_report]
    · rw [Report.member?_tree, Table.get?_eq_some_iff.mpr grouped]
      rfl
    · rw [hidden, written]
  exact ⟨repeats_of_stored _ _ (by decide +kernel), repeats_of_stored _ _ (by decide +kernel)⟩

end Documenter

end DocComments
