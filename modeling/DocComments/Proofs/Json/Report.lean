import DocComments.Proofs.Json.RoundTrip
import DocComments.Report

/-!
# The JSON of reports

What the JSON of a report says, as a tree: an object with an array for every kind, in which every
entry is an object of its description, its context, its range and its fields. The tree is read off
the report itself. The JSON text of a report is well formed and reads back as this tree, with
nothing lost, added, merged or reordered (`Report.parse?_toJson`).
-/

namespace DocComments

/-- Whether a number has digits: infinity and what is not a number have all exponent bits set. -/
def Number.isFinite (number : Number) : Bool :=
  number.bits.toNat / leadingBit % (topExponent + 1) ≠ topExponent

/-- A finite number is its token, and the others are null. -/
def Number.tree (number : Number) : Json :=
  if number.isFinite then .number (String.ofList (Json.numberLayout.render number)) else .null

mutual

/-- What the JSON of a value says. -/
def Value.tree : Value → Json
  | .null => .null
  | .boolean value => .boolean value
  | .number value => value.tree
  | .string value => .string value
  | .array items => .array (Value.itemTrees items)
  | .object members => .object (Value.memberTrees members)

/-- What the JSON of the items of an array says. -/
def Value.itemTrees : List Value → List Json
  | [] => []
  | item :: items => item.tree :: Value.itemTrees items

/-- What the JSON of the members of an object says. -/
def Value.memberTrees : List (String × Value) → List (String × Json)
  | [] => []
  | (name, value) :: members => (name, value.tree) :: Value.memberTrees members

end

theorem Value.itemTrees_eq_map (items : List Value) : itemTrees items = items.map tree := by
  induction items with
  | nil => rfl
  | cons item items ih => rw [itemTrees, ih, List.map_cons]

theorem Value.memberTrees_eq_map (members : List (String × Value)) :
    memberTrees members = members.map fun (name, value) => (name, value.tree) := by
  induction members with
  | nil => rfl
  | cons member members ih => rw [memberTrees, ih, List.map_cons]

/-- A list is an array, a scalar is its value, and a flag is a boolean. -/
def FieldValue.tree : FieldValue → Json
  | .list values => .array (values.map Value.tree)
  | .scalar value => value.tree
  | .flag value => .boolean value

/-- The kind comes first, and the extras follow in the order of their names. -/
def Context.tree (context : Context) : Json :=
  .object (("type", .string context.kind) ::
    context.extras.entries.map fun (name, value) => (name, value.tree))

/-- Lines are written as naturals. -/
def LineRange.tree (range : LineRange) : Json :=
  .object [("start", .number (toString range.first)), ("end", .number (toString range.last))]

/-- The fields come last, in the order in which they were first set. -/
def Entry.tree (entry : Entry) : Json :=
  .object
    (("description", .string entry.description) :: ("context", entry.context.tree) ::
      ("commentRange", entry.range.tree) ::
      entry.fields.entries.map fun (name, value) => (name, value.tree))

/-- An array of entries for every kind, in the order of the groups. -/
def Report.tree (report : Report) : Json :=
  .object (report.groups.entries.map fun (kind, entries) => (kind, .array (entries.map Entry.tree)))

namespace Json

theorem ofDocuments_eq_map (items : List Document) : ofDocuments items = items.map ofDocument := by
  induction items with
  | nil => rfl
  | cons item items ih => rw [ofDocuments, ih, List.map_cons]

theorem ofMembers_eq_map (members : List (String × Document)) :
    ofMembers members = members.map fun (name, value) => (name, ofDocument value) := by
  induction members with
  | nil => rfl
  | cons member members ih => rw [ofMembers, ih, List.map_cons]

theorem ofNumber_eq_tree (number : Number) : ofNumber number = number.tree := by
  simp only [ofNumber, Number.tree, Number.isFinite, Number.magnitude, decide_eq_true_eq, ne_eq,
    ite_not]
  split_ifs <;> rfl

mutual

theorem ofDocument_value : (value : Value) → ofDocument value.toDocument = value.tree
  | .null | .boolean _ | .string _ => rfl
  | .number value => ofNumber_eq_tree value
  | .array items => congrArg Json.array (ofDocuments_values items)
  | .object members => congrArg Json.object (ofMembers_values members)

theorem ofDocuments_values : (items : List Value) →
    ofDocuments (Value.toDocuments items) = Value.itemTrees items
  | [] => rfl
  | item :: items => congrArg₂ List.cons (ofDocument_value item) (ofDocuments_values items)

theorem ofMembers_values : (members : List (String × Value)) →
    ofMembers (Value.toMembers members) = Value.memberTrees members
  | [] => rfl
  | (name, value) :: members =>
      congrArg₂ List.cons (congrArg (name, ·) (ofDocument_value value)) (ofMembers_values members)

end

theorem ofDocument_field (field : FieldValue) : ofDocument field.toDocument = field.tree := by
  cases field with
  | list values =>
      simp [FieldValue.toDocument, FieldValue.tree, ofDocument, ofDocuments_eq_map,
        Value.toDocuments_eq_map, ofDocument_value]
  | scalar value => exact ofDocument_value value
  | flag value => rfl

theorem ofDocument_context (context : Context) : ofDocument context.toDocument = context.tree := by
  simp [Context.toDocument, Context.tree, ofDocument, ofMembers_eq_map, Value.toMembers_eq_map,
    ofDocument_value]

theorem ofDocument_range (range : LineRange) : ofDocument range.toDocument = range.tree := by
  simp [LineRange.toDocument, LineRange.tree, ofDocument, ofMembers, Nat.repr_eq_ofList_toDigits]

theorem ofDocument_entry (entry : Entry) : ofDocument entry.toDocument = entry.tree := by
  simp [Entry.toDocument, Entry.tree, ofDocument, ofMembers_eq_map, ofDocument_context,
    ofDocument_range, ofDocument_field]

theorem ofDocument_report (report : Report) : ofDocument report.toDocument = report.tree := by
  simp [Report.toDocument, Report.tree, ofDocument, ofMembers_eq_map, ofDocuments_eq_map,
    ofDocument_entry, Function.comp_def]

end Json

/-- The JSON of a report is well formed and says what the report says: reading it, with the order
and the repetition of all members kept, gives the tree of the report. -/
theorem Report.parse?_toJson (report : Report) : Json.parse? report.toJson = some report.tree := by
  rw [Report.toJson, Json.parse?_pretty_ofDocument, Json.ofDocument_report]

end DocComments
