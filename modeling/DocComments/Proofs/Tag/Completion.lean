import DocComments.Proofs.Tag.Reader

/-!
# Computing fields rule by rule

The rules compute their fields one after the other, each on the entry that the ones before it left.
`completeField_of_allows` says what the turn of one tag does: it sets the field that
`Entry.decidedField` gives. The names of the rules are distinct, so a tag is decided in its own turn
only: no other turn changes its field (`field?_complete_of_not_mem`), and which functions are called
is known from the entry at the start (`events_complete`). Fields that are new go last, in the order
of the rules (`keys_complete`).
-/

namespace DocComments

namespace Entry

variable {choice : Autofill} {entry : Entry} {name other : String} {rule : TagRule}

/-! ### Setting a field that may be absent -/

/-- The entry with a field set, if there is a value for it. -/
def withField (entry : Entry) (name : String) : Option FieldValue → Entry
  | some value => entry.setField name value
  | none => entry

@[simp] theorem withField_none (entry : Entry) (name : String) :
    entry.withField name none = entry := rfl

@[simp] theorem withField_some (entry : Entry) (name : String) (value : FieldValue) :
    entry.withField name (some value) = entry.setField name value := rfl

theorem field?_setField (value : FieldValue) :
    (entry.setField name value).field? other =
      if other = name then some value else entry.field? other :=
  Table.get?_insert entry.fields name other value

theorem field?_withField_self (value : Option FieldValue) :
    (entry.withField name value).field? name = value.or (entry.field? name) := by
  cases value with
  | none => rfl
  | some value => rw [withField_some, field?_setField, if_pos rfl, Option.some_or]

theorem field?_withField_of_ne (value : Option FieldValue) (different : other ≠ name) :
    (entry.withField name value).field? other = entry.field? other := by
  cases value with
  | none => rfl
  | some value => rw [withField_some, field?_setField, if_neg different]

/-- A field that has the value already is left as it is. -/
theorem withField_field? (entry : Entry) (name : String) :
    entry.withField name (entry.field? name) = entry := by
  cases stored : entry.field? name with
  | none => rfl
  | some value =>
      rw [withField_some, setField, Table.insert_of_get? stored]

theorem withField_withField (entry : Entry) (name : String) (first second : Option FieldValue) :
    (entry.withField name first).withField name second =
      entry.withField name (second.or first) := by
  cases second with
  | none => rfl
  | some later =>
      cases first with
      | none => rfl
      | some value =>
          simp only [withField_some, Option.some_or, setField]
          rw [Table.insert_insert]

theorem compute_eq_withField (entry : Entry) (name : String)
    (function : Entry → Option FieldValue) :
    entry.compute name function = entry.withField name (function entry) := by
  unfold compute
  split
  next value computed => rw [computed, withField_some]
  next declined => rw [declined, withField_none]

/-! ### The turn of one tag -/

/-- What a tag has before its autofill: the field it has, or else what its fallback gives. -/
def baseField (entry : Entry) (name : String) (rule : TagRule) : Option FieldValue :=
  (entry.field? name).or (rule.fallback.bind (· entry))

/-- What a tag has in the end: what its autofill gives, or else what it had before. -/
def decidedField (choice : Autofill) (entry : Entry) (name : String) (rule : TagRule) :
    Option FieldValue :=
  let base := entry.baseField name rule
  ((if choice.enables name then rule.autofill else none).bind
    (· (entry.withField name base))).or base

/-- The functions of a tag that are called, given whether it has a field already. -/
def calls (choice : Autofill) (kind name : String) (rule : TagRule) (present : Bool) : List Event :=
  if rule.allows kind then
    (if rule.fallback.isSome && !present then [.fallback name] else []) ++
      (if rule.autofill.isSome && choice.enables name then [.autofill name] else [])
  else []

theorem applyFallback_eq (entry : Entry) (name : String) (rule : TagRule) :
    entry.applyFallback name rule =
      (entry.withField name (entry.baseField name rule),
        if rule.fallback.isSome && !entry.contains name then [.fallback name] else []) := by
  have present : entry.contains name = (entry.field? name).isSome := rfl
  unfold applyFallback baseField
  cases rule.fallback with
  | none => simp [withField_field?]
  | some function =>
      rw [present]
      cases stored : entry.field? name with
      | none => simp [compute_eq_withField]
      | some value =>
          have same := entry.withField_field? name
          rw [stored, withField_some] at same
          simp [same]

theorem applyAutofill_eq (choice : Autofill) (entry : Entry) (name : String) (rule : TagRule) :
    entry.applyAutofill choice name rule =
      (entry.withField name ((if choice.enables name then rule.autofill else none).bind (· entry)),
        if rule.autofill.isSome && choice.enables name then [.autofill name] else []) := by
  unfold applyAutofill
  cases rule.autofill with
  | none => simp
  | some function =>
      cases choice.enables name with
      | false => simp
      | true => simp [compute_eq_withField]

theorem completeField_of_allows (allowed : rule.allows entry.context.kind = true) :
    (entry.completeField choice name rule).1 =
      entry.withField name (entry.decidedField choice name rule) := by
  simp only [completeField, if_pos allowed, applyFallback_eq, applyAutofill_eq, withField_withField]
  rfl

theorem completeField_of_not_allows (refused : rule.allows entry.context.kind = false) :
    entry.completeField choice name rule = (entry, []) := by
  rw [completeField, refused, if_neg Bool.false_ne_true]

theorem events_completeField (choice : Autofill) (entry : Entry) (name : String) (rule : TagRule) :
    (entry.completeField choice name rule).2 =
      calls choice entry.context.kind name rule (entry.contains name) := by
  simp only [completeField, calls, applyFallback_eq, applyAutofill_eq]
  split <;> rfl

/-- A field that the tag had is kept or replaced, never taken away. -/
theorem decidedField_or_field? (choice : Autofill) (entry : Entry) (name : String)
    (rule : TagRule) :
    (entry.decidedField choice name rule).or (entry.field? name) =
      entry.decidedField choice name rule := by
  simp only [decidedField, baseField]
  cases entry.field? name with
  | none => rw [Option.or_none]
  | some value => simp

theorem field?_completeField_of_ne (different : other ≠ name) :
    (entry.completeField choice name rule).1.field? other = entry.field? other := by
  cases allowed : rule.allows entry.context.kind with
  | true => rw [completeField_of_allows allowed, field?_withField_of_ne _ different]
  | false => rw [completeField_of_not_allows allowed]

theorem field?_completeField_self (allowed : rule.allows entry.context.kind = true) :
    (entry.completeField choice name rule).1.field? name =
      entry.decidedField choice name rule := by
  rw [completeField_of_allows allowed, field?_withField_self, decidedField_or_field?]

theorem contains_completeField_of_ne (different : other ≠ name) :
    (entry.completeField choice name rule).1.contains other = entry.contains other :=
  congrArg Option.isSome (field?_completeField_of_ne different)

theorem context_completeField (choice : Autofill) (entry : Entry) (name : String) (rule : TagRule) :
    (entry.completeField choice name rule).1.context = entry.context :=
  (grows_completeField choice entry name rule).context_eq

/-- A field that is new goes last, and any other keeps its place. -/
theorem keys_completeField (choice : Autofill) (entry : Entry) (name : String) (rule : TagRule) :
    (entry.completeField choice name rule).1.fields.keys =
      entry.fields.keys ++
        if !entry.contains name && (entry.completeField choice name rule).1.contains name then
          [name]
        else [] := by
  have keys (value : Option FieldValue) : (entry.withField name value).fields.keys =
      entry.fields.keys ++
        if !entry.contains name && (entry.withField name value).contains name then [name]
        else [] := by
    cases value with
    | none => simp
    | some value =>
        have stored : (entry.setField name value).contains name = true := by
          simp [contains_setField]
        rw [withField_some, stored, Bool.and_true]
        show (entry.fields.insert name value).keys = _
        rw [Table.keys_insert]
        cases present : entry.contains name with
        | true => simp [Table.contains_iff.mp present]
        | false => simp [Table.contains_eq_false_iff.mp present]
  cases allowed : rule.allows entry.context.kind with
  | true =>
      rw [completeField_of_allows allowed]
      exact keys _
  | false =>
      rw [completeField_of_not_allows allowed]
      exact keys none

/-! ### All tags in order -/

theorem complete_cons (choice : Autofill) (entry : Entry) (name : String) (rule : TagRule)
    (rules : List (String × TagRule)) :
    (entry.complete choice ((name, rule) :: rules)).1 =
      ((entry.completeField choice name rule).1.complete choice rules).1 := rfl

theorem events_complete_cons (choice : Autofill) (entry : Entry) (name : String) (rule : TagRule)
    (rules : List (String × TagRule)) :
    (entry.complete choice ((name, rule) :: rules)).2 =
      (entry.completeField choice name rule).2 ++
        ((entry.completeField choice name rule).1.complete choice rules).2 := rfl

theorem complete_append (choice : Autofill) (entry : Entry)
    (before after : List (String × TagRule)) :
    (entry.complete choice (before ++ after)).1 =
      ((entry.complete choice before).1.complete choice after).1 := by
  induction before generalizing entry with
  | nil => rfl
  | cons first before ih => rw [List.cons_append, complete_cons, complete_cons, ih]

/-- A tag without a rule among these keeps the field it has. -/
theorem field?_complete_of_not_mem (choice : Autofill) (entry : Entry)
    {rules : List (String × TagRule)} (absent : name ∉ rules.map Prod.fst) :
    (entry.complete choice rules).1.field? name = entry.field? name := by
  induction rules generalizing entry with
  | nil => rfl
  | cons first rules ih =>
      rw [List.map_cons, List.mem_cons, not_or] at absent
      rw [complete_cons, ih _ absent.2, field?_completeField_of_ne absent.1]

/-- A tag is decided for good in its own turn, on what the tags before it left. -/
theorem field?_complete_turn (choice : Autofill) (entry : Entry)
    {before after : List (String × TagRule)}
    (distinct : ((before ++ (name, rule) :: after).map Prod.fst).Nodup)
    (allowed : rule.allows (entry.complete choice before).1.context.kind = true) :
    (entry.complete choice (before ++ (name, rule) :: after)).1.field? name =
      (entry.complete choice before).1.decidedField choice name rule := by
  rw [List.map_append, List.map_cons, List.nodup_append, List.nodup_cons] at distinct
  rw [complete_append, complete_cons, field?_complete_of_not_mem choice _ distinct.2.1.1,
    field?_completeField_self allowed]

theorem field?_complete_append (choice : Autofill) (entry : Entry)
    {before after : List (String × TagRule)} (distinct : ((before ++ after).map Prod.fst).Nodup)
    (decided : name ∈ before.map Prod.fst) :
    (entry.complete choice (before ++ after)).1.field? name =
      (entry.complete choice before).1.field? name := by
  rw [List.map_append, List.nodup_append] at distinct
  rw [complete_append, field?_complete_of_not_mem]
  exact fun later => distinct.2.2 name decided name later rfl

/-- Which functions are called depends on the entry at the start only. -/
theorem events_complete (choice : Autofill) (entry : Entry) {rules : List (String × TagRule)}
    (distinct : (rules.map Prod.fst).Nodup) :
    (entry.complete choice rules).2 = rules.flatMap fun (name, rule) =>
      calls choice entry.context.kind name rule (entry.contains name) := by
  induction rules generalizing entry with
  | nil => rfl
  | cons first rules ih =>
      obtain ⟨name, rule⟩ := first
      obtain ⟨fresh, distinct⟩ : name ∉ rules.map Prod.fst ∧ _ := List.nodup_cons.mp distinct
      have later := ih (entry.completeField choice name rule).1 distinct
      rw [context_completeField] at later
      rw [events_complete_cons, later, events_completeField, List.flatMap_cons]
      refine congrArg _ (List.flatMap_congr fun next member => ?_)
      have different : next.1 ≠ name := by
        rintro rfl
        exact fresh (List.mem_map_of_mem member)
      simp only [contains_completeField_of_ne different]

/-- The fields that are new follow the others in the order of the rules. -/
theorem keys_complete (choice : Autofill) (entry : Entry) {rules : List (String × TagRule)}
    (distinct : (rules.map Prod.fst).Nodup) :
    (entry.complete choice rules).1.fields.keys =
      entry.fields.keys ++ (rules.map Prod.fst).filter fun tag =>
        !entry.contains tag && (entry.complete choice rules).1.contains tag := by
  induction rules generalizing entry with
  | nil => simp [complete]
  | cons first rules ih =>
      obtain ⟨name, rule⟩ := first
      obtain ⟨fresh, distinct⟩ : name ∉ rules.map Prod.fst ∧ _ := List.nodup_cons.mp distinct
      have final :
          ((entry.completeField choice name rule).1.complete choice rules).1.contains name =
            (entry.completeField choice name rule).1.contains name :=
        congrArg Option.isSome (field?_complete_of_not_mem choice _ fresh)
      -- The later names are others, so it does not matter to them that this one is set.
      have others : (rules.map Prod.fst).filter (fun tag =>
            !(entry.completeField choice name rule).1.contains tag &&
              ((entry.completeField choice name rule).1.complete choice rules).1.contains tag) =
          (rules.map Prod.fst).filter fun tag =>
            !entry.contains tag &&
              ((entry.completeField choice name rule).1.complete choice rules).1.contains tag := by
        refine List.filter_congr fun tag member => ?_
        have different : tag ≠ name := by
          rintro rfl
          exact fresh member
        rw [contains_completeField_of_ne different]
      rw [complete_cons, ih _ distinct, others, keys_completeField, List.append_assoc,
        List.map_cons, List.filter_cons, final]
      split <;> rfl

/-- Nothing but the fields of an entry is computed. -/
theorem exists_complete_eq (choice : Autofill) (entry : Entry) (rules : List (String × TagRule)) :
    ∃ table : Table FieldValue,
      (entry.complete choice rules).1 = { entry with fields := table } := by
  induction rules generalizing entry with
  | nil => exact ⟨entry.fields, rfl⟩
  | cons first rules ih =>
      obtain ⟨name, rule⟩ := first
      obtain ⟨table, same⟩ := ih (entry.completeField choice name rule).1
      refine ⟨table, ?_⟩
      rw [complete_cons, same]
      cases allowed : rule.allows entry.context.kind with
      | false => rw [completeField_of_not_allows allowed]
      | true =>
          rw [completeField_of_allows allowed]
          cases entry.decidedField choice name rule with
          | none => rfl
          | some value => rfl

end Entry

end DocComments
