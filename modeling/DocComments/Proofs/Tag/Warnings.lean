import DocComments.Proofs.Tag.Line
import DocComments.Proofs.Tag.Precedence
import DocComments.Proofs.Tag.Values

/-!
# The warnings of a report

Warnings are given while lines are read, and for posters behind the first one. What a line gives is
known from the line and the entry before it (`LineOutcome`), and functions that compute fields give
none (`isOfLine_of_mem_finish`). So the warnings of a report are those of its comments, each read
alone, with one more behind every further poster (`read_warnings`).
-/

namespace DocComments

/-- Whether an event belongs to a line: its content is read, or a warning is given. All other events
are calls of functions that compute fields. -/
def Event.isOfLine : Event → Bool
  | .parse _ _ | .warn _ => true
  | .fallback _ | .autofill _ => false

theorem Event.filterMap_warning?_filter (events : List Event) :
    (events.filter isOfLine).filterMap warning? = events.filterMap warning? := by
  rw [List.filterMap_filter]
  refine List.filterMap_congr fun event _ => ?_
  cases event <;> rfl

/-! ### What a line gives -/

/-- What it comes to when the entry `before` takes in a line and becomes `after`. One of the four
cases applies: the line is no tag line, no rule can read its tag, the tag is not allowed on the
comment, or its content is read. -/
structure LineOutcome (registry : Registry) (role : Role) (kind line : String)
    (before after : Entry) (events : List Event) : Prop where
  plain : TagLine.read? line = none → events = [] ∧ after.fields = before.fields
  unknown : ∀ tag, TagLine.read? line = some tag →
    (registry.rule? (registry.canonicalName tag.name)).bind TagRule.parse = none →
    events = [.warn (.unknown (registry.canonicalName tag.name))] ∧ after = before
  notAllowed : ∀ tag rule, TagLine.read? line = some tag →
    registry.rule? (registry.canonicalName tag.name) = some rule → rule.parse.isSome = true →
    role = .normal → rule.allows kind = false →
    events = [.warn (.notAllowed (registry.canonicalName tag.name) kind)] ∧ after = before
  called : ∀ tag rule parse, TagLine.read? line = some tag →
    registry.CanRead role kind (registry.canonicalName tag.name) rule parse →
    events = .parse (registry.canonicalName tag.name) tag.content ::
      if (parse tag.content).any
        (FieldValue.refuses rule.repeatable (before.field? (registry.canonicalName tag.name)))
      then [.warn (.duplicate (registry.canonicalName tag.name))] else []
  trimmed : ∀ tag, TagLine.read? line = some tag →
    ∃ rest, line.toList = '@' :: (tag.name.toList ++ rest) ∧
      tag.content.toList = TagLine.trimBlanks rest

theorem lineOutcome_applyLine (registry : Registry) (role : Role) (line : String) (entry : Entry) :
    let taken := entry.applyLine line (registry.readLine role entry.context.kind line)
    LineOutcome registry role entry.context.kind line entry taken.1 taken.2 where
  plain plain := by
    rw [(Registry.Reads.text plain).readLine_eq]
    exact ⟨rfl, rfl⟩
  unknown tag splits unreadable := by
    rw [(Registry.Reads.unknown splits unreadable).readLine_eq]
    exact ⟨rfl, rfl⟩
  notAllowed tag rule splits known readable normal refused := by
    obtain ⟨parse, reader⟩ := Option.isSome_iff_exists.mp readable
    rw [(Registry.Reads.notAllowed splits known reader normal refused).readLine_eq]
    exact ⟨rfl, rfl⟩
  called tag rule parse splits reads := by
    rw [reads.readLine_eq splits rfl]
    cases parse tag.content with
    | none => rfl
    | some value =>
        rw [Entry.applyLine_value, Option.any_some]
        split <;> rfl
  trimmed tag splits := TagLine.exists_of_read? splits

theorem isOfLine_of_mem_applyLine {entry : Entry} {line : String} {reading : LineReading}
    {event : Event} (member : event ∈ (entry.applyLine line reading).2) :
    event.isOfLine = true := by
  have all : (entry.applyLine line reading).2.all Event.isOfLine = true := by
    cases reading with
    | text => rfl
    | unknown name => rfl
    | notAllowed name => rfl
    | value name content repeatable read =>
        cases read with
        | none => rfl
        | some value =>
            rw [Entry.applyLine_value]
            split <;> rfl
  exact List.all_eq_true.mp all event member

theorem Registry.isOfLine_of_mem_ownEntry {registry : Registry} {comment : Comment} {event : Event}
    (member : event ∈ (registry.ownEntry comment).2) : event.isOfLine = true := by
  have every (entry : Entry) (lines : List String) :
      ∀ event ∈ (entry.readLines registry comment.role lines).2, event.isOfLine = true := by
    induction lines using List.reverseRecOn with
    | nil => exact nofun
    | append_singleton lines line ih =>
        intro event member
        rw [Entry.readLines_concat] at member
        rcases List.mem_append.mp member with earlier | last
        · exact ih event earlier
        · exact isOfLine_of_mem_applyLine last
  exact every (.ofComment comment) comment.lines event member

/-- A comment that ends after some of its lines. -/
def Comment.upTo (comment : Comment) (count : Nat) : Comment :=
  { comment with lines := comment.lines.take count }

/-- A comment gives the events of its lines, one list for each line and in their order. -/
theorem Registry.exists_lineOutcomes (registry : Registry) (comment : Comment) :
    ∃ given : List (List Event), given.length = comment.lines.length ∧
      (registry.ownEntry comment).2 = given.flatten ∧
      ∀ index line events, comment.lines[index]? = some line → given[index]? = some events →
        LineOutcome registry comment.role comment.context.kind line
          (registry.ownEntry (comment.upTo index)).1
          (registry.ownEntry (comment.upTo (index + 1))).1 events := by
  obtain ⟨lines, role, range, context⟩ := comment
  induction lines using List.reverseRecOn with
  | nil => exact ⟨[], rfl, rfl, nofun⟩
  | append_singleton lines line ih =>
      obtain ⟨given, size, flat, outcomes⟩ := ih
      let shorter : Comment := ⟨lines, role, range, context⟩
      let comment : Comment := ⟨lines ++ [line], role, range, context⟩
      let last := (registry.ownEntry shorter).1.applyLine line
        (registry.readLine role context.kind line)
      have whole : registry.ownEntry comment =
          (last.1, (registry.ownEntry shorter).2 ++ last.2) := registry.ownEntry_concat shorter line
      have inside {count : Nat} (within : count ≤ lines.length) :
          comment.upTo count = shorter.upTo count := by
        rw [Comment.upTo, List.take_append_of_le_length within, Comment.upTo]
      refine ⟨given ++ [last.2], ?_, ?_, ?_⟩
      · simp only [List.length_append, List.length_singleton, size]
      · rw [whole, flat, List.flatten_append, List.flatten_singleton]
      · intro index other events here gives
        rcases Nat.lt_trichotomy index lines.length with earlier | rfl | beyond
        · rw [inside (Nat.le_of_lt earlier), inside earlier]
          refine outcomes index other events ?_ ?_
          · rw [← here, List.getElem?_append_left earlier]
          · rw [← gives, List.getElem?_append_left (size ▸ earlier)]
        · have all : shorter.upTo lines.length = shorter := by
            rw [Comment.upTo, List.take_length]
          have more : comment.upTo (lines.length + 1) = comment := by
            rw [Comment.upTo, List.take_of_length_le (by simp [comment])]
          have same : line = other := by simpa using here
          have added : last.2 = events := by simpa [← size] using gives
          have outcome := lineOutcome_applyLine registry role line (registry.ownEntry shorter).1
          rw [(registry.grows_ownEntry shorter).context_eq] at outcome
          rw [inside (Nat.le_refl _), all, more, whole, ← same, ← added]
          exact outcome
        · have bound := (List.getElem?_eq_some_iff.mp here).1
          rw [List.length_append, List.length_singleton] at bound
          omega

/-! ### Registries that read alike -/

/-- The part of a rule that says how lines are read, without the functions that compute fields. -/
def TagRule.reading (rule : TagRule) : TagRule := { rule with fallback := none, autofill := none }

namespace Registry

variable {first second : Registry}

/-- Two registries with the same aliases, and with rules that differ in nothing but the functions
that compute fields. -/
structure ReadsAlike (first second : Registry) : Prop where
  names : ∀ name, first.canonicalName name = second.canonicalName name
  rules : ∀ name, (first.rule? name).map TagRule.reading = (second.rule? name).map TagRule.reading

theorem ReadsAlike.readLine_eq (alike : ReadsAlike first second) (role : Role)
    (kind line : String) : first.readLine role kind line = second.readLine role kind line := by
  unfold readLine
  cases TagLine.read? line with
  | none => rfl
  | some tag =>
      dsimp only
      rw [alike.names tag.name]
      have rules := alike.rules (second.canonicalName tag.name)
      cases known : first.rule? (second.canonicalName tag.name) with
      | none =>
          rw [known, Option.map_none, eq_comm, Option.map_eq_none_iff] at rules
          rw [rules]
      | some rule =>
          rw [known, Option.map_some, eq_comm, Option.map_eq_some_iff] at rules
          obtain ⟨other, same, alike⟩ := rules
          simp only [TagRule.reading, TagRule.mk.injEq] at alike
          obtain ⟨parse, -, -, kinds, repeatable⟩ := alike
          have allows : other.allows kind = rule.allows kind := by
            rw [TagRule.allows, kinds, TagRule.allows]
          rw [same]
          dsimp only
          rw [parse, allows, repeatable]

theorem ReadsAlike.ownEntry_eq (alike : ReadsAlike first second) (comment : Comment) :
    first.ownEntry comment = second.ownEntry comment := by
  have every (entry : Entry) (lines : List String) :
      entry.readLines first comment.role lines = entry.readLines second comment.role lines := by
    induction lines using List.reverseRecOn with
    | nil => rfl
    | append_singleton lines line ih =>
        rw [Entry.readLines_concat, Entry.readLines_concat, ih, alike.readLine_eq]
  exact every (.ofComment comment) comment.lines

end Registry

/-! ### The warnings of all comments -/

namespace TagReader

variable {reader : TagReader}

/-- Finishing an entry reads no lines and gives no warnings. -/
theorem isOfLine_of_mem_finish {poster : Option Entry} {own : Entry} {event : Event}
    (member : event ∈ (reader.finish poster own).2) : event.isOfLine = false := by
  rw [events_finish, List.mem_flatMap] at member
  obtain ⟨⟨name, rule⟩, -, called⟩ := member
  simp only [Entry.calls] at called
  split at called
  · rcases List.mem_append.mp called with fallback | autofill
    · split at fallback
      · rw [List.mem_singleton.mp fallback]
        rfl
      · cases fallback
    · split at autofill
      · rw [List.mem_singleton.mp autofill]
        rfl
      · cases autofill
  · cases called

theorem filter_isOfLine_finish (poster : Option Entry) (own : Entry) :
    (reader.finish poster own).2.filter Event.isOfLine = [] := by
  apply List.filter_eq_nil_iff.mpr
  intro event member
  rw [isOfLine_of_mem_finish member]
  exact Bool.false_ne_true

theorem filter_isOfLine_ownEntry (registry : Registry) (comment : Comment) :
    (registry.ownEntry comment).2.filter Event.isOfLine = (registry.ownEntry comment).2 :=
  List.filter_eq_self.mpr fun _ member => Registry.isOfLine_of_mem_ownEntry member

/-- The last of some comments gives the events of its lines, and a warning if it is a poster and not
the first one. -/
theorem filter_isOfLine_readFrom_single (reader : TagReader) (poster : Option Entry)
    (comment : Comment) :
    (reader.readFrom poster [comment]).2.filter Event.isOfLine =
      (reader.registry.ownEntry comment).2 ++
        if comment.isPoster && poster.isSome then [.warn .multiplePosters] else [] := by
  cases role : comment.role with
  | normal =>
      rw [events_readFrom_cons_normal _ role, List.filter_append, List.filter_append,
        filter_isOfLine_ownEntry, filter_isOfLine_finish]
      simp [Comment.isPoster, role, readFrom]
  | poster =>
      rw [events_readFrom_cons_poster _ role, List.filter_append, List.filter_append,
        filter_isOfLine_ownEntry]
      cases poster with
      | none => simp [Comment.isPoster, role, readFrom]
      | some first => simp [Comment.isPoster, role, readFrom, Event.isOfLine]

theorem filter_isOfLine_read_single (reader : TagReader) (comment : Comment) :
    (reader.read [comment]).events.filter Event.isOfLine =
      (reader.registry.ownEntry comment).2 := by
  have single := reader.filter_isOfLine_readFrom_single none comment
  rw [Option.isSome_none, Bool.and_false, if_neg Bool.false_ne_true, List.append_nil] at single
  exact single

theorem warnings_read_single (reader : TagReader) (comment : Comment) :
    (reader.read [comment]).warnings =
      (reader.registry.ownEntry comment).2.filterMap Event.warning? := by
  rw [Report.warnings, ← Event.filterMap_warning?_filter, filter_isOfLine_read_single]

theorem warnings_readFrom_single (reader : TagReader) (poster : Option Entry) (comment : Comment) :
    (reader.readFrom poster [comment]).2.filterMap Event.warning? =
      (reader.read [comment]).warnings ++
        if comment.isPoster && poster.isSome then [.multiplePosters] else [] := by
  rw [← Event.filterMap_warning?_filter, filter_isOfLine_readFrom_single, List.filterMap_append,
    warnings_read_single]
  split <;> rfl

theorem isSome_posterAfter (reader : TagReader) (comments : List Comment) :
    (reader.posterAfter none comments).isSome = comments.any Comment.isPoster := by
  rw [posterAfter, Option.none_or, Option.isSome_map, List.isSome_find?]

/-- One more comment gives its own warnings, and one more if it is a poster behind another. -/
theorem warnings_read_concat (reader : TagReader) (comments : List Comment) (comment : Comment) :
    (reader.read (comments ++ [comment])).warnings =
      (reader.read comments).warnings ++ ((reader.read [comment]).warnings ++
        if comment.isPoster && comments.any Comment.isPoster then [.multiplePosters] else []) := by
  have events := reader.events_readFrom_append none comments [comment]
  have warnings := congrArg (List.filterMap Event.warning?) events
  rw [List.filterMap_append, warnings_readFrom_single, isSome_posterAfter] at warnings
  exact warnings

/-- The warnings of a report are those of the comments read alone, in order, with one more behind
every poster but the first. -/
theorem warnings_read (reader : TagReader) (comments : List Comment) :
    (reader.read comments).warnings = comments.zipIdx.flatMap fun (comment, index) =>
      (reader.read [comment]).warnings ++
        if comment.isPoster && (comments.take index).any Comment.isPoster
        then [.multiplePosters] else [] := by
  induction comments using List.reverseRecOn with
  | nil => rfl
  | append_singleton comments comment ih =>
      -- What stands before one of the earlier comments is not changed by the last one.
      have earlier : ∀ other index, (other, index) ∈ comments.zipIdx →
          (comments ++ [comment]).take index = comments.take index := by
        intro other index member
        have inside : index < comments.length := by
          simpa using List.snd_lt_of_mem_zipIdx member
        exact List.take_append_of_le_length (Nat.le_of_lt inside)
      rw [warnings_read_concat, ih, List.zipIdx_append, List.flatMap_append]
      congr 1
      · apply List.flatMap_congr
        rintro ⟨other, index⟩ member
        dsimp only
        rw [earlier other index member]
      · simp

theorem filter_isSome_warning? (events : List Event) :
    events.filter (·.warning?.isSome) = (events.filterMap Event.warning?).map .warn := by
  induction events with
  | nil => rfl
  | cons event events ih =>
      cases event with
      | warn warning => exact congrArg (.warn warning :: ·) ih
      | parse name content => exact ih
      | fallback name => exact ih
      | autofill name => exact ih

/-- The warnings of a report are those of its comments read alone, with one more behind every poster
but the first, and they are given in this order. A comment gives the warnings of its lines: at most
one for a tag line and none for another, as `LineOutcome` says, and the functions that compute
fields make no difference to them. -/
theorem read_warnings (reader : TagReader) (comments : List Comment) :
    let report := reader.read comments
    (report.warnings = comments.zipIdx.flatMap fun (comment, index) =>
      (reader.read [comment]).warnings ++
        if comment.isPoster && (comments.take index).any Comment.isPoster
        then [.multiplePosters] else []) ∧
    report.events.filter (·.warning?.isSome) = report.warnings.map .warn ∧
    (∀ comment, ∃ given : List (List Event), given.length = comment.lines.length ∧
      (reader.read [comment]).events.filter Event.isOfLine = given.flatten ∧
      (reader.read [comment]).warnings = given.flatten.filterMap Event.warning? ∧
      ∀ index line events, comment.lines[index]? = some line → given[index]? = some events →
        LineOutcome reader.registry comment.role comment.context.kind line
          (reader.registry.ownEntry (comment.upTo index)).1
          (reader.registry.ownEntry (comment.upTo (index + 1))).1 events) ∧
    ∀ other : TagReader, other.registry.ReadsAlike reader.registry →
      (other.read comments).warnings = report.warnings := by
  intro report
  refine ⟨warnings_read reader comments, filter_isSome_warning? report.events, ?_, ?_⟩
  · intro comment
    obtain ⟨given, size, flat, outcomes⟩ := reader.registry.exists_lineOutcomes comment
    refine ⟨given, size, ?_, ?_, outcomes⟩
    · rw [filter_isOfLine_read_single, flat]
    · rw [warnings_read_single, flat]
  · intro other alike
    have single (comment : Comment) :
        (other.read [comment]).warnings = (reader.read [comment]).warnings := by
      rw [warnings_read_single, warnings_read_single, alike.ownEntry_eq]
    rw [warnings_read other, warnings_read reader]
    simp only [single]

theorem read_warnings_further_poster :
    let text : String → Option Value := fun content => some (.string content)
    let since : TagRule := { parse := some text, repeatable := false }
    let param : TagRule :=
      { parse := some text, kinds := some ["function"],
        autofill := some fun entry => some (.scalar (.string entry.context.kind)) }
    let registry : Registry := { rules := .ofList [("since", since), ("param", param)] }
    let bare : Registry := { rules := .ofList [("since", since), ("param", param.reading)] }
    let reader := TagReader.new registry (.all true)
    let other := TagReader.new bare (.all false)
    let first : Comment := { lines := ["@none"], role := .poster, context := {} }
    let second : Comment := { lines := ["@since 1", "@since 2"], role := .poster, context := {} }
    let comment : Comment := { lines := ["text", "@param x"], context := { kind := "class" } }
    let comments := [first, comment, second, comment]
    bare.ReadsAlike registry ∧
      (reader.read comments).warnings =
        [.unknown "none", .notAllowed "param" "class", .duplicate "since", .multiplePosters,
          .notAllowed "param" "class"] ∧
      (other.read comments).warnings = (reader.read comments).warnings := by
  intro text since param registry bare reader other first second comment comments
  have alike : bare.ReadsAlike registry := by
    refine ⟨fun name => rfl, fun name => ?_⟩
    simp only [registry, bare, Registry.rule?, Table.ofList, List.foldl_cons, List.foldl_nil,
      Table.get?_insert]
    split
    · rfl
    · split <;> rfl
  obtain ⟨stream, -, -, unchanged⟩ := reader.read_warnings comments
  exact ⟨alike, stream.trans (by decide +kernel), unchanged other alike⟩

end TagReader

end DocComments
