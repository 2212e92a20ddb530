import SwitchQos.Config.Shape
import SwitchQos.Proofs.Json.Reading
import SwitchQos.Proofs.Schema.Paths

namespace SwitchQos

/-! What tables, profiles and scheduler trees look like in a document: for each of them,
which fields are written, what stands for their values, and what holds where a field is
left out. Lists are written as arrays, in the same order. The readers are exact: a part of
this shape is read as what it stands for, and no other part is read. -/

theorem ShapeFault.fitting_eq_ok_iff {Value : Type} {value? : Option Value}
    {value : Value} :
    fitting value? = .ok value ↔ value? = some value := by
  cases value? <;> simp [fitting]

/-! ## Globals -/

/-- The name, or an object that has the name as its only key and nothing under it. -/
def MapType.Written (written : Json) (mapType : MapType) : Prop :=
  written.IsText mapType.name ∨ written = .object [(some mapType.name, .null)] ∨
    written = .object [(some mapType.name, .object [])]

theorem MapType.reads_ofJson? : Json.Reads ofJson? Written := by
  intro written mapType
  unfold ofJson? Written Json.IsText
  split
  · rw [ofName?_eq_some_iff, eq_comm]
    simp
  · rw [ofName?_eq_some_iff, eq_comm]
    simp
  · rw [ofName?_eq_some_iff, eq_comm]
    simp
  · rename_i noText noNull noObject
    simp only [reduceCtorEq, false_iff]
    rintro (isText | isNull | isObject)
    · exact noText _ isText
    · exact noNull _ isNull
    · exact noObject _ isObject

def ConfigValue.Written (written : Json) : ConfigValue → Prop
  | .int number => written.IsInt64 number
  | .uint number => written.IsInteger number ∧ countOfBits 63 ≤ number
  | .text content => written.IsText content
  | .list items => Json.Lists Json.IsInt64 written items

namespace ConfigValue

private theorem ofJson?_number_eq_some_iff {numeral : Numeral} {value : ConfigValue} :
    ofJson? (.number numeral) = some value ↔ Written (.number numeral) value := by
  rw [ofJson?, Option.map_eq_some_iff]
  constructor
  · rintro ⟨number, isInt, rfl⟩
    split
    · exact ⟨⟨numeral, rfl, isInt⟩, Numeral.le_of_int? isInt, ‹_›⟩
    · have natural : ((number.toNat : Nat) : Int) = number :=
        Int.toNat_of_nonneg (by omega)
      exact ⟨⟨numeral, rfl, natural.symm ▸ isInt⟩, by omega⟩
  · intro isWritten
    cases value with
    | int number =>
        obtain ⟨⟨_, same, isInt⟩, -, small⟩ := isWritten
        cases same
        exact ⟨number, isInt, if_pos small⟩
    | uint number =>
        obtain ⟨⟨_, same, isInt⟩, large⟩ := isWritten
        cases same
        exact ⟨number, isInt, if_neg (by omega)⟩
    | text content => cases isWritten
    | list items =>
        obtain ⟨_, isArray, -⟩ := isWritten
        cases isArray

theorem reads_ofJson? : Json.Reads ofJson? Written := by
  intro written value
  cases written with
  | number numeral => exact ofJson?_number_eq_some_iff
  | text content =>
      cases value <;>
        simp [ofJson?, Written, Json.IsInt64, Json.IsInteger, Json.IsText, Json.Lists]
  | array items =>
      cases value with
      | list numbers =>
          have reads := Json.reads_int64.items (.array items) numbers
          simpa [ofJson?, Written, Json.items?] using reads
      | int | uint | text =>
          simp [ofJson?, Written, Json.IsInt64, Json.IsInteger, Json.IsText]
  | null | bool | object =>
      cases value <;>
        simp [ofJson?, Written, Json.IsInt64, Json.IsInteger, Json.IsText, Json.Lists]

def NamedWritten (written : Json) (values : Directory String ConfigValue) : Prop :=
  ∃ rows, Json.ListsMembers
    (fun member row => member.1 = some row.1 ∧ Written member.2 row.2) written rows ∧
    values = Directory.ofRows rows

private theorem row_eq_some_iff {member : JsonText × Json} {row : String × ConfigValue} :
    (∃ named, member.1.map (fun name => (name, member.2)) = some named ∧
      (ofJson? named.2).map (fun value => (named.1, value)) = some row) ↔
      member.1 = some row.1 ∧ Written member.2 row.2 := by
  simp only [Option.map_eq_some_iff]
  constructor
  · rintro ⟨_, ⟨name, isName, rfl⟩, value, isValue, rfl⟩
    exact ⟨isName, (reads_ofJson? _ _).mp isValue⟩
  · rintro ⟨isName, isValue⟩
    exact ⟨_, ⟨_, isName, rfl⟩, _, (reads_ofJson? _ _).mpr isValue, rfl⟩

theorem reads_namedOfJson? : Json.Reads namedOfJson? NamedWritten := by
  intro written values
  cases written with
  | object members =>
      simp only [namedOfJson?, Json.namedMembers?, Option.bind_eq_bind,
        Option.bind_eq_some_iff,
        Option.pure_def, Option.some.injEq, Results.mapM_eq_some_iff]
      constructor
      · rintro ⟨named, areNamed, rows, areRows, rfl⟩
        refine ⟨rows, ⟨members, rfl, ?_⟩, rfl⟩
        have related := Results.exists_forall₂_iff.mp ⟨named, areNamed, areRows⟩
        exact related.imp fun _ _ => row_eq_some_iff.mp
      · rintro ⟨rows, ⟨_, same, related⟩, rfl⟩
        cases same
        obtain ⟨named, areNamed, areRows⟩ :=
          Results.exists_forall₂_iff.mpr (related.imp fun _ _ => row_eq_some_iff.mpr)
        exact ⟨named, areNamed, rows, areRows, rfl⟩
  | null | bool | number | text | array =>
      simp [namedOfJson?, NamedWritten, Json.ListsMembers]

end ConfigValue

def EntryNode.Written (written : Json) : EntryNode → Prop
  | .positional values => Json.Lists ConfigValue.Written written values
  | .named values => ConfigValue.NamedWritten written values

theorem EntryNode.reads_ofJson? : Json.Reads ofJson? Written := by
  intro written entry
  cases written with
  | array items =>
      cases entry with
      | positional values =>
          have reads := ConfigValue.reads_ofJson?.items (.array items) values
          simpa [ofJson?, Written, Json.items?] using reads
      | named values =>
          simp [ofJson?, Written, ConfigValue.NamedWritten, Json.ListsMembers]
  | null | bool | number | text | object =>
      cases entry <;>
        simp [ofJson?, Written, Json.Lists, ConfigValue.reads_namedOfJson? _ _]

def MapNode.Written (written : Json) (node : MapNode) : Prop :=
  ∃ fields, written.fields? ["type", "tag", "min", "max", "entries"] = some fields ∧
    fields.Gives "type" MapType.Written node.mapType ∧
    fields.Gives "tag" Json.IsText node.tag ∧
    fields.GivesOr "min" none (Json.MayBeNull Json.IsInt64) node.least ∧
    fields.GivesOr "max" none (Json.MayBeNull Json.IsInt64) node.greatest ∧
    fields.GivesOr "entries" [] (Json.Lists EntryNode.Written) node.entries

theorem MapNode.reads_ofJson? : Json.Reads ofJson? Written := by
  intro written node
  simp only [ofJson?, Option.bind_eq_bind, Option.bind_eq_some_iff, Option.pure_def,
    Option.some.injEq, FieldValues.required?_eq_some_iff MapType.reads_ofJson?,
    FieldValues.required?_eq_some_iff Json.reads_text,
    FieldValues.optional?_eq_some_iff Json.reads_int64.mayBeNull,
    FieldValues.optional?_eq_some_iff EntryNode.reads_ofJson?.items]
  constructor
  · rintro ⟨fields, given, _, isType, _, isTag, _, isLeast, _, isGreatest, _,
      areEntries, rfl⟩
    exact ⟨fields, given, isType, isTag, isLeast, isGreatest, areEntries⟩
  · rintro ⟨fields, given, isType, isTag, isLeast, isGreatest, areEntries⟩
    exact ⟨fields, given, _, isType, _, isTag, _, isLeast, _, isGreatest, _,
      areEntries, rfl⟩

def ProfileNode.Written (written : Json) (node : ProfileNode) : Prop :=
  ∃ fields, written.fields? ["tag", "attrs"] = some fields ∧
    fields.Gives "tag" Json.IsText node.tag ∧
    fields.GivesOr "attrs" .empty ConfigValue.NamedWritten node.attrs

theorem ProfileNode.reads_ofJson? : Json.Reads ofJson? Written := by
  intro written node
  simp only [ofJson?, Option.bind_eq_bind, Option.bind_eq_some_iff, Option.pure_def,
    Option.some.injEq, FieldValues.required?_eq_some_iff Json.reads_text,
    FieldValues.optional?_eq_some_iff ConfigValue.reads_namedOfJson?]
  constructor
  · rintro ⟨fields, given, _, isTag, _, areAttrs, rfl⟩
    exact ⟨fields, given, isTag, areAttrs⟩
  · rintro ⟨fields, given, isTag, areAttrs⟩
    exact ⟨fields, given, _, isTag, _, areAttrs, rfl⟩

def GlobalsNode.Written (written : Json) (node : GlobalsNode) : Prop :=
  ∃ fields, written.fields? ["maps", "scheduler-profiles"] = some fields ∧
    fields.GivesOr "maps" [] (Json.Lists MapNode.Written) node.maps ∧
    fields.GivesOr "scheduler-profiles" [] (Json.Lists ProfileNode.Written) node.profiles

theorem GlobalsNode.reads_ofJson? : Json.Reads ofJson? Written := by
  intro written node
  simp only [ofJson?, Option.bind_eq_bind, Option.bind_eq_some_iff, Option.pure_def,
    Option.some.injEq, FieldValues.optional?_eq_some_iff MapNode.reads_ofJson?.items,
    FieldValues.optional?_eq_some_iff ProfileNode.reads_ofJson?.items]
  constructor
  · rintro ⟨fields, given, _, areMaps, _, areProfiles, rfl⟩
    exact ⟨fields, given, areMaps, areProfiles⟩
  · rintro ⟨fields, given, areMaps, areProfiles⟩
    exact ⟨fields, given, _, areMaps, _, areProfiles, rfl⟩

/-! ## Scheduler trees -/

def GroupNode.Written (written : Json) (node : GroupNode) : Prop :=
  ∃ fields, written.fields? ["number", "scheduler-profile", "children"] = some fields ∧
    fields.Gives "number" (Json.IsNat 64) node.number ∧
    fields.GivesOr "scheduler-profile" none (Json.MayBeNull Json.IsText) node.profile ∧
    fields.GivesOr "children" none
      (Json.MayBeNull (Json.Lists (Json.IsNat 64))) node.children

theorem GroupNode.reads_ofJson? : Json.Reads ofJson? Written := by
  intro written node
  simp only [ofJson?, Option.bind_eq_bind, Option.bind_eq_some_iff, Option.pure_def,
    Option.some.injEq, FieldValues.required?_eq_some_iff (Json.reads_nat 64),
    FieldValues.optional?_eq_some_iff Json.reads_text.mayBeNull,
    FieldValues.optional?_eq_some_iff (Json.reads_nat 64).items.mayBeNull]
  constructor
  · rintro ⟨fields, given, _, isNumber, _, isProfile, _, areChildren, rfl⟩
    exact ⟨fields, given, isNumber, isProfile, areChildren⟩
  · rintro ⟨fields, given, isNumber, isProfile, areChildren⟩
    exact ⟨fields, given, _, isNumber, _, isProfile, _, areChildren, rfl⟩

def QueueNode.Written (written : Json) (node : QueueNode) : Prop :=
  ∃ fields, written.fields? ["type", "number", "scheduler-profile"] = some fields ∧
    fields.Gives "type" Json.IsText node.queueType ∧
    fields.Gives "number" (Json.IsNat 32) node.number ∧
    fields.GivesOr "scheduler-profile" none (Json.MayBeNull Json.IsText) node.profile

theorem QueueNode.reads_ofJson? : Json.Reads ofJson? Written := by
  intro written node
  simp only [ofJson?, Option.bind_eq_bind, Option.bind_eq_some_iff, Option.pure_def,
    Option.some.injEq, FieldValues.required?_eq_some_iff Json.reads_text,
    FieldValues.required?_eq_some_iff (Json.reads_nat 32),
    FieldValues.optional?_eq_some_iff Json.reads_text.mayBeNull]
  constructor
  · rintro ⟨fields, given, _, isType, _, isNumber, _, isProfile, rfl⟩
    exact ⟨fields, given, isType, isNumber, isProfile⟩
  · rintro ⟨fields, given, isType, isNumber, isProfile⟩
    exact ⟨fields, given, _, isType, _, isNumber, _, isProfile, rfl⟩

def SchedulerLevel.Written (written : Json) (level : SchedulerLevel) : Prop :=
  ∃ fields, written.fields? ["level", "leaf", "platform-may-omit", "groups", "queues"] =
      some fields ∧
    fields.Gives "level" (Json.IsNat 32) level.level ∧
    fields.GivesOr "leaf" false Json.IsBool level.leaf ∧
    fields.GivesOr "platform-may-omit" false Json.IsBool level.platformMayOmit ∧
    fields.GivesOr "groups" [] (Json.Lists GroupNode.Written) level.groups ∧
    fields.GivesOr "queues" [] (Json.Lists QueueNode.Written) level.queues

theorem SchedulerLevel.reads_ofJson? : Json.Reads ofJson? Written := by
  intro written level
  simp only [ofJson?, Option.bind_eq_bind, Option.bind_eq_some_iff, Option.pure_def,
    Option.some.injEq, FieldValues.required?_eq_some_iff (Json.reads_nat 32),
    FieldValues.optional?_eq_some_iff Json.reads_bool,
    FieldValues.optional?_eq_some_iff GroupNode.reads_ofJson?.items,
    FieldValues.optional?_eq_some_iff QueueNode.reads_ofJson?.items]
  constructor
  · rintro ⟨fields, given, _, isLevel, _, isLeaf, _, mayOmit, _, areGroups,
      _, areQueues, rfl⟩
    exact ⟨fields, given, isLevel, isLeaf, mayOmit, areGroups, areQueues⟩
  · rintro ⟨fields, given, isLevel, isLeaf, mayOmit, areGroups, areQueues⟩
    exact ⟨fields, given, _, isLevel, _, isLeaf, _, mayOmit, _, areGroups,
      _, areQueues, rfl⟩

def SchedulerTree.Written (written : Json) (tree : SchedulerTree) : Prop :=
  ∃ fields, written.fields? ["levels"] = some fields ∧
    fields.Gives "levels" (Json.Lists SchedulerLevel.Written) tree.levels

theorem SchedulerTree.reads_ofJson? : Json.Reads ofJson? Written := by
  intro written tree
  simp only [ofJson?, Option.bind_eq_bind, Option.bind_eq_some_iff, Option.pure_def,
    Option.some.injEq, FieldValues.required?_eq_some_iff
      SchedulerLevel.reads_ofJson?.items]
  constructor
  · rintro ⟨fields, given, _, areLevels, rfl⟩
    exact ⟨fields, given, areLevels⟩
  · rintro ⟨fields, given, areLevels⟩
    exact ⟨fields, given, _, areLevels, rfl⟩

end SwitchQos
