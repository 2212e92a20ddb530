import Mathlib.Data.List.Forall2
import Mathlib.Data.List.Nodup
import SwitchQos.MapEntry.Expansion
import SwitchQos.Proofs.Directory
import SwitchQos.Proofs.Results
import SwitchQos.Proofs.Text.Number

namespace SwitchQos

/-! When an authored entry can be expanded, and to what. An entry is seen as the texts
that it gives for fields; whether it gives them by position or by name makes no
difference. Without the wildcard it stands for itself, and with it for one entry per
integer of the range, all of them different. -/

namespace MapType

theorem fields_nodup (mapType : MapType) : mapType.fields.Nodup := by
  cases mapType <;> simp [fields, keyFields, valueFields]

theorem mem_fields_of_mem_keyFields {mapType : MapType} {field : String}
    (isKey : field ∈ mapType.keyFields) : field ∈ mapType.fields :=
  List.mem_append_left _ isKey

theorem mem_fields_of_mem_required {mapType : MapType} {arity : EntryArity}
    {field : String} (isRequired : field ∈ arity.required mapType) :
    field ∈ mapType.fields := by
  cases arity with
  | full => exact isRequired
  | keys => exact mem_fields_of_mem_keyFields isRequired

end MapType

/-! ## Ranges -/

namespace IntRange

variable {range : IntRange}

theorem length_values : range.values.length =
    (range.greatest - range.least + 1).toNat := by
  rw [values, List.length_map, List.length_range]

theorem getElem_values {offset : Nat} (inRange : offset < range.values.length) :
    range.values[offset] = range.least + offset := by
  simp [values]

theorem nodup_values : range.values.Nodup := by
  refine List.Nodup.map (fun left right same => ?_) List.nodup_range
  omega

end IntRange

/-! ## Texts for fields -/

namespace AuthoredEntry

variable {entry : AuthoredEntry} {mapType : MapType} {range : Option IntRange}
  {arity : EntryArity}

def text? (entry : AuthoredEntry) (mapType : MapType) (field : String) : Option String :=
  match entry with
  | .positional texts => texts[mapType.fields.idxOf field]?
  | .named texts => texts.get? field

def given (entry : AuthoredEntry) (mapType : MapType) : EntryFields :=
  mapType.fields.filterMap fun field =>
    (entry.text? mapType field).map fun text => (field, text)

def wildcardFields (entry : AuthoredEntry) (mapType : MapType) : List String :=
  mapType.fields.filter fun field => entry.text? mapType field = some wildcard

/-- There is a field for each text. -/
def Suits (entry : AuthoredEntry) (mapType : MapType) : Prop :=
  match entry with
  | .positional texts => texts.length ≤ mapType.fields.length
  | .named texts => ∀ field ∈ texts.keys, field ∈ mapType.fields

theorem Suits.mem_fields (suits : entry.Suits mapType) {field text : String}
    (found : entry.text? mapType field = some text) : field ∈ mapType.fields := by
  cases entry with
  | positional texts =>
      have before : mapType.fields.idxOf field < texts.length :=
        (List.getElem?_eq_some_iff.mp found).1
      exact List.idxOf_lt_length_iff.mp (Nat.lt_of_lt_of_le before suits)
  | named texts =>
      refine suits field (Directory.mem_keys_iff.mpr ?_)
      rw [text?] at found
      rw [found]
      exact Option.some_ne_none text

private theorem zip_eq_filterMap {fields texts : List String} (distinct : fields.Nodup) :
    fields.zip texts = fields.filterMap fun field =>
      texts[fields.idxOf field]?.map fun text => (field, text) := by
  induction fields generalizing texts with
  | nil => rfl
  | cons field rest induction =>
      rw [List.nodup_cons] at distinct
      cases texts with
      | nil => simp
      | cons text others =>
          have first : (text :: others)[(field :: rest).idxOf field]? =
            some text := by simp
          have later : ∀ other ∈ rest, (text :: others)[(field :: rest).idxOf other]? =
              others[rest.idxOf other]? := by
            intro other member
            have different : field ≠ other := by
              rintro rfl
              exact distinct.1 member
            simp [List.idxOf_cons_ne rest different]
          rw [List.zip_cons_cons, List.filterMap_cons, first, induction distinct.2]
          refine congrArg (List.cons _) (List.filterMap_congr fun other member => ?_)
          rw [later other member]

theorem resolve_eq_ok_iff {fields : EntryFields} :
    entry.resolve mapType = .ok fields ↔ entry.Suits mapType ∧
    fields = entry.given mapType := by
  cases entry with
  | positional texts =>
      have paired : mapType.fields.zip texts = given (.positional texts) mapType :=
        zip_eq_filterMap mapType.fields_nodup
      rw [resolve, Results.refusal_eq_ok_iff, paired, Except.ok.injEq,
        Nat.not_lt, eq_comm]
      rfl
  | named texts =>
      rw [resolve]
      split
      · rename_i field found
        have member := List.mem_of_find?_eq_some found
        have unknown : field ∉ mapType.fields := by simpa using List.find?_some found
        simp only [reduceCtorEq, false_iff, not_and]
        exact fun suits => absurd (suits field member) unknown
      · rename_i none
        have suits : Suits (.named texts) mapType := by
          intro field member
          simpa using List.find?_eq_none.mp none field member
        rw [and_iff_right suits, Except.ok.injEq, eq_comm]
        rfl

theorem names_given_sublist (entry : AuthoredEntry) (mapType : MapType) :
    ((entry.given mapType).map (·.1)).Sublist mapType.fields := by
  rw [given]
  induction mapType.fields with
  | nil => exact .slnil
  | cons field rest induction =>
      cases found : entry.text? mapType field with
      | none => simpa [found] using induction.cons field
      | some text => simpa [found] using induction

theorem mem_given_iff {field text : String} :
    (field, text) ∈ entry.given mapType ↔
      field ∈ mapType.fields ∧ entry.text? mapType field = some text := by
  simp only [given, List.mem_filterMap, Option.map_eq_some_iff, Prod.mk.injEq]
  constructor
  · rintro ⟨_, declared, _, found, rfl, rfl⟩
    exact ⟨declared, found⟩
  · rintro ⟨declared, found⟩
    exact ⟨field, declared, text, found, rfl, rfl⟩

theorem wildcards_given :
    (entry.given mapType).wildcards = entry.wildcardFields mapType := by
  rw [given, wildcardFields, EntryFields.wildcards]
  induction mapType.fields with
  | nil => rfl
  | cons field rest induction =>
      cases found : entry.text? mapType field with
      | none => simpa [found] using induction
      | some text =>
          by_cases isWildcard : text =
            wildcard <;> simpa [found, isWildcard] using induction

theorem missing?_given_eq_none_iff {required : List String}
    (declared : ∀ field ∈ required, field ∈ mapType.fields) :
    (entry.given mapType).missing? required = none ↔
      ∀ field ∈ required, ∃ text, entry.text? mapType field = some text := by
  rw [EntryFields.missing?, List.find?_eq_none]
  refine forall₂_congr fun field member => ?_
  rw [decide_eq_true_eq, not_not, List.mem_map]
  constructor
  · rintro ⟨row, isGiven, rfl⟩
    exact ⟨row.2, (mem_given_iff.mp isGiven).2⟩
  · rintro ⟨text, found⟩
    exact ⟨(field, text), mem_given_iff.mpr ⟨declared field member, found⟩, rfl⟩

/-! ## Expanding -/

/-- Nothing but a text that is the wildcard is replaced. -/
theorem fill_given {field text : String} (only : entry.wildcardFields mapType = [field]) :
    (entry.given mapType).fill text =
      (entry.given mapType).map fun row =>
        if row.1 = field then (row.1, text) else row := by
  rw [EntryFields.fill]
  refine List.map_congr_left fun row member => ?_
  rcases mem_given_iff.mp member with ⟨declared, found⟩
  have listed : row.1 ∈ entry.wildcardFields mapType ↔ row.2 = wildcard := by
    rw [wildcardFields, List.mem_filter, found, decide_eq_true_eq, Option.some.injEq]
    exact and_iff_right declared
  have isOnly : row.2 = wildcard ↔ row.1 = field := by
    rw [← listed, only, List.mem_singleton]
  simp only [isOnly]
  split <;> rfl

theorem fill_given_injective {field : String}
    (only : entry.wildcardFields mapType = [field]) :
    Function.Injective (entry.given mapType).fill := by
  intro left right same
  have isWildcard : field ∈ entry.wildcardFields mapType :=
    only ▸ List.mem_singleton_self field
  rw [wildcardFields, List.mem_filter, decide_eq_true_eq] at isWildcard
  have filled :=
    List.map_inj_left.mp same (field, wildcard) (mem_given_iff.mpr isWildcard)
  simpa using filled

theorem expand_eq_ok_iff {entries : List EntryFields} :
    entry.expand mapType range arity = .ok entries ↔
      entry.Suits mapType ∧
        (∀ field ∈ arity.required mapType, ∃ text,
          entry.text? mapType field = some text) ∧
        (entry.wildcardFields mapType = [] ∧ entries = [entry.given mapType] ∨
          ∃ field bounds, entry.wildcardFields mapType = [field] ∧ range = some bounds ∧
            entries = bounds.values.map fun value =>
              (entry.given mapType).fill (toString value)) := by
  simp only [expand, Results.bind_eq_ok_iff, resolve_eq_ok_iff, and_assoc,
    exists_and_left, exists_eq_left]
  refine and_congr_right fun _ => ?_
  have complete := @missing?_given_eq_none_iff entry mapType (arity.required mapType)
    fun _ => MapType.mem_fields_of_mem_required
  cases missing : (entry.given mapType).missing? (arity.required mapType) with
  | some field =>
      have lacks : ¬∀ field ∈ arity.required mapType,
          ∃ text, entry.text? mapType field = some text := by
        rw [← complete, missing]
        exact Option.some_ne_none field
      simp only [reduceCtorEq, false_iff, not_and]
      exact fun gives => absurd gives lacks
  | none =>
      rw [and_iff_right (complete.mp missing)]
      simp only [wildcards_given]
      cases entry.wildcardFields mapType with
      | nil => simp [eq_comm]
      | cons field others =>
          cases others with
          | nil => cases range <;> simp [eq_comm]
          | cons other rest => cases range <;> simp

theorem names_eq_given_of_expand {entries : List EntryFields}
    (expanded : entry.expand mapType range arity = .ok entries) :
    ∀ fields ∈ entries, fields.map (·.1) = (entry.given mapType).map (·.1) := by
  intro fields member
  rcases (expand_eq_ok_iff.mp expanded).2.2 with ⟨-, rfl⟩ | ⟨field, bounds, -, -, rfl⟩
  · rw [List.mem_singleton.mp member]
  · rcases List.mem_map.mp member with ⟨value, -, rfl⟩
    rw [EntryFields.fill, List.map_map]
    rfl

theorem mem_of_expand {entries : List EntryFields}
    (expanded : entry.expand mapType range arity = .ok entries) {field text : String}
    (found : entry.text? mapType field = some text) (plain : text ≠ wildcard) :
    ∀ fields ∈ entries, (field, text) ∈ fields := by
  intro fields member
  rcases expand_eq_ok_iff.mp expanded with ⟨suits, -, forms⟩
  have isGiven : (field, text) ∈ entry.given mapType :=
    mem_given_iff.mpr ⟨suits.mem_fields found, found⟩
  rcases forms with ⟨-, rfl⟩ | ⟨-, bounds, -, -, rfl⟩
  · rwa [List.mem_singleton.mp member]
  · rcases List.mem_map.mp member with ⟨value, -, rfl⟩
    exact List.mem_map.mpr ⟨(field, text), isGiven, by simp [plain]⟩

/-- Over this range the entry stands for nothing: it has a wildcard, and the bounds are
crossed. -/
def Vanishes (entry : AuthoredEntry) (mapType : MapType)
    (range : Option IntRange) : Prop :=
  entry.wildcardFields mapType ≠ [] ∧
    ∃ bounds, range = some bounds ∧ bounds.greatest < bounds.least

theorem eq_nil_iff_of_expand {entries : List EntryFields}
    (expanded : entry.expand mapType range arity = .ok entries) :
    entries = [] ↔ entry.Vanishes mapType range := by
  rcases (expand_eq_ok_iff.mp expanded).2.2 with
    ⟨plain, rfl⟩ | ⟨field, bounds, only, same, rfl⟩
  · simp [Vanishes, plain]
  · rw [List.map_eq_nil_iff, ← List.length_eq_zero_iff, IntRange.length_values,
      Vanishes, only, same]
    constructor
    · intro empty
      exact ⟨List.cons_ne_nil _ _, bounds, rfl, by omega⟩
    · rintro ⟨-, _, isBounds, crossed⟩
      cases isBounds
      omega

theorem fields_of_expand {entries : List EntryFields}
    (expanded : entry.expand mapType range arity = .ok entries) :
    ∀ fields ∈ entries, (fields.map (·.1)).Sublist mapType.fields ∧
      ∀ field ∈ arity.required mapType, field ∈ fields.map (·.1) := by
  intro fields member
  rw [names_eq_given_of_expand expanded fields member]
  refine ⟨names_given_sublist entry mapType, fun field isRequired => ?_⟩
  rcases (expand_eq_ok_iff.mp expanded).2.1 field isRequired with ⟨text, found⟩
  have declared := MapType.mem_fields_of_mem_required isRequired
  exact List.mem_map.mpr ⟨(field, text), mem_given_iff.mpr ⟨declared, found⟩, rfl⟩

theorem names_of_expand {entries : List EntryFields}
    (expanded : entry.expand mapType range .full = .ok entries) :
    ∀ fields ∈ entries, fields.map (·.1) = mapType.fields := by
  intro fields member
  rcases fields_of_expand expanded fields member with ⟨ordered, all⟩
  exact ordered.eq_of_length_le (List.Nodup.length_le_of_subset mapType.fields_nodup all)

/-! ## Both forms -/

theorem findRow_zip {fields texts : List String} (distinct : fields.Nodup)
    (fits : texts.length ≤ fields.length) (field : String) :
    Directory.findRow field (fields.zip texts) = texts[fields.idxOf field]? := by
  induction fields generalizing texts with
  | nil =>
      rw [List.length_nil, Nat.le_zero, List.length_eq_zero_iff] at fits
      rw [fits]
      rfl
  | cons first rest induction =>
      rw [List.nodup_cons] at distinct
      cases texts with
      | nil => simp [Directory.findRow]
      | cons text others =>
          rw [List.zip_cons_cons, Directory.findRow]
          by_cases same : first = field
          · simp [same]
          · rw [if_neg same, induction distinct.2 (Nat.le_of_succ_le_succ fits)]
            simp [List.idxOf_cons_ne rest same]

def byName (mapType : MapType) (texts : List String) : AuthoredEntry :=
  .named (.ofRows (mapType.fields.zip texts))

theorem resolve_byName {texts : List String}
    (fits : texts.length ≤ mapType.fields.length) :
    (byName mapType texts).resolve mapType = (positional texts).resolve mapType := by
  have names : ((mapType.fields.zip texts).map (·.1)).Sublist mapType.fields := by
    rw [zip_eq_filterMap mapType.fields_nodup]
    exact names_given_sublist (.positional texts) mapType
  have isSuited : (positional texts).Suits mapType := fits
  have found : ∀ field, (Directory.ofRows (mapType.fields.zip texts)).get? field =
      texts[mapType.fields.idxOf field]? := by
    intro field
    rw [Directory.get?_ofRows (mapType.fields_nodup.sublist names),
      findRow_zip mapType.fields_nodup fits]
  have suits : (byName mapType texts).Suits mapType := by
    intro field member
    rw [Directory.mem_keys_iff, found] at member
    by_contra unknown
    rw [List.idxOf_eq_length unknown] at member
    exact member (List.getElem?_eq_none fits)
  have same : (byName mapType texts).given mapType = (positional texts).given mapType :=
    List.filterMap_congr fun field _ => congrArg _ (found field)
  rw [resolve_eq_ok_iff.mpr ⟨suits, rfl⟩, resolve_eq_ok_iff.mpr ⟨isSuited, rfl⟩, same]

/-- An entry can be expanded if there is a field for each of its texts, no required field
is missing, and at most one field holds the wildcard, for which there must be a range. It
then stands for itself, or for as many entries as there are integers in the range, all
different, which have these integers in place of the wildcard, in their order. To give the
first fields by position is to give them by name. -/
theorem expand_fills_range (entry : AuthoredEntry) (mapType : MapType)
    (range : Option IntRange) (arity : EntryArity) :
    ((∃ entries, entry.expand mapType range arity = .ok entries) ↔
      entry.Suits mapType ∧
        (∀ field ∈ arity.required mapType, ∃ text,
          entry.text? mapType field = some text) ∧
        (entry.wildcardFields mapType).length ≤ 1 ∧
        (entry.wildcardFields mapType ≠ [] → range.isSome = true)) ∧
    (∀ entries, entry.expand mapType range arity = .ok entries →
      (entry.wildcardFields mapType = [] → entries = [entry.given mapType]) ∧
      ∀ field bounds, entry.wildcardFields mapType = [field] → range = some bounds →
        (entries.length : Int) = max 0 (bounds.greatest - bounds.least + 1) ∧
        entries.Nodup ∧
        ∀ (offset : Nat) (inRange : offset < entries.length),
          entries[offset] = (entry.given mapType).map fun row =>
            if row.1 = field then (row.1, toString (bounds.least + offset)) else row) ∧
    ∀ texts : List String, texts.length ≤ mapType.fields.length →
      (positional texts).expand mapType range arity =
        (byName mapType texts).expand mapType range arity := by
  refine ⟨?_, fun entries expanded => ?_, fun texts fits => ?_⟩
  · simp only [expand_eq_ok_iff, exists_and_left]
    refine and_congr_right fun _ => and_congr_right fun _ => ?_
    cases entry.wildcardFields mapType with
    | nil => simp
    | cons field others =>
        cases others with
        | nil => cases range <;> simp
        | cons other rest => simp
  · rcases (expand_eq_ok_iff.mp expanded).2.2 with
      ⟨none, rfl⟩ | ⟨field, bounds, only, rfl, rfl⟩
    · refine ⟨fun _ => rfl, fun field bounds only => ?_⟩
      rw [none] at only
      cases only
    · refine ⟨fun none => ?_, fun other others onlyOther same => ?_⟩
      · rw [only] at none
        cases none
      · cases same
        cases only.symm.trans onlyOther
        refine ⟨?_, ?_, fun offset inRange => ?_⟩
        · rw [List.length_map, IntRange.length_values]
          omega
        · exact IntRange.nodup_values.map fun left right same =>
            toString_int_injective (fill_given_injective only same)
        · rw [List.getElem_map, IntRange.getElem_values, fill_given only]
  · rw [expand, expand, resolve_byName fits]

/-- A traffic class gets three priority groups, one of them below zero. -/
theorem expand_fills_range_signed :
    let texts := ["3", "all"]
    let range : IntRange := ⟨-1, 1⟩
    ∃ entries, (positional texts).expand .tcToPriorityGroup (some range)
      .full = .ok entries ∧
      (byName .tcToPriorityGroup texts).expand .tcToPriorityGroup (some range) .full =
        .ok entries ∧
      (entries.length : Int) = 3 ∧ entries.Nodup ∧
      ∀ (offset : Nat) (inRange : offset < entries.length),
        entries[offset] = [("tc", "3"),
          ("priority-group", toString (-1 + (offset : Int)))] := by
  intro texts range
  rcases expand_fills_range (positional texts) .tcToPriorityGroup (some range) .full with
    ⟨accepts, fills, forms⟩
  have complete : ∀ field ∈ EntryArity.full.required .tcToPriorityGroup,
      ∃ text, (positional texts).text? .tcToPriorityGroup field = some text := by
    intro field isRequired
    exact Option.isSome_iff_exists.mp (by revert field; decide)
  have suits : (positional texts).Suits .tcToPriorityGroup := Nat.le_refl 2
  rcases accepts.mpr ⟨suits, complete, by decide, fun _ => rfl⟩ with ⟨entries, expanded⟩
  rcases (fills entries expanded).2 "priority-group" range (by decide) rfl with
    ⟨count, distinct, each⟩
  exact ⟨entries, expanded, (forms texts suits).symm.trans expanded,
    count, distinct, each⟩

end AuthoredEntry

end SwitchQos
