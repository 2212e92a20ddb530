import SwitchQos.Proofs.Provision.MapTables
import SwitchQos.Proofs.Provision.Staging

namespace SwitchQos

/-! A table is a finite map from the values of the key fields to those of the other
fields, with its entries in the order of their creation. A commit performs the changes
of a session on this map, one after the other. If one of them does not fit the map as
the changes before it have left it, the store refuses them all.

The store may hold anything else besides the table. What counts is that entries which
can be addressed by the id of the table are entries of the table. -/

/-! ## The map -/

namespace MapType

variable {mapType : MapType} {rows after : List EntryValues} {change : Change}

/-- What a single change makes of the rows of a table. A new key must be absent; a key
that is modified or removed must be present. -/
def change? (mapType : MapType) (rows : List EntryValues) (change : Change) :
    Option (List EntryValues) :=
  let key := mapType.keyOf change.values
  match change.verb with
  | .create =>
      if key ∈ rows.map mapType.keyOf then none else some (rows ++ [change.values])
  | .set =>
      if key ∈ rows.map mapType.keyOf then
        some (rows.map fun row => if mapType.keyOf row = key then change.values else row)
      else none
  | .delete =>
      if key ∈ rows.map mapType.keyOf then
        some (rows.filter fun row => mapType.keyOf row ≠ key)
      else none

theorem nodup_change? (distinct : (rows.map mapType.keyOf).Nodup)
    (changed : mapType.change? rows change = some after) :
    (after.map mapType.keyOf).Nodup := by
  rcases change with ⟨verb, values⟩
  cases verb with
  | create =>
      simp only [change?, Option.ite_none_left_eq_some, Option.some.injEq] at changed
      rcases changed with ⟨absent, rfl⟩
      rw [List.map_append, List.map_singleton, List.nodup_append]
      refine ⟨distinct, List.pairwise_singleton _ _,
        fun key member other isNew same => absent ?_⟩
      rw [← List.mem_singleton.mp isNew, ← same]
      exact member
  | set =>
      simp only [change?, Option.ite_none_right_eq_some, Option.some.injEq] at changed
      rcases changed with ⟨-, rfl⟩
      have sameKeys : (rows.map fun row =>
          if mapType.keyOf row = mapType.keyOf values then values else row).map
            mapType.keyOf = rows.map mapType.keyOf := by
        rw [List.map_map]
        refine List.map_congr_left fun row _ => ?_
        simp only [Function.comp]
        split <;> simp [*]
      rw [sameKeys]
      exact distinct
  | delete =>
      simp only [change?, Option.ite_none_right_eq_some, Option.some.injEq] at changed
      rcases changed with ⟨-, rfl⟩
      exact distinct.sublist (List.filter_sublist.map _)

end MapType

/-! ## A table in the store -/

/-- The stored table is the map with these rows. Whatever is addressed by the id of the
table carries it as an attribute of its own, and so is one of its entries. -/
structure Contents.Tabulates (contents : Contents) (table : MapTable)
    (rows : List EntryValues) : Prop extends contents.Holds table rows where
  distinct : (rows.map table.mapType.keyOf).Nodup
  own : ∀ stored ∈ contents.ofClass (.mapEntry table.mapType),
    stored.lookup ((ObjectClass.mapEntry table.mapType).pathOf "id") =
        some (Storage.uint64.word table.id) →
      stored.get? ((ObjectClass.mapEntry table.mapType).pathOf "id") =
        some (Storage.uint64.word table.id)

def Contents.besides (contents : Contents) (table : MapTable) : List StoreObject :=
  contents.objects.filter fun stored =>
    !Contents.belongsTo table.mapType table.object stored

structure Contents.UpdatedTo (before : Contents) (table : MapTable)
    (rows : List EntryValues) (after : Contents) : Prop where
  tabulates : after.Tabulates table rows
  besides : after.besides table = before.besides table
  nextId : after.nextId = before.nextId

namespace Contents

variable {contents before after : Contents} {table : MapTable} {rows : List EntryValues}
  {values : EntryValues} {object stored : StoreObject}

theorem mem_besides_iff :
    stored ∈ contents.besides table ↔
      stored ∈ contents.objects ∧
      ¬belongsTo table.mapType table.object stored = true := by
  rw [besides, List.mem_filter, Bool.not_eq_true', Bool.not_eq_true]

theorem mem_iff_of_besides_eq (same : after.besides table = before.besides table)
    (foreign : ¬belongsTo table.mapType table.object stored = true) :
    stored ∈ after.objects ↔ stored ∈ before.objects := by
  have isAfter : stored ∈ after.besides table ↔ stored ∈ after.objects :=
    mem_besides_iff.trans (and_iff_left foreign)
  have isBefore : stored ∈ before.besides table ↔ stored ∈ before.objects :=
    mem_besides_iff.trans (and_iff_left foreign)
  rw [← isAfter, same, isBefore]

/-- As long as everything else stays, only the entries of a table have to be looked at. -/
theorem Tabulates.updatedTo (tabulates : before.Tabulates table rows)
    {others : List EntryValues} (distinct : (others.map table.mapType.keyOf).Nodup)
    (entries : List.Forall₂ (table.address.Stores table.id) others
      (after.entriesOf table.mapType table.object))
    (besides : after.besides table = before.besides table)
    (nextId : after.nextId = before.nextId) : before.UpdatedTo table others after where
  tabulates := by
    refine ⟨⟨tabulates.room, tabulates.legacyFits, ?_, entries⟩, distinct, ?_⟩
    · rcases tabulates.stored with ⟨stored, isTable, agrees⟩
      rcases mem_ofClass_iff.mp isTable with ⟨member, isOf⟩
      have foreign : ¬belongsTo table.mapType table.object stored = true := by
        intro belongs
        have isEntry := (MapTable.belongsTo_object_iff.mp belongs).1
        cases ObjectClass.path_injective (isOf.symm.trans isEntry)
      have stays := (mem_iff_of_besides_eq besides foreign).mpr member
      exact ⟨stored, mem_ofClass_iff.mpr ⟨stays, isOf⟩, agrees⟩
    · intro stored isEntry hasId
      rcases mem_ofClass_iff.mp isEntry with ⟨member, isOf⟩
      by_cases belongs : belongsTo table.mapType table.object stored = true
      · exact (MapTable.belongsTo_object_iff.mp belongs).2
      · have was := (mem_iff_of_besides_eq besides belongs).mp member
        exact tabulates.own stored (mem_ofClass_iff.mpr ⟨was, isOf⟩) hasId
  besides := besides
  nextId := nextId

theorem Tabulates.updatedTo_self (tabulates : contents.Tabulates table rows) :
    contents.UpdatedTo table rows contents := ⟨tabulates, rfl, rfl⟩

theorem UpdatedTo.trans {middle : Contents} {others : List EntryValues}
    (first : before.UpdatedTo table rows middle)
    (later : middle.UpdatedTo table others after) :
    before.UpdatedTo table others after :=
  ⟨later.tabulates, later.besides.trans first.besides, later.nextId.trans first.nextId⟩

/-! ## What an object addresses -/

theorem addressed_entry_iff {row : EntryValues} {entry : StoreObject}
    (stores : table.address.Stores table.id row entry)
    (carries : table.address.Carries table.id values object) :
    addressed (.mapEntry table.mapType) object entry = true ↔
      table.mapType.keyOf row = table.mapType.keyOf values :=
  stores.carries.addressed_iff carries

theorem get?_id_of_carries (carries : table.address.Carries table.id values object) :
    object.get? ((ObjectClass.mapEntry table.mapType).pathOf "id") =
      some (Storage.uint64.word table.id) := carries.id

section Addressing

variable (tabulates : contents.Tabulates table rows)
  (carries : table.address.Carries table.id values object)

include tabulates carries

theorem belongs_of_addressed (member : stored ∈ contents.objects)
    (hit : addressed (.mapEntry table.mapType) object stored = true) :
    belongsTo table.mapType table.object stored = true := by
  rcases addressed_iff.mp hit with ⟨key, identified, found⟩
  rcases StoreObject.entity?_eq_some_iff.mp found with ⟨isOf, storedKey⟩
  have sameId := ObjectClass.lookup_eq_of_identity?_eq storedKey identified
    (List.mem_cons_self : "id" ∈ (ObjectClass.mapEntry table.mapType).keyAttrs)
  rw [carries.plain.lookup, get?_id_of_carries carries] at sameId
  exact MapTable.belongsTo_object_iff.mpr
    ⟨isOf, tabulates.own stored (mem_ofClass_iff.mpr ⟨member, isOf⟩) sameId⟩

theorem exists_addressed_iff :
    (∃ stored ∈ contents.objects,
      addressed (.mapEntry table.mapType) object stored = true) ↔
      table.mapType.keyOf values ∈ rows.map table.mapType.keyOf := by
  rw [List.mem_map]
  constructor
  · rintro ⟨stored, member, hit⟩
    have isEntry := List.mem_filter.mpr
      ⟨member, belongs_of_addressed tabulates carries member hit⟩
    rcases Results.exists_left tabulates.entries isEntry with ⟨row, isRow, stores⟩
    exact ⟨row, isRow, (addressed_entry_iff stores carries).mp hit⟩
  · rintro ⟨row, isRow, sameKey⟩
    rcases Results.exists_right tabulates.entries isRow with ⟨stored, isEntry, stores⟩
    exact ⟨stored, (List.mem_filter.mp isEntry).1,
      (addressed_entry_iff stores carries).mpr sameKey⟩

theorem addressed_apart : contents.objects.Pairwise fun left right =>
    addressed (.mapEntry table.mapType) object left = true →
      ¬addressed (.mapEntry table.mapType) object right = true := by
  have entries :=
    TableAddress.addressed_apart_of_nodup tabulates.entries tabulates.distinct carries
  -- An object that is no entry of the table is not addressed, so the entries stand
  -- for all.
  rw [entriesOf, List.pairwise_filter] at entries
  refine entries.imp_of_mem fun leftMember rightMember apart hit otherHit => ?_
  exact apart (belongs_of_addressed tabulates carries leftMember hit)
    (belongs_of_addressed tabulates carries rightMember otherHit) hit otherHit

end Addressing

/-! ## What operations leave behind -/

section Effects

variable (tabulates : contents.Tabulates table rows)

include tabulates

theorem updatedTo_created (stores : table.address.Stores table.id values object)
    (distinct : ((rows ++ [values]).map table.mapType.keyOf).Nodup) :
    contents.UpdatedTo table (rows ++ [values])
      ⟨contents.objects ++ [object], contents.nextId⟩ := by
  have belongs : belongsTo table.mapType table.object object = true :=
    MapTable.belongsTo_object_iff.mpr ⟨stores.classPath, stores.id⟩
  refine tabulates.updatedTo distinct ?_ ?_ rfl
  · rw [entriesOf, List.filter_append, List.filter_cons_of_pos belongs]
    exact List.rel_append tabulates.entries (.cons stores .nil)
  · simp [besides, belongs]

theorem belongsTo_overwritten (carries : table.address.Carries table.id values object)
    (member : stored ∈ contents.objects) :
    belongsTo table.mapType table.object
      (overwritten (.mapEntry table.mapType) object stored) =
      belongsTo table.mapType table.object stored := by
  rw [overwritten]
  split
  · rename_i hit
    have belongs := belongs_of_addressed tabulates carries member hit
    rw [belongs, MapTable.belongsTo_object_iff]
    refine ⟨(MapTable.belongsTo_object_iff.mp belongs).1, ?_⟩
    rw [carries.plain.get?_mergeFrom, get?_id_of_carries carries, Option.some_or]
  · rfl

theorem updatedTo_overwritten (stores : table.address.Stores table.id values object)
    (distinct : ((rows.map fun row =>
      if table.mapType.keyOf row = table.mapType.keyOf values
      then values else row).map table.mapType.keyOf).Nodup) :
    contents.UpdatedTo table
      (rows.map fun row => if table.mapType.keyOf row = table.mapType.keyOf values
        then values else row)
      ⟨contents.objects.map (overwritten (.mapEntry table.mapType) object),
        contents.nextId⟩ := by
  have belongs : ∀ stored ∈ contents.objects, _ := fun stored =>
    @belongsTo_overwritten _ _ _ _ _ stored tabulates stores.carries
  have untouched : ∀ stored ∈ contents.besides table,
      overwritten (.mapEntry table.mapType) object stored = stored := by
    intro stored isBesides
    rcases mem_besides_iff.mp isBesides with ⟨member, foreign⟩
    exact if_neg fun hit =>
      foreign (belongs_of_addressed tabulates stores.carries member hit)
  refine tabulates.updatedTo distinct ?_ ?_ rfl
  · have entries : entriesOf
      ⟨contents.objects.map (overwritten (.mapEntry table.mapType) object),
        contents.nextId⟩ table.mapType table.object =
          (contents.entriesOf table.mapType table.object).map
            (overwritten (.mapEntry table.mapType) object) := by
      rw [entriesOf, entriesOf, List.filter_map]
      exact congrArg _ (List.filter_congr belongs)
    rw [entries, List.forall₂_map_left_iff, List.forall₂_map_right_iff]
    refine tabulates.entries.imp fun row entry entryStores => ?_
    have sameKey := addressed_entry_iff entryStores stores.carries
    by_cases isSame : table.mapType.keyOf row = table.mapType.keyOf values
    · rw [if_pos isSame, overwritten, if_pos (sameKey.mpr isSame)]
      exact stores.mergedInto entryStores.classPath entryStores.plain
    · rw [if_neg isSame, overwritten, if_neg fun hit => isSame (sameKey.mp hit)]
      exact entryStores
  · calc besides ⟨contents.objects.map (overwritten (.mapEntry table.mapType) object),
          contents.nextId⟩ table =
        (contents.besides table).map (overwritten (.mapEntry table.mapType) object) := by
          rw [besides, besides, List.filter_map]
          exact congrArg _ (List.filter_congr fun stored member =>
            congrArg _ (belongs stored member))
      _ = contents.besides table := by
          rw [List.map_congr_left untouched, List.map_id']

theorem updatedTo_removed (carries : table.address.Carries table.id values object)
    (distinct : ((rows.filter fun row =>
      table.mapType.keyOf row ≠ table.mapType.keyOf values).map
        table.mapType.keyOf).Nodup) :
    contents.UpdatedTo table
      (rows.filter fun row => table.mapType.keyOf row ≠ table.mapType.keyOf values)
      ⟨contents.objects.filter fun stored =>
        !addressed (.mapEntry table.mapType) object stored, contents.nextId⟩ := by
  refine tabulates.updatedTo distinct ?_ ?_ rfl
  · have entries : entriesOf ⟨contents.objects.filter fun stored =>
          !addressed (.mapEntry table.mapType) object stored,
            contents.nextId⟩ table.mapType table.object =
        (contents.entriesOf table.mapType table.object).filter fun stored =>
          !addressed (.mapEntry table.mapType) object stored := by
      simp only [entriesOf, List.filter_filter, Bool.and_comm]
    rw [entries]
    refine List.rel_filter (fun row entry entryStores => ?_) tabulates.entries
    simp [← addressed_entry_iff entryStores carries]
  · simp only [besides, List.filter_filter]
    refine List.filter_congr fun stored member => ?_
    cases hit : addressed (.mapEntry table.mapType) object stored with
    | false => simp
    | true => simp [belongs_of_addressed tabulates carries member hit]

end Effects

/-! ## Following the map -/

/-- What became of the store is what became of the map; where the map has no answer the
store has refused. -/
inductive Follows (before : Contents) (table : MapTable) {Result : Type} :
    Option (List EntryValues) → Except Rejection (Result × Contents) → Prop where
  | refused (reason : Rejection) : Follows before table none (.error reason)
  | done {rows : List EntryValues} {result : Result} {after : Contents}
      (updated : before.UpdatedTo table rows after) :
      Follows before table (some rows) (.ok (result, after))

theorem Follows.of_refused {Result : Type}
    {outcome : Except Rejection (Result × Contents)}
    (refused : ∀ result after, outcome ≠ .ok (result, after)) :
    contents.Follows table none outcome := by
  cases outcome with
  | error reason => exact .refused reason
  | ok result => exact absurd rfl (refused result.1 result.2)

theorem Follows.of_some {Result : Type} {outcome : Except Rejection (Result × Contents)}
    (follows : before.Follows table (some rows) outcome) :
    ∃ result after, outcome = .ok (result, after) ∧
    before.UpdatedTo table rows after := by
  cases follows with
  | done updated => exact ⟨_, _, rfl, updated⟩

theorem Follows.of_none {Result : Type} {outcome : Except Rejection (Result × Contents)}
    (follows : before.Follows table none outcome) :
    ∃ reason, outcome = .error reason := by
  cases follows with
  | refused reason => exact ⟨reason, rfl⟩

theorem Follows.of_updated {Result : Type} {expected : Option (List EntryValues)}
    {outcome : Except Rejection (Result × Contents)}
    (updated : before.UpdatedTo table rows after)
    (follows : after.Follows table expected outcome) :
    before.Follows table expected outcome := by
  cases follows with
  | refused reason => exact .refused reason
  | done later => exact .done (updated.trans later)

theorem Follows.answer {Result Other : Type} {expected : Option (List EntryValues)}
    {outcome : Except Rejection (Result × Contents)}
    (follows : before.Follows table expected outcome) (answer : Result → Other) :
    before.Follows table expected
      (outcome >>= fun result => .ok (answer result.1, result.2)) := by
  cases follows with
  | refused reason => exact .refused reason
  | done updated => exact .done updated

/-- Two steps that follow the map follow it together. -/
theorem Follows.bind {Result Other : Type} {expected : Option (List EntryValues)}
    {outcome : Except Rejection (Result × Contents)}
    {nextRows : List EntryValues → Option (List EntryValues)}
    {next : Result × Contents → Except Rejection (Other × Contents)}
    (first : before.Follows table expected outcome)
    (later : ∀ (rows : List EntryValues) (result : Result) (after : Contents),
      after.Tabulates table rows →
      after.Follows table (nextRows rows) (next (result, after))) :
    before.Follows table (expected.bind nextRows) (outcome >>= next) := by
  cases first with
  | refused reason => exact .refused reason
  | done updated => exact (later _ _ _ updated.tabulates).of_updated updated

/-! ## Single operations -/

section Operations

variable (tabulates : contents.Tabulates table rows)

include tabulates

theorem create_follows (stores : table.address.Stores table.id values object) :
    contents.Follows table (table.mapType.change? rows ⟨.create, values⟩)
      (contents.create (.mapEntry table.mapType) object) := by
  have hits := exists_addressed_iff tabulates stores.carries
  by_cases present : table.mapType.keyOf values ∈ rows.map table.mapType.keyOf
  · have changed : table.mapType.change? rows ⟨.create, values⟩ = none := if_pos present
    rw [changed]
    refine .of_refused fun created after accepted => ?_
    rcases hits.mpr present with ⟨stored, member, hit⟩
    exact (create_entry_eq_ok_iff.mp accepted).2.2.1 stored member hit
  · have changed : table.mapType.change? rows ⟨.create, values⟩ =
      some (rows ++ [values]) :=
      if_neg present
    rcases tabulates.stored with ⟨stored, isTable, agrees⟩
    have parent := MapTable.hasParent_of_agrees isTable agrees stores.id
    have accepted := create_entry_eq_ok_iff.mpr
      ⟨rfl, parent, fun stored member hit => present (hits.mp ⟨stored, member, hit⟩), rfl⟩
    rw [changed, accepted]
    exact .done (updatedTo_created tabulates stores
      (MapType.nodup_change? tabulates.distinct changed))

theorem set_follows (stores : table.address.Stores table.id values object) :
    contents.Follows table (table.mapType.change? rows ⟨.set, values⟩)
      (contents.set (.mapEntry table.mapType) object) := by
  have hits := exists_addressed_iff tabulates stores.carries
  have sets := fun merged after => @set_eq_ok_iff_of_apart _ after _ _
    (addressed_apart tabulates stores.carries) merged
  by_cases present : table.mapType.keyOf values ∈ rows.map table.mapType.keyOf
  · have changed : table.mapType.change? rows ⟨.set, values⟩ = some (rows.map fun row =>
        if table.mapType.keyOf row = table.mapType.keyOf values then values else row) :=
      if_pos present
    rcases hits.mpr present with ⟨stored, member, hit⟩
    rw [changed, (sets _ _).mpr ⟨stored, member, hit, rfl, rfl⟩]
    exact .done (updatedTo_overwritten tabulates stores
      (MapType.nodup_change? tabulates.distinct changed))
  · have changed : table.mapType.change? rows ⟨.set, values⟩ = none := if_neg present
    rw [changed]
    refine .of_refused fun merged after accepted => present ?_
    rcases (sets merged after).mp accepted with ⟨stored, member, hit, -⟩
    exact hits.mp ⟨stored, member, hit⟩

theorem delete_follows (carries : table.address.Carries table.id values object) :
    contents.Follows table (table.mapType.change? rows ⟨.delete, values⟩)
      (contents.delete (.mapEntry table.mapType) object) := by
  have hits := exists_addressed_iff tabulates carries
  have deletes := fun removed after => @delete_eq_ok_iff_of_apart _ after _ _
    (addressed_apart tabulates carries) removed
  by_cases present : table.mapType.keyOf values ∈ rows.map table.mapType.keyOf
  · have changed : table.mapType.change? rows ⟨.delete, values⟩ =
      some (rows.filter fun row =>
        table.mapType.keyOf row ≠ table.mapType.keyOf values) := if_pos present
    rcases hits.mpr present with ⟨stored, member, hit⟩
    rw [changed, (deletes _ _).mpr ⟨member, hit, rfl⟩]
    exact .done (updatedTo_removed tabulates carries
      (MapType.nodup_change? tabulates.distinct changed))
  · have changed : table.mapType.change? rows ⟨.delete, values⟩ = none := if_neg present
    rw [changed]
    refine .of_refused fun removed after accepted => present ?_
    rcases (deletes removed after).mp accepted with ⟨member, hit, -⟩
    exact hits.mp ⟨removed, member, hit⟩

theorem perform_follows {change : Change} {operation : Operation}
    (expresses : table.address.Expresses table.id change operation) :
    contents.Follows table (table.mapType.change? rows change)
      (contents.perform [] operation) := by
  rcases change with ⟨verb, values⟩
  rcases operation with ⟨operationVerb, object⟩
  rcases expresses with ⟨sameVerb, carries, full⟩
  simp only at sameVerb carries full
  subst sameVerb
  have isOf : object.classPath = (ObjectClass.mapEntry table.mapType).path :=
    carries.classPath
  have carried : contents.Follows table
    (table.mapType.change? rows ⟨operationVerb, values⟩)
      (contents.carryOut operationVerb (.mapEntry table.mapType) object) := by
    cases operationVerb with
    | create => exact create_follows tabulates (carries.stores (full (by simp)))
    | set => exact set_follows tabulates (carries.stores (full (by simp)))
    | delete => exact delete_follows tabulates carries
  have answered := carried.answer (StoreObject.answer (.mapEntry table.mapType))
  rw [perform, isOf, ObjectClass.ofPath_path]
  cases operationVerb <;> exact answered

end Operations

/-! ## Batches -/

/-- A batch does to the store what the changes it expresses do to the map in turn. -/
theorem performAll_follows {changes : List Change} {batch : List Operation}
    (tabulates : contents.Tabulates table rows)
    (expressed : List.Forall₂ (table.address.Expresses table.id) changes batch) :
    contents.Follows table (changes.foldlM table.mapType.change? rows)
      (contents.performAll [] batch) := by
  -- By induction on the changes. Each leaves a store that is again a map, which is all
  -- that the next one asks for.
  induction expressed generalizing contents rows with
  | nil => exact .done tabulates.updatedTo_self
  | cons first _ induction =>
      rw [List.foldlM_cons, performAll]
      exact (perform_follows tabulates first).bind fun rows answer after later =>
        (induction later).answer fun answers => answer :: answers

end Contents

/-! ## Commits -/

/-- A table that has just been created is the empty map. -/
theorem Memory.tabulates_withTable {memory : Memory} {table : MapTable}
    (isNext : table.id = memory.contents.nextId)
    (fresh : memory.contents.FreshFor table.mapType)
    (legacyFits : table.mapType.isLegacy = true → table.switchId < countOfBits 32) :
    (memory.withTable table []).contents.Tabulates table [] where
  toHolds := holds_withTable isNext fresh .nil legacyFits
  distinct := .nil
  own := by
    intro stored isEntry hasId
    rcases Contents.mem_ofClass_iff.mp isEntry with ⟨member, isOf⟩
    simp only [withTable, List.append_nil, List.mem_append, List.mem_singleton] at member
    rcases member with old | rfl
    · rw [isNext, ObjectClass.pathOf_id_entry] at hasId
      exact absurd hasId (fresh.free stored old (.inr isOf)).1
    · rw [MapTable.classPath_object] at isOf
      cases ObjectClass.path_injective isOf

namespace MapTable

/-- A commit performs the changes of a session on the map that the table holds: additions
first, then modifications, then removals. It succeeds if each of them fits the map as
it then is, and the table is read back as the map that results, every entry with all
its fields, while everything else in the store stays as it was. Otherwise the commit
fails and leaves the store alone. -/
theorem commit_refines_map {memory : Memory} {table staged : MapTable}
    {rows : List EntryValues} {edits : List Edit} (unruled : memory.rules = [])
    (available : memory.unavailable = 0)
    (tabulates : memory.contents.Tabulates table rows) (unstaged : table.cleared = table)
    (session : edits.foldlM stage table = .ok staged) :
    table.read.run.Ends Memory.responder memory
        (.ok (rows.map fun values => ⟨some table.id, values⟩)) memory ∧
      ∃ changes, table.mapType.changes edits = .ok changes ∧
        (∀ result, changes.foldlM table.mapType.change? rows = some result → ∃ after,
          staged.commit.run.Ends Memory.responder memory (.ok table) after ∧
          table.read.run.Ends Memory.responder after
            (.ok (result.map fun values => ⟨some table.id, values⟩)) after ∧
          (∀ values ∈ result, values.map (·.1) = table.mapType.fields) ∧
          memory.contents.UpdatedTo table result after.contents ∧
          after = { memory with
            contents := after.contents, log := memory.log ++ staged.batch }) ∧
        (changes.foldlM table.mapType.change? rows = none → ∃ fault,
          staged.commit.run.Ends Memory.responder memory (.error fault) memory) := by
  refine ⟨read_ends tabulates.toHolds available, ?_⟩
  rcases expresses_batch unstaged session with ⟨kept, changes, given, expressed⟩
  have follows := Contents.performAll_follows tabulates expressed
  refine ⟨changes, given, fun result fits => ?_, fun clash => ?_⟩
  · rw [fits] at follows
    rcases follows.of_some with ⟨answers, contents, performed, updated⟩
    rw [← unruled] at performed
    -- Where nothing was staged the commit does not reach the store.
    have nothing : staged.batch = [] →
        { memory with contents, log := memory.log ++ staged.batch } = memory := by
      intro none
      rw [none] at performed ⊢
      cases performed
      rw [List.append_nil]
    have full : ∀ values ∈ result, values.map (·.1) = table.mapType.fields := by
      intro values member
      rcases Results.exists_right updated.tabulates.entries member with ⟨_, -, stores⟩
      exact stores.names
    exact ⟨_, commit_accepted kept (Memory.transact_of_ok performed) nothing,
      read_ends updated.tabulates.toHolds available, full, updated, rfl⟩
  · rw [clash] at follows
    rcases follows.of_none with ⟨reason, refused⟩
    rw [← unruled] at refused
    have some : staged.batch ≠ [] := by
      intro none
      rw [none] at refused
      cases refused
    exact ⟨_, commit_rejected some (Memory.transact_of_error refused)⟩

/-- A table is filled in one session: of four new entries one is modified, with its key in
another spelling, and one is removed. The next session is refused, because the second of
its keys is in the map with another color only. -/
theorem commit_refines_map_colors :
    let row (tc dot1p : Nat) : EntryValues :=
      [("tc", .uint tc), ("color", .symbol "GREEN"), ("dot1p", .uint dot1p)]
    let table : MapTable := ⟨.tcColorToDot1p, 0, 4096, [], [], []⟩
    let first : List Edit :=
      [⟨.delete, .positional ["3", "GREEN"], none⟩,
       ⟨.set, .named ⟨[("color", "GREEN"), ("dot1p", "5"), ("tc", "02")]⟩, none⟩,
       ⟨.create, .positional ["all", "GREEN", "1"], some ⟨0, 3⟩⟩]
    let second : List Edit :=
      [⟨.create, .positional ["4", "GREEN", "1"], none⟩,
       ⟨.delete, .positional ["0", "YELLOW"], none⟩]
    ∃ created staged after again fault,
      (MapTable.create .tcColorToDot1p 0).run.Ends Memory.responder
        (Memory.new 0) (.ok table) created ∧
      first.foldlM stage table = .ok staged ∧
      staged.commit.run.Ends Memory.responder created (.ok table) after ∧
      table.read.run.Ends Memory.responder after
        (.ok ([row 0 1, row 1 1, row 2 5].map fun values => ⟨some 4096, values⟩)) after ∧
      second.foldlM stage table = .ok again ∧
      again.commit.run.Ends Memory.responder after (.error fault) after := by
  intro row table first second
  have fresh : (Memory.new 0).contents.FreshFor table.mapType :=
    ⟨by decide, fun stored member => by cases member⟩
  have legacyFits : table.mapType.isLegacy = true → table.switchId < countOfBits 32 :=
    fun _ => by decide
  have created := @Memory.create_ends (Memory.new 0) table rfl fresh rfl rfl legacyFits
  have empty := @Memory.tabulates_withTable (Memory.new 0) table rfl fresh legacyFits
  have staging : ∀ edits ∈ [first, second], ∃ staged, edits.foldlM stage table =
      .ok staged := by
    intro edits member
    have succeeds : (edits.foldlM stage table).isOk = true := by
      revert edits
      decide +kernel
    cases session : edits.foldlM stage table with
    | ok staged => exact ⟨staged, rfl⟩
    | error fault =>
        rw [session] at succeeds
        cases succeeds
  rcases staging first (by simp) with ⟨staged, session⟩
  rcases staging second (by simp) with ⟨again, nextSession⟩
  rcases commit_refines_map rfl rfl empty rfl session with
    ⟨-, changes, given, succeeds, -⟩
  have known : table.mapType.changes first = .ok
      [⟨.create, row 0 1⟩, ⟨.create, row 1 1⟩, ⟨.create, row 2 1⟩, ⟨.create, row 3 1⟩,
       ⟨.set, row 2 5⟩, ⟨.delete, [("tc", .uint 3), ("color", .symbol "GREEN")]⟩] := by
    decide +kernel
  cases known.symm.trans given
  rcases succeeds [row 0 1, row 1 1, row 2 5] (by decide +kernel) with
    ⟨after, committed, read, -, updated, same⟩
  have unruled : after.rules = [] := congrArg Memory.rules same
  have available : after.unavailable = 0 := congrArg Memory.unavailable same
  rcases commit_refines_map unruled available updated.tabulates rfl nextSession with
    ⟨-, changes, given, -, fails⟩
  have known : table.mapType.changes second = .ok
      [⟨.create, row 4 1⟩, ⟨.delete,
        [("tc", .uint 0), ("color", .symbol "YELLOW")]⟩] := by
    decide +kernel
  cases known.symm.trans given
  rcases fails (by decide +kernel) with ⟨fault, refused⟩
  exact ⟨_, staged, _, again, fault, created, session, committed, read,
    nextSession, refused⟩

end MapTable

end SwitchQos
