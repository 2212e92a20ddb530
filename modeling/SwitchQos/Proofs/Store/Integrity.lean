import SwitchQos.Proofs.Store.FiniteMap

namespace SwitchQos

/-! What holds of the stored objects whatever clients submit, as long as no object they
submit has key data. Objects need not have all their keys: one that lacks a key cannot be
addressed again, but it does no harm to the others. -/

/-! ## Histories -/

/-- The store comes about from a new one by batches of allowed operations, accepted or
rejected. Failure rules may be added at any time. -/
inductive Memory.ReachedBy (allowed : Operation → Prop) : Memory → Prop
  | new (switchId : Nat) : ReachedBy allowed (.new switchId)
  | transact {memory : Memory} {batch : List Operation}
      (reached : ReachedBy allowed memory)
      (within : ∀ operation ∈ batch, allowed operation) :
      ReachedBy allowed (memory.transact batch).2
  | refuse {memory : Memory} (reached : ReachedBy allowed memory) (rule : FailureRule) :
      ReachedBy allowed (memory.refuse rule)

theorem Memory.ReachedBy.holds {allowed : Operation → Prop} {Kept : Contents → Prop}
    {memory : Memory} (reached : memory.ReachedBy allowed)
    (start : Kept { nextId := firstId })
    (keeps : ∀ operation, allowed operation → Contents.Keeps Kept operation) :
    Kept memory.contents := by
  induction reached with
  | new switchId => exact start
  | transact _ within induction =>
      exact transact_keeps (fun operation member =>
        keeps operation (within operation member))
        induction
  | refuse _ rule induction => exact induction

namespace Contents

variable {contents after : Contents} {objectClass : ObjectClass}
  {object stored created removed : StoreObject} {mapType : MapType} {id : StoreValue}

def HoldsTable (contents : Contents) (mapType : MapType) (id : StoreValue) : Prop :=
  ∃ table ∈ contents.objects, table.classPath = (ObjectClass.mapTable mapType).path ∧
    table.get? ((ObjectClass.mapTable mapType).pathOf "id") = some id

/-- What every store keeps up: objects are of known classes and have no key data, no
entity is stored twice, objects of classes that get ids from the store have one, and
every entry belongs to a stored table. -/
structure Intact (contents : Contents) : Prop where
  plain : ∀ stored ∈ contents.objects, stored.IsPlain
  classed : ∀ stored ∈ contents.objects, ∃ objectClass : ObjectClass,
    stored.classPath = objectClass.path
  distinct : Distinct contents.objects
  numbered : ∀ stored ∈ contents.objects, ∀ objectClass : ObjectClass,
    stored.classPath = objectClass.path → objectClass.allocatesId = true →
    (stored.get? (objectClass.pathOf "id")).isSome
  owned : ∀ entry ∈ contents.objects, ∀ mapType,
    entry.classPath = (ObjectClass.mapEntry mapType).path →
    ∃ id, entry.get? ((ObjectClass.mapEntry mapType).pathOf "id") = some id ∧
      contents.HoldsTable mapType id

/-! ## Creating -/

theorem HoldsTable.append (holds : contents.HoldsTable mapType id) (created : StoreObject)
    (nextId : Nat) : HoldsTable ⟨contents.objects ++ [created], nextId⟩ mapType id := by
  rcases holds with ⟨table, member, isTable, tableId⟩
  exact ⟨table, List.mem_append_left _ member, isTable, tableId⟩

theorem holdsTable_of_hasParent
    (parent : contents.hasParent (.mapEntry mapType)
      ((ObjectClass.mapEntry mapType).pathOf "id") object = true) :
    ∃ id, object.get? ((ObjectClass.mapEntry mapType).pathOf "id") = some id ∧
      contents.HoldsTable mapType id := by
  simp only [hasParent, ObjectClass.parent?, Bool.and_eq_true, List.any_eq_true,
    mem_ofClass_iff, decide_eq_true_eq] at parent
  rcases parent with ⟨hasId, table, ⟨member, isTable⟩, sameId⟩
  rcases Option.isSome_iff_exists.mp hasId with ⟨id, found⟩
  exact ⟨id, found, table, member, isTable, sameId.trans found⟩

theorem Intact.create (intact : contents.Intact) (plain : object.IsPlain)
    (isOf : object.classPath = objectClass.path)
    (done : contents.create objectClass object = .ok (created, after)) :
    after.Intact := by
  rcases create_eq_ok_iff.mp done with ⟨-, completed, parent, free, rfl⟩
  have createdOf := (classPath_of_completed? completed).trans isOf
  have sameClass : ∀ other : ObjectClass, created.classPath = other.path →
      objectClass = other :=
    fun other otherOf => ObjectClass.path_injective (createdOf.symm.trans otherOf)
  constructor
  case plain =>
    intro stored member
    rcases List.mem_append.mp member with old | new
    · exact intact.plain stored old
    · rw [List.mem_singleton.mp new]
      exact isPlain_of_completed? plain completed
  case classed =>
    intro stored member
    rcases List.mem_append.mp member with old | new
    · exact intact.classed stored old
    · rw [List.mem_singleton.mp new]
      exact ⟨objectClass, createdOf⟩
  case distinct => exact Distinct.append intact.distinct createdOf free
  case numbered =>
    intro stored member otherClass otherOf allocates
    rcases List.mem_append.mp member with old | new
    · exact intact.numbered stored old otherClass otherOf allocates
    · rw [List.mem_singleton.mp new] at otherOf ⊢
      rcases sameClass _ otherOf with rfl
      exact id_of_completed? allocates completed
  case owned =>
    intro entry member mapType isEntry
    rcases List.mem_append.mp member with old | new
    · rcases intact.owned entry old mapType isEntry with ⟨id, found, holds⟩
      exact ⟨id, found, holds.append created _⟩
    · rw [List.mem_singleton.mp new] at isEntry ⊢
      rcases sameClass _ isEntry with rfl
      rcases holdsTable_of_hasParent parent with ⟨id, found, holds⟩
      exact ⟨id, found, holds.append created _⟩

/-! ## Setting -/

@[simp] theorem classPath_overwritten :
    (overwritten objectClass object stored).classPath = stored.classPath := by
  rw [overwritten]
  split <;> rfl

theorem get?_key_overwritten {otherClass : ObjectClass} {attr : String}
    (plain : stored.IsPlain) (isOf : stored.classPath = otherClass.path)
    (isKey : attr ∈ otherClass.keyAttrs) :
    (overwritten objectClass object stored).get? (otherClass.pathOf attr) =
      stored.get? (otherClass.pathOf attr) := by
  rw [overwritten]
  split
  · rename_i hit
    rcases addressed_iff.mp hit with ⟨key, identified, found⟩
    rcases StoreObject.entity?_eq_some_iff.mp found with ⟨storedOf, storedKey⟩
    have sameClass : otherClass = objectClass :=
      ObjectClass.path_injective (isOf.symm.trans storedOf)
    subst sameClass
    rw [StoreObject.get?_mergeFrom,
      ObjectClass.lookup_eq_of_identity?_eq identified storedKey isKey, plain.lookup,
      Option.or_self]
  · rfl

theorem Intact.set (intact : contents.Intact) {merged : StoreObject}
    (done : contents.set objectClass object = .ok (merged, after)) : after.Intact := by
  rcases (set_eq_ok_iff intact.distinct).mp done with ⟨-, -, -, -, rfl⟩
  constructor
  case plain =>
    intro changed member
    rcases List.mem_map.mp member with ⟨stored, old, rfl⟩
    exact isPlain_overwritten (intact.plain stored old)
  case classed =>
    intro changed member
    rcases List.mem_map.mp member with ⟨stored, old, rfl⟩
    rw [classPath_overwritten]
    exact intact.classed stored old
  case distinct =>
    exact intact.distinct.map fun stored member =>
      entity?_overwritten (intact.plain stored member)
  case numbered =>
    intro changed member otherClass isOf allocates
    rcases List.mem_map.mp member with ⟨stored, old, rfl⟩
    rw [classPath_overwritten] at isOf
    rw [get?_key_overwritten (intact.plain stored old) isOf
      (ObjectClass.id_mem_keyAttrs_of_allocatesId allocates)]
    exact intact.numbered stored old otherClass isOf allocates
  case owned =>
    intro changed member mapType isEntry
    rcases List.mem_map.mp member with ⟨entry, old, rfl⟩
    rw [classPath_overwritten] at isEntry
    rcases intact.owned entry old mapType isEntry with
        ⟨id, found, table, tableMember, isTable, tableId⟩
    have isKey : "id" ∈ (ObjectClass.mapEntry mapType).keyAttrs := List.mem_cons_self
    have isTableKey : "id" ∈ (ObjectClass.mapTable mapType).keyAttrs := List.mem_cons_self
    refine ⟨id, ?_, _, List.mem_map_of_mem tableMember, ?_, ?_⟩
    · rw [get?_key_overwritten (intact.plain entry old) isEntry isKey, found]
    · rw [classPath_overwritten, isTable]
    · rw [get?_key_overwritten (intact.plain table tableMember) isTable
        isTableKey, tableId]

/-! ## Deleting -/

theorem goesWith_table
    (isTable : stored.classPath = (ObjectClass.mapTable mapType).path) :
    goesWith objectClass removed stored = false := by
  cases objectClass <;> simp [goesWith, belongsTo, isTable]

theorem goesWith_removed {entry : StoreObject}
    (isEntry : entry.classPath = (ObjectClass.mapEntry mapType).path)
    (same : entry.get? ((ObjectClass.mapEntry mapType).pathOf "id") =
      removed.get? ((ObjectClass.mapTable mapType).pathOf "id")) :
    goesWith (.mapTable mapType) removed entry = true := by
  rw [ObjectClass.pathOf_id_entry, ObjectClass.pathOf_id_table] at same
  simp [goesWith, belongsTo, isEntry, same]

theorem Intact.delete (intact : contents.Intact)
    (done : contents.delete objectClass object = .ok (removed, after)) :
    after.Intact := by
  rcases (delete_eq_ok_iff intact.distinct).mp done with ⟨removedMember, removedHit, rfl⟩
  constructor
  case plain => exact fun stored member =>
    intact.plain stored (List.mem_of_mem_filter member)
  case classed => exact fun stored member =>
    intact.classed stored (List.mem_of_mem_filter member)
  case distinct => exact intact.distinct.filter _
  case numbered =>
    exact fun stored member => intact.numbered stored (List.mem_of_mem_filter member)
  case owned =>
    intro entry member mapType isEntry
    rcases List.mem_filter.mp member with ⟨old, stays⟩
    rcases intact.owned entry old mapType isEntry with
        ⟨id, found, table, tableMember, isTable, tableId⟩
    refine ⟨id, found, table, List.mem_filter.mpr ⟨tableMember, ?_⟩, isTable, tableId⟩
    simp only [Bool.and_eq_true, Bool.not_eq_true'] at stays ⊢
    refine ⟨goesWith_table isTable, Bool.eq_false_iff.mpr fun hit => ?_⟩
    -- Were the table the object removed, the entry would have gone with it.
    rcases addressed_iff.mp hit with ⟨key, identified, tableEntity⟩
    have removedEntity := (addressed_of_identity? identified).mp removedHit
    have isRemoved :=
      intact.distinct.eq_of_entity? removedMember tableMember removedEntity tableEntity
    have sameClass : objectClass = .mapTable mapType := ObjectClass.path_injective
      ((StoreObject.entity?_eq_some_iff.mp tableEntity).1.symm.trans isTable)
    subst sameClass
    rw [isRemoved, goesWith_removed isEntry (found.trans tableId.symm)] at stays
    cases stays.1

/-! ## Every store -/

theorem Intact.keeps {operation : Operation} (plain : operation.object.IsPlain) :
    Keeps Intact operation := by
  intro before after objectClass result isOf intact carried
  rcases operation with ⟨verb, object⟩
  cases verb with
  | create => exact intact.create plain isOf carried
  | set => exact intact.set carried
  | delete => exact intact.delete carried

theorem Intact.apart (intact : contents.Intact) :
    (contents.ofClass objectClass).Pairwise fun left right =>
      ¬∀ attr ∈ objectClass.keyAttrs, ∃ value,
        left.get? (objectClass.pathOf attr) = some value ∧
          right.get? (objectClass.pathOf attr) = some value := by
  refine intact.distinct.ofClass.imp_of_mem ?_
  intro left right leftListed rightListed different agree
  have leftPlain := intact.plain left (mem_ofClass_iff.mp leftListed).1
  have rightPlain := intact.plain right (mem_ofClass_iff.mp rightListed).1
  have same : objectClass.sameEntity left right = true := by
    rw [ObjectClass.sameEntity_iff_agree]
    intro attr isKey
    rw [leftPlain.lookup, rightPlain.lookup]
    exact agree attr isKey
  rw [same] at different
  cases different

end Contents

namespace Memory

variable {memory : Memory}

theorem ReachedBy.intact
    (reached : memory.ReachedBy fun operation => operation.object.IsPlain) :
    memory.contents.Intact := by
  refine reached.holds ?_ fun operation plain => Contents.Intact.keeps plain
  exact ⟨by simp, by simp, .nil, by simp, by simp⟩

/-- Whatever clients have submitted, accepted or rejected, as long as it had no key
data: each stored object is listed for the class of its own path and for no other; no
two of a class agree on all their keys; scheduler groups, scheduler profiles and tables
have an id; and the id of an entry is that of a stored table of its type. -/
theorem transact_keeps_integrity
    (reached : memory.ReachedBy fun operation => operation.object.IsPlain) :
    let contents := memory.contents
    (∀ stored ∈ contents.objects, ∃ objectClass : ObjectClass,
      stored.classPath = objectClass.path ∧
        ∀ other, stored ∈ contents.ofClass other ↔ other = objectClass) ∧
    (∀ objectClass : ObjectClass,
      (contents.ofClass objectClass).Pairwise fun left right =>
      ¬∀ attr ∈ objectClass.keyAttrs, ∃ value,
        left.get? (objectClass.pathOf attr) = some value ∧
          right.get? (objectClass.pathOf attr) = some value) ∧
    (∀ objectClass : ObjectClass, objectClass.allocatesId = true →
      ∀ stored ∈ contents.ofClass objectClass,
        (stored.get? (objectClass.pathOf "id")).isSome = true) ∧
    ∀ mapType, ∀ entry ∈ contents.ofClass (.mapEntry mapType), ∃ id,
      entry.get? ((ObjectClass.mapEntry mapType).pathOf "id") = some id ∧
        ∃ table ∈ contents.ofClass (.mapTable mapType),
          table.get? ((ObjectClass.mapTable mapType).pathOf "id") = some id := by
  intro contents
  have intact := reached.intact
  refine ⟨fun stored member => ?_, fun objectClass => intact.apart,
    fun objectClass allocates stored listed => ?_, fun mapType entry listed => ?_⟩
  · rcases intact.classed stored member with ⟨objectClass, isOf⟩
    refine ⟨objectClass, isOf, fun other => ?_⟩
    rw [Contents.mem_ofClass_iff, isOf, ObjectClass.path_inj]
    exact ⟨fun found => found.2.symm, fun same => ⟨member, same.symm⟩⟩
  · rcases Contents.mem_ofClass_iff.mp listed with ⟨member, isOf⟩
    exact intact.numbered stored member objectClass isOf allocates
  · rcases Contents.mem_ofClass_iff.mp listed with ⟨member, isEntry⟩
    rcases intact.owned entry member mapType isEntry with
        ⟨id, found, table, tableMember, isTable, tableId⟩
    exact ⟨id, found, table, Contents.mem_ofClass_iff.mpr ⟨tableMember, isTable⟩, tableId⟩

/-- A store with one entry, whose table is there. -/
theorem transact_keeps_integrity_entry :
    let table := (ObjectClass.mapTable .dot1pToTc).assemble []
    let entry := (ObjectClass.mapEntry .dot1pToTc).assemble
      [("dot1p", Storage.uint8.word 7), ("id", Storage.uint64.word 4096)]
    let filled := ((Memory.new 0).transact [⟨.create, table⟩, ⟨.create, entry⟩]).2
    filled.ReachedBy (fun operation => operation.object.IsPlain) ∧
      entry ∈ filled.contents.ofClass (.mapEntry .dot1pToTc) ∧
      ∃ table ∈ filled.contents.ofClass (.mapTable .dot1pToTc),
        table.get? ((ObjectClass.mapTable .dot1pToTc).pathOf "id") =
          some (Storage.uint64.word 4096) := by
  intro table entry filled
  have reached : filled.ReachedBy fun operation => operation.object.IsPlain := by
    refine .transact (.new 0) fun operation member => ?_
    rcases List.mem_cons.mp member with rfl | later
    · rfl
    · rw [List.mem_singleton.mp later]
      rfl
  have listed : entry ∈ filled.contents.ofClass (.mapEntry .dot1pToTc) := by
    decide +kernel
  rcases (transact_keeps_integrity reached).2.2.2 _ entry listed with ⟨id, found, owner⟩
  have sameId : id = Storage.uint64.word 4096 := (Option.some.inj found).symm
  rw [sameId] at owner
  exact ⟨reached, listed, owner⟩

end Memory

end SwitchQos
