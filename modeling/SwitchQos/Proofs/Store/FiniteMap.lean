import SwitchQos.Proofs.Store.Operations

namespace SwitchQos

/-! As long as clients address objects by complete keys, the list of stored objects
is a finite map from entities to attributes, and every operation acts on that map.
What makes the map well defined is that no entity is ever stored twice. -/

/-! ## Entities and their attributes -/

abbrev EntityMap := Entity → Option (String → Option StoreValue)

namespace Entity

/-- The table an entry belongs to: the one whose id is the first of its keys. -/
def table? : Entity → Option Entity
  | ⟨.mapEntry mapType, id :: _⟩ => some ⟨.mapTable mapType, [id]⟩
  | _ => none

end Entity

namespace EntityMap

def put (map : EntityMap) (entity : Entity)
    (attrs : String → Option StoreValue) : EntityMap :=
  fun other => if other = entity then some attrs else map other

def remove (map : EntityMap) (entity : Entity) : EntityMap :=
  fun other => if other = entity ∨ other.table? = some entity then none else map other

end EntityMap

def overridden (attrs given : String → Option StoreValue) : String → Option StoreValue :=
  fun path => (given path).or (attrs path)

namespace Contents

variable {contents after : Contents} {objectClass : ObjectClass} {object : StoreObject}
  {entity : Entity}

def entities (contents : Contents) : EntityMap := fun entity =>
  (contents.objects.find? fun stored => stored.entity? = some entity).map StoreObject.get?

theorem entities_eq_none_iff :
    contents.entities entity = none ↔
      ∀ stored ∈ contents.objects, stored.entity? ≠ some entity := by
  simp [entities]

theorem entities_eq_some_iff (distinct : Distinct contents.objects)
    {attrs : String → Option StoreValue} :
    contents.entities entity = some attrs ↔
      ∃ stored ∈ contents.objects, stored.entity? = some entity ∧
      stored.get? = attrs := by
  simp only [entities, Option.map_eq_some_iff]
  constructor
  · rintro ⟨stored, located, rfl⟩
    exact ⟨stored, List.mem_of_find?_eq_some
      located, by simpa using List.find?_some located, rfl⟩
  · rintro ⟨stored, member, found, rfl⟩
    refine ⟨stored, ?_, rfl⟩
    apply find?_eq_some_of_apart _ member (by simpa using found)
    refine distinct.imp fun {left right} apart leftHit rightHit => ?_
    simp only [decide_eq_true_eq] at leftHit rightHit
    exact apart entity leftHit rightHit

theorem entities_isSome_iff :
    contents.entities entity ≠ none ↔
      ∃ stored ∈ contents.objects, stored.entity? = some entity := by
  simp [entities_eq_none_iff]

/-! ## The invariant -/

structure Tidy (contents : Contents) : Prop where
  plain : ∀ stored ∈ contents.objects, stored.IsPlain
  keyed : ∀ stored ∈ contents.objects, ∃ entity, stored.entity? = some entity
  distinct : Distinct contents.objects

theorem entity?_overwritten {stored : StoreObject} (plain : stored.IsPlain) :
    (overwritten objectClass object stored).entity? = stored.entity? := by
  rw [overwritten]
  split
  · rename_i hit
    rcases addressed_iff.mp hit with ⟨key, identified, found⟩
    rcases StoreObject.entity?_eq_some_iff.mp found with ⟨samePath, storedKey⟩
    rw [found, StoreObject.entity?_eq_some_iff]
    exact ⟨samePath, ObjectClass.identity?_mergeFrom plain storedKey identified⟩
  · rfl

theorem isPlain_overwritten {stored : StoreObject} (plain : stored.IsPlain) :
    (overwritten objectClass object stored).IsPlain := by
  rw [overwritten]
  split
  · exact plain.mergeFrom object
  · exact plain

theorem Tidy.created (tidy : contents.Tidy) {created : StoreObject}
    {key : List StoreValue} {nextId : Nat} (plain : created.IsPlain)
    (found : created.entity? = some ⟨objectClass, key⟩)
    (free : ∀ stored ∈ contents.objects, ¬addressed objectClass created stored = true) :
    Tidy ⟨contents.objects ++ [created], nextId⟩ where
  plain := by
    intro stored member
    rcases List.mem_append.mp member with old | new
    · exact tidy.plain stored old
    · rw [List.mem_singleton.mp new]
      exact plain
  keyed := by
    intro stored member
    rcases List.mem_append.mp member with old | new
    · exact tidy.keyed stored old
    · rw [List.mem_singleton.mp new]
      exact ⟨_, found⟩
  distinct := tidy.distinct.append (StoreObject.entity?_eq_some_iff.mp found).1 free

theorem Tidy.overwritten (tidy : contents.Tidy) :
    Tidy ⟨contents.objects.map (overwritten objectClass object), contents.nextId⟩ where
  plain := by
    intro stored member
    rcases List.mem_map.mp member with ⟨old, oldMember, rfl⟩
    exact isPlain_overwritten (tidy.plain old oldMember)
  keyed := by
    intro stored member
    rcases List.mem_map.mp member with ⟨old, oldMember, rfl⟩
    rw [entity?_overwritten (tidy.plain old oldMember)]
    exact tidy.keyed old oldMember
  distinct := tidy.distinct.map fun stored member =>
    entity?_overwritten (tidy.plain stored member)

theorem Tidy.filter (tidy : contents.Tidy) (keep : StoreObject → Bool) :
    Tidy ⟨contents.objects.filter keep, contents.nextId⟩ where
  plain := fun stored member => tidy.plain stored (List.mem_of_mem_filter member)
  keyed := fun stored member => tidy.keyed stored (List.mem_of_mem_filter member)
  distinct := tidy.distinct.filter keep

/-! ## Operations on the map -/

theorem entities_append {created : StoreObject} {nextId : Nat}
    (found : created.entity? = some entity) (absent : contents.entities entity = none) :
    entities ⟨contents.objects ++ [created], nextId⟩ =
      contents.entities.put entity created.get? := by
  funext other
  simp only [entities, EntityMap.put, List.find?_append]
  by_cases same : other = entity
  · subst same
    have missed : contents.objects.find?
        (fun stored => stored.entity? = some other) = none := by
      simpa [entities] using absent
    simp [missed, found]
  · have different : ¬some entity = some other :=
      fun equal => same (Option.some.inj equal).symm
    simp [same, found, different]

theorem entities_overwritten (tidy : contents.Tidy) (plain : object.IsPlain)
    {key : List StoreValue} (identified : objectClass.identity? object = some key)
    {attrs : String → Option StoreValue}
    (present : contents.entities ⟨objectClass, key⟩ = some attrs) :
    entities ⟨contents.objects.map (Contents.overwritten objectClass object),
      contents.nextId⟩ =
      contents.entities.put ⟨objectClass, key⟩ (overridden attrs object.get?) := by
  rcases (entities_eq_some_iff tidy.distinct).mp present with ⟨stored, member, found, rfl⟩
  have hit := (addressed_of_identity? identified).mpr found
  have tidyAfter : Tidy ⟨contents.objects.map
      (Contents.overwritten objectClass object), _⟩ :=
    tidy.overwritten
  funext other
  rw [EntityMap.put]
  split
  · rename_i same
    subst same
    refine (entities_eq_some_iff tidyAfter.distinct).mpr
      ⟨_, List.mem_map_of_mem member, ?_, ?_⟩
    · rw [entity?_overwritten (tidy.plain stored member), found]
    · funext path
      rw [Contents.overwritten, if_pos hit, plain.get?_mergeFrom, overridden]
  · rename_i different
    have unchanged : ∀ old ∈ contents.objects, old.entity? = some other →
        Contents.overwritten objectClass object old = old := by
      intro old _ oldEntity
      rw [Contents.overwritten, if_neg]
      intro oldHit
      rw [(addressed_of_identity? identified).mp oldHit] at oldEntity
      exact different (Option.some.inj oldEntity).symm
    cases old : contents.entities other with
    | none =>
        rw [entities_eq_none_iff] at old ⊢
        intro changed changedMember
        rcases List.mem_map.mp changedMember with ⟨before, beforeMember, rfl⟩
        rw [entity?_overwritten (tidy.plain before beforeMember)]
        exact old before beforeMember
    | some oldAttrs =>
        rcases (entities_eq_some_iff tidy.distinct).mp old with
            ⟨before, beforeMember, beforeEntity, rfl⟩
        have same := unchanged before beforeMember beforeEntity
        refine (entities_eq_some_iff tidyAfter.distinct).mpr
          ⟨before, List.mem_map.mpr ⟨before, beforeMember, same⟩, beforeEntity, rfl⟩

theorem get?_id_of_entry {stored : StoreObject} {mapType : MapType}
    {key : List StoreValue} (plain : stored.IsPlain)
    (found : stored.entity? = some ⟨.mapEntry mapType, key⟩) :
    ∃ id rest, key = id :: rest ∧
      stored.get? ((ObjectClass.mapTable mapType).pathOf "id") = some id := by
  rcases StoreObject.entity?_eq_some_iff.mp found with ⟨-, identified⟩
  rw [ObjectClass.identity?_eq_some_iff] at identified
  have keys : (ObjectClass.mapEntry mapType).keyAttrs = "id" :: mapType.keyFields := rfl
  rw [keys] at identified
  cases identified with
  | cons first _ => exact ⟨_, _, rfl, by rw [← plain.lookup]; exact first⟩

theorem entity?_table_iff {stored : StoreObject} {mapType : MapType} {id : StoreValue}
    (plain : stored.IsPlain) :
    stored.entity? = some ⟨.mapTable mapType, [id]⟩ ↔
      stored.classPath = (ObjectClass.mapTable mapType).path ∧
        stored.get? ((ObjectClass.mapTable mapType).pathOf "id") = some id := by
  rw [StoreObject.entity?_eq_some_iff,
    ObjectClass.identity?_eq_some_singleton rfl, plain.lookup]
  simp

theorem hasParent_iff (tidy : contents.Tidy) {created : StoreObject}
    (plain : created.IsPlain) (found : created.entity? = some entity) :
    contents.hasParent entity.objectClass (entity.objectClass.pathOf "id")
      created = true ↔
      ∀ table, entity.table? = some table → contents.entities table ≠ none := by
  rcases entity with ⟨objectClass, key⟩
  cases objectClass with
  | mapEntry mapType =>
      rcases get?_id_of_entry plain found with ⟨id, rest, rfl, kept⟩
      simp only [hasParent, ObjectClass.parent?, ObjectClass.pathOf_id_entry, kept,
        mem_ofClass_iff, Entity.table?, Option.some.injEq, forall_eq',
        entities_isSome_iff,
        Option.isSome_some, Bool.true_and, List.any_eq_true, decide_eq_true_eq]
      constructor
      · rintro ⟨table, ⟨member, samePath⟩, sameId⟩
        exact ⟨table, member, (entity?_table_iff (tidy.plain table member)).mpr
          ⟨samePath, sameId⟩⟩
      · rintro ⟨table, member, tableEntity⟩
        rcases (entity?_table_iff (tidy.plain table member)).mp tableEntity with
            ⟨samePath, sameId⟩
        exact ⟨table, ⟨member, samePath⟩, sameId⟩
  | _ => simp [hasParent, ObjectClass.parent?, Entity.table?]

theorem goesWith_iff (tidy : contents.Tidy) {removed stored : StoreObject}
    {removedEntity : Entity} (removedMember : removed ∈ contents.objects)
    (member : stored ∈ contents.objects)
    (removedFound : removed.entity? = some removedEntity)
    (found : stored.entity? = some entity) :
    goesWith removedEntity.objectClass removed stored = true ↔
      entity.table? = some removedEntity := by
  have plain := tidy.plain stored member
  rcases removedEntity with ⟨removedClass, removedKey⟩
  rcases entity with ⟨objectClass, key⟩
  have storedPath := (StoreObject.entity?_eq_some_iff.mp found).1
  cases removedClass with
  | mapTable mapType =>
      rcases (ObjectClass.identity?_eq_some_singleton rfl).mp
        (StoreObject.entity?_eq_some_iff.mp removedFound).2 with ⟨id, rfl, tableId⟩
      rw [(tidy.plain removed removedMember).lookup] at tableId
      simp only [goesWith, belongsTo, storedPath, ObjectClass.path_inj, tableId,
        ← ObjectClass.pathOf_id_table, Bool.and_eq_true, decide_eq_true_eq]
      cases objectClass with
      | mapEntry otherType =>
          rcases get?_id_of_entry plain found with ⟨first, rest, rfl, kept⟩
          simp only [Entity.table?, Option.some.injEq, Entity.mk.injEq,
            ObjectClass.mapEntry.injEq, ObjectClass.mapTable.injEq,
            List.cons.injEq, and_true]
          constructor
          · rintro ⟨rfl, sameId⟩
            rw [kept] at sameId
            exact ⟨rfl, Option.some.inj sameId⟩
          · rintro ⟨rfl, rfl⟩
            exact ⟨rfl, kept⟩
      | _ => simp [Entity.table?]
  | _ =>
      simp only [goesWith, Bool.false_eq_true, false_iff]
      intro same
      simp only [Entity.table?] at same
      split at same <;> simp at same

theorem entities_deleted (tidy : contents.Tidy) {key : List StoreValue}
    (identified : objectClass.identity? object = some key) {removed : StoreObject}
    (member : removed ∈ contents.objects)
    (hit : addressed objectClass object removed = true) :
    entities ⟨contents.objects.filter fun stored =>
        !goesWith objectClass removed stored && !addressed objectClass object stored,
        contents.nextId⟩ =
      contents.entities.remove ⟨objectClass, key⟩ := by
  have removedFound := (addressed_of_identity? identified).mp hit
  have dropped : ∀ stored ∈ contents.objects, ∀ other, stored.entity? = some other →
      ((!goesWith objectClass removed stored &&
        !addressed objectClass object stored) = true ↔
        ¬(other = ⟨objectClass, key⟩ ∨ other.table? = some ⟨objectClass, key⟩)) := by
    intro stored storedMember other found
    have cascade := goesWith_iff tidy member storedMember removedFound found
    have direct : addressed objectClass object stored = true ↔ _ :=
      addressed_of_identity? identified
    rw [found, Option.some.injEq] at direct
    rw [not_or, Bool.and_eq_true, Bool.not_eq_true', Bool.not_eq_true',
      ← Bool.not_eq_true, ← Bool.not_eq_true, cascade, direct, and_comm]
  have tidyAfter := tidy.filter fun stored =>
    !goesWith objectClass removed stored && !addressed objectClass object stored
  funext other
  rw [EntityMap.remove]
  split
  · rename_i gone
    rw [entities_eq_none_iff]
    intro stored storedMember found
    rcases List.mem_filter.mp storedMember with ⟨old, kept⟩
    exact (dropped stored old other found).mp kept gone
  · rename_i stays
    cases before : contents.entities other with
    | none =>
        rw [entities_eq_none_iff] at before ⊢
        exact fun stored storedMember =>
          before stored (List.mem_of_mem_filter storedMember)
    | some attrs =>
        rcases (entities_eq_some_iff tidy.distinct).mp before with
            ⟨stored, storedMember, found, rfl⟩
        refine (entities_eq_some_iff tidyAfter.distinct).mpr ⟨stored, ?_, found, rfl⟩
        exact List.mem_filter.mpr
          ⟨storedMember, (dropped stored storedMember other found).mpr stays⟩

end Contents

end SwitchQos
