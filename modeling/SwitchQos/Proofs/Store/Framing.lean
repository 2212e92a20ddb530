import SwitchQos.Proofs.Store.Parts

namespace SwitchQos

/-! What a client may do to a store that it adds to and binds in. Objects of ports may be
bound, each in certain attributes, and what is added belongs to no port. All else that was
stored is stored still. -/

abbrev Bindable := ObjectClass → Nat → Set String

namespace StoreObject

/-- What may become of a stored object. When it is bound, its switch is written again. -/
structure Framed (switchId : Nat) (bindable : Bindable)
    (old new : StoreObject) : Prop where
  wasPlain : old.IsPlain
  plain : new.IsPlain
  classPath : new.classPath = old.classPath
  entity : new.entity? = old.entity?
  port : new.port? = old.port?
  same : (∀ objectClass port, old.classPath = objectClass.path → old.port? = some port →
    bindable objectClass port = ∅) → new = old
  attrs : ∀ path, new.get? path = old.get? path ∨
    ∃ objectClass port, old.classPath = objectClass.path ∧ old.port? = some port ∧
      (path = objectClass.pathOf "switch-id" ∧
          new.get? path = some (Storage.uint32.word switchId) ∨
        ∃ attr ∈ bindable objectClass port, path = objectClass.pathOf attr)

variable {switchId : Nat} {bindable : Bindable} {old middle new : StoreObject}

theorem framed_self (plain : old.IsPlain) : Framed switchId bindable old old :=
  ⟨plain, plain, rfl, rfl, rfl, fun _ => rfl, fun _ => .inl rfl⟩

theorem Framed.trans (first : Framed switchId bindable old middle)
    (second : Framed switchId bindable middle new) :
    Framed switchId bindable old new where
  wasPlain := first.wasPlain
  plain := second.plain
  classPath := second.classPath.trans first.classPath
  entity := second.entity.trans first.entity
  port := second.port.trans first.port
  same none :=
    (second.same (by rwa [first.classPath, first.port])).trans (first.same none)
  attrs := by
    intro path
    have second := second.attrs path
    rw [first.classPath, first.port] at second
    rcases second with kept | bound
    · rw [kept]
      exact first.attrs path
    · exact .inr bound

theorem get?_updatedBy_assemble {objectClass : ObjectClass}
    {values : List (String × StoreValue)} {stored : StoreObject} (plain : stored.IsPlain)
    (same : (objectClass.assemble values).SameEntity stored) (path : String) :
    ((objectClass.assemble values).updatedBy stored).get? path = stored.get? path ∨
      ∃ row ∈ values, row.1 ∉ objectClass.keyAttrs ∧ path = objectClass.pathOf row.1 ∧
        ((objectClass.assemble values).updatedBy stored).get? path = some row.2 := by
  have isPlain : (objectClass.assemble values).IsPlain := ObjectClass.keyData_assemble
  rw [get?_updatedBy, if_pos same, isPlain.lookup]
  cases written : (objectClass.assemble values).get? path with
  | none => exact .inl rfl
  | some value =>
      rcases ObjectClass.mem_of_get?_assemble written with ⟨row, member, rfl, rfl⟩
      by_cases isKey : row.1 ∈ objectClass.keyAttrs
      · rcases same with ⟨⟨entityClass, key⟩, given, found⟩
        rcases entity?_eq_some_iff.mp given with ⟨givenOf, givenKey⟩
        cases ObjectClass.path_injective
          (ObjectClass.classPath_assemble.symm.trans givenOf)
        have agree := ObjectClass.lookup_eq_of_identity?_eq givenKey
          (entity?_eq_some_iff.mp found).2 isKey
        rw [isPlain.lookup, plain.lookup, written] at agree
        exact .inl agree
      · exact .inr ⟨row, member, isKey, rfl, rfl⟩

theorem framed_updatedBy {objectClass : ObjectClass} {values : List (String × StoreValue)}
    {stored : StoreObject} {port : Nat} (plain : stored.IsPlain)
    (onPort : (objectClass.assemble values).SameEntity stored → stored.port? = some port)
    (stays : ((objectClass.assemble values).updatedBy stored).port? = stored.port?)
    (switch : ∀ row ∈ values, row.1 = "switch-id" → row.2 = Storage.uint32.word switchId)
    (others : ∀ row ∈ values, row.1 ∉ objectClass.keyAttrs → row.1 ≠ "switch-id" →
      row.1 ∈ bindable objectClass port)
    (some : (bindable objectClass port).Nonempty) :
    Framed switchId bindable stored ((objectClass.assemble values).updatedBy stored) := by
  by_cases same : (objectClass.assemble values).SameEntity stored
  · have isOf : stored.classPath = objectClass.path := by
      rcases same with ⟨entity, given, found⟩
      exact (entity?_eq_some_iff.mp found).1.trans
        ((entity?_eq_some_iff.mp given).1.symm.trans ObjectClass.classPath_assemble)
    refine ⟨plain, isPlain_updatedBy.mpr plain, classPath_updatedBy,
      entity?_updatedBy plain, stays,
      fun none => ?_, fun path => ?_⟩
    · exact absurd (none _ _ isOf (onPort same)) some.ne_empty
    · refine (get?_updatedBy_assemble plain same path).imp_right ?_
      rintro ⟨row, member, notKey, isPath, written⟩
      refine ⟨objectClass, port, isOf, onPort same, ?_⟩
      by_cases isSwitch : row.1 = "switch-id"
      · exact .inl ⟨isSwitch ▸ isPath, switch row member isSwitch ▸ written⟩
      · exact .inr ⟨row.1, others row member notKey isSwitch, isPath⟩
  · rw [updatedBy, if_neg same]
    exact framed_self plain

end StoreObject

/-! ## Stores -/

namespace Contents

variable {switchId : Nat} {bindable : Bindable} {start middle later : Contents}

structure Binds (switchId : Nat) (bindable : Bindable)
    (start later : Contents) : Prop where
  plain : ∀ stored ∈ later.objects, stored.IsPlain
  distinct : Distinct later.objects
  nextId : later.nextId = start.nextId
  objects : List.Forall₂ (StoreObject.Framed switchId bindable)
    start.objects later.objects

theorem binds_self (plain : ∀ stored ∈ start.objects, stored.IsPlain)
    (distinct : Distinct start.objects) : Binds switchId bindable start start :=
  ⟨plain, distinct, rfl, List.forall₂_same.mpr fun stored member =>
    StoreObject.framed_self (plain stored member)⟩

theorem Binds.trans (first : Binds switchId bindable start middle)
    (second : Binds switchId bindable middle later) :
    Binds switchId bindable start later :=
  ⟨second.plain, second.distinct, second.nextId.trans first.nextId,
    Results.forall₂_trans (fun _ _ _ old new => old.trans new)
      first.objects second.objects⟩

theorem Binds.set {object : StoreObject} (binds : Binds switchId bindable start later)
    (framed : ∀ stored ∈ later.objects,
      StoreObject.Framed switchId bindable stored (object.updatedBy stored)) :
    Binds switchId bindable start (later.rewritten [object]) := by
  refine binds.trans ⟨?_, ?_, rfl, ?_⟩
  · intro stored member
    rcases List.mem_map.mp member with ⟨old, isOld, rfl⟩
    exact (framed old isOld).plain
  · exact binds.distinct.map fun old isOld => (framed old isOld).entity
  · exact List.forall₂_map_right_iff.mpr (List.forall₂_same.mpr framed)

/-- What was stored is stored still, at most bound; behind it there may be more, which has
no key data, stands for other entities, and belongs to no port. -/
structure Extends (switchId : Nat) (bindable : Bindable)
    (start later : Contents) : Prop where
  plain : ∀ stored ∈ later.objects, stored.IsPlain
  distinct : Distinct later.objects
  objects : ∃ olds added, later.objects = olds ++ added ∧
    List.Forall₂ (StoreObject.Framed switchId bindable) start.objects olds ∧
    ∀ new ∈ added, new.port? = none

theorem Binds.extends (binds : Binds switchId bindable start later) :
    Extends switchId bindable start later :=
  ⟨binds.plain, binds.distinct, later.objects, [], (List.append_nil _).symm,
    binds.objects, by simp⟩

theorem extends_self (plain : ∀ stored ∈ start.objects, stored.IsPlain)
    (distinct : Distinct start.objects) : Extends switchId bindable start start :=
  (binds_self plain distinct).extends

theorem Extends.trans (first : Extends switchId bindable start middle)
    (second : Extends switchId bindable middle later) :
    Extends switchId bindable start later where
  plain := second.plain
  distinct := second.distinct
  objects := by
    rcases first.objects with ⟨olds, added, isMiddle, framed, unowned⟩
    rcases second.objects with ⟨middles, others, isLater, framedToo, unownedToo⟩
    rw [isMiddle] at framedToo
    rcases Results.exists_append_of_forall₂ framedToo with
      ⟨news, still, rfl, last, addedToo⟩
    refine ⟨news, still ++ others, by rw [isLater, List.append_assoc], ?_,
      fun new member => ?_⟩
    · exact Results.forall₂_trans (fun _ _ _ old new => old.trans new) framed last
    · rcases List.mem_append.mp member with isStill | isOther
      · rcases Results.exists_left addedToo isStill with ⟨old, isOld, added⟩
        exact added.port.trans (unowned old isOld)
      · exact unownedToo new isOther

theorem Extends.keeps {operation : Operation} {objectClass : ObjectClass}
    (creates : operation.verb = .create) (plain : operation.object.IsPlain)
    (isOf : operation.object.classPath = objectClass.path)
    (unowned : objectClass.ofPort = false) :
    Keeps (Extends switchId bindable start) operation := by
  intro before after otherClass result samePath extends_ carried
  cases ObjectClass.path_injective (isOf.symm.trans samePath)
  rw [creates] at carried
  rcases create_eq_ok_iff.mp carried with ⟨-, completed, -, free, rfl⟩
  have createdOf := (classPath_of_completed? completed).trans isOf
  rcases extends_.objects with ⟨olds, added, isBefore, framed, addedUnowned⟩
  refine ⟨?_, extends_.distinct.append createdOf free, olds,
    added ++ [result], ?_, framed, ?_⟩
  · intro stored member
    rcases List.mem_append.mp member with old | new
    · exact extends_.plain stored old
    · rw [List.mem_singleton.mp new]
      exact isPlain_of_completed? plain completed
  · rw [isBefore, List.append_assoc]
  · intro new member
    rcases List.mem_append.mp member with old | isNew
    · exact addedUnowned new old
    · rw [List.mem_singleton.mp isNew, StoreObject.port?_eq createdOf, unowned]
      rfl

theorem Extends.part (extends_ : Extends switchId bindable start later) (port : Nat) :
    List.Forall₂ (StoreObject.Framed switchId bindable) (start.part (some port))
      (later.part (some port)) := by
  rcases extends_.objects with ⟨olds, added, isLater, framed, unowned⟩
  have none : added.filter (fun stored => stored.port? = some port) = [] := by
    rw [List.filter_eq_nil_iff]
    intro new member
    simp [unowned new member]
  rw [Contents.part, Contents.part, isLater, List.filter_append, none, List.append_nil]
  exact Results.forall₂_filter framed fun old new framed => by rw [framed.port]

section Unowned

variable {objectClass : ObjectClass}

private theorem ofClass_of_framed {olds news : List StoreObject}
    (unowned : objectClass.ofPort = false)
    (framed : List.Forall₂ (StoreObject.Framed switchId bindable) olds news) :
    news.filter (fun stored => stored.classPath = objectClass.path) =
      olds.filter fun stored => stored.classPath = objectClass.path := by
  refine Results.filter_congr framed (fun old new framed => by rw [framed.classPath])
    fun old new framed isOf => framed.same fun _ port _ onPort => ?_
  rw [StoreObject.port?_eq (of_decide_eq_true isOf), unowned] at onPort
  cases onPort

theorem Binds.ofClass (binds : Binds switchId bindable start later)
    (unowned : objectClass.ofPort = false) :
    later.ofClass objectClass = start.ofClass objectClass :=
  ofClass_of_framed unowned binds.objects

theorem Extends.ofClass_subset (extends_ : Extends switchId bindable start later)
    (unowned : objectClass.ofPort = false) :
    start.ofClass objectClass ⊆ later.ofClass objectClass := by
  rcases extends_.objects with ⟨olds, added, isLater, framed, -⟩
  rw [Contents.ofClass, Contents.ofClass, isLater, List.filter_append,
    ofClass_of_framed unowned framed]
  exact List.subset_append_left _ _

end Unowned

end Contents

end SwitchQos
