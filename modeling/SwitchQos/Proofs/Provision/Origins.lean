import SwitchQos.Proofs.Provision.ProfileRenaming
import SwitchQos.Proofs.Store.Traces

namespace SwitchQos

/-! Where the groups and queues come from that provisioning finds. They are found by a
few attributes that nothing ever changes, so all that are found on the way, and the ids
that are read off them, were stored at the start, however the store refuses or puts off
what it is asked. -/

namespace ObjectClass

def locators : ObjectClass → List String
  | .schedulerGroup => ["id", "port-id", "level"]
  | .queue => ["id", "port-id", "type", "queue-number"]
  | _ => []

end ObjectClass

namespace StoreObject

structure StandsFor (new old : StoreObject) : Prop where
  classPath : new.classPath = old.classPath
  located : ∀ objectClass : ObjectClass, new.classPath = objectClass.path →
    ∀ attr ∈ objectClass.locators,
      new.get? (objectClass.pathOf attr) = old.get? (objectClass.pathOf attr)

variable {new old object : StoreObject}

theorem standsFor_self (stored : StoreObject) : stored.StandsFor stored :=
  ⟨rfl, fun _ _ _ _ => rfl⟩

theorem StandsFor.isGroup {port level id : Nat} (stands : new.StandsFor old)
    (plain : new.IsPlain) (wasPlain : old.IsPlain) (isGroup : new.IsGroup port level id) :
    old.IsGroup port level id := by
  rcases isGroup with ⟨isOf, onPort, onLevel, hasId⟩
  have same {attr : String} (locates : attr ∈ ObjectClass.schedulerGroup.locators) :
      ObjectClass.schedulerGroup.number? attr old =
        ObjectClass.schedulerGroup.number? attr new :=
    ObjectClass.number?_congr (by
      rw [plain.lookup, wasPlain.lookup, stands.located _ isOf attr locates])
  exact ⟨stands.classPath.symm.trans isOf, (same (by decide)).trans onPort,
    (same (by decide)).trans onLevel, (same (by decide)).trans hasId⟩

theorem StandsFor.isQueue {key : QueueKey} (stands : new.StandsFor old)
    (plain : new.IsPlain) (wasPlain : old.IsPlain) (isQueue : new.IsQueue key) :
    old.IsQueue key ∧
      ObjectClass.queue.number? "id" old = ObjectClass.queue.number? "id" new := by
  rcases isQueue with ⟨isOf, onPort, ofType, hasNumber⟩
  have same {attr : String} (locates : attr ∈ ObjectClass.queue.locators) :
      old.lookup (ObjectClass.queue.pathOf attr) =
        new.lookup (ObjectClass.queue.pathOf attr) := by
    rw [plain.lookup, wasPlain.lookup, stands.located _ isOf attr locates]
  exact ⟨⟨stands.classPath.symm.trans isOf,
    (ObjectClass.number?_congr (same (by decide))).trans onPort,
    (ObjectClass.decode_congr (same (by decide))).trans ofType,
    (ObjectClass.number?_congr (same (by decide))).trans hasNumber⟩,
    ObjectClass.number?_congr (same (by decide))⟩

/-- A stored object that an object addresses, and that takes over its attributes, is found
as before if these name no locator but keys. -/
theorem standsFor_mergeFrom {objectClass : ObjectClass} (plain : old.IsPlain)
    (isOf : old.classPath = objectClass.path)
    (same : objectClass.sameEntity old object = true)
    (spares : ∀ attr ∈ objectClass.locators, attr ∉ objectClass.keyAttrs →
      object.lookup (objectClass.pathOf attr) = none) :
    (old.mergeFrom object).StandsFor old := by
  refine ⟨rfl, fun otherClass otherOf attr locates => ?_⟩
  cases ObjectClass.path_injective (isOf.symm.trans otherOf)
  rw [get?_mergeFrom]
  by_cases isKey : attr ∈ objectClass.keyAttrs
  · rcases ObjectClass.sameEntity_iff_agree.mp same attr isKey with ⟨value, has, given⟩
    rw [given, ← plain.lookup, has]
    rfl
  · rw [spares attr locates isKey]
    rfl

end StoreObject

def Operation.KeepsPlaces (operation : Operation) : Prop :=
  operation.object.IsPlain ∧ ∃ objectClass : ObjectClass,
    operation.object.classPath = objectClass.path ∧
    (operation.verb = .create ∧ objectClass.ofTree = false ∨
      operation.verb = .set ∧ ∀ attr ∈ objectClass.locators, attr ∉ objectClass.keyAttrs →
        operation.object.lookup (objectClass.pathOf attr) = none)

namespace Contents

variable {start current after : Contents} {objectClass : ObjectClass}
  {object merged stored : StoreObject}

theorem mem_of_mem_replaceFirst {condition : StoreObject → Bool}
    {replacement : StoreObject} {objects : List StoreObject}
    (member : stored ∈ replaceFirst condition replacement objects) :
    stored ∈ objects ∨ stored = replacement := by
  induction objects with
  | nil => cases member
  | cons first rest induction =>
      rw [replaceFirst] at member
      split at member
      · rcases List.mem_cons.mp member with same | later
        · exact .inr same
        · exact .inl (List.mem_cons_of_mem _ later)
      · rcases List.mem_cons.mp member with rfl | later
        · exact .inl List.mem_cons_self
        · exact (induction later).imp_left (List.mem_cons_of_mem _)

theorem mem_of_set (set : current.set objectClass object = .ok (merged, after))
    (member : stored ∈ after.objects) :
    stored ∈ current.objects ∨ ∃ old ∈ current.objects,
      addressed objectClass object old = true ∧ stored = old.mergeFrom object := by
  rw [Contents.set] at set
  split at set
  · cases set
  · rename_i old located
    cases set
    refine (mem_of_mem_replaceFirst member).imp_right fun same => ?_
    exact ⟨old, List.mem_of_find?_eq_some located, List.find?_some located, same⟩

/-- All groups and queues were stored at the start, and are found where they were. -/
structure DescendsFrom (start current : Contents) : Prop where
  plain : ∀ stored ∈ current.objects, stored.IsPlain
  origin : ∀ stored ∈ current.objects, ∀ objectClass : ObjectClass,
    objectClass.ofTree = true →
    stored.classPath = objectClass.path →
      ∃ old ∈ start.objects, old.IsPlain ∧ stored.StandsFor old

theorem descendsFrom_self (plain : ∀ stored ∈ start.objects, stored.IsPlain) :
    start.DescendsFrom start :=
  ⟨plain, fun stored member _ _ _ =>
    ⟨stored, member, plain stored member, stored.standsFor_self⟩⟩

theorem DescendsFrom.keeps {operation : Operation} (keepsPlaces : operation.KeepsPlaces) :
    Keeps start.DescendsFrom operation := by
  rintro before after objectClass result samePath descends carried
  rcases keepsPlaces with ⟨plain, otherClass, isOf, ⟨creates, noTree⟩ | ⟨sets, spares⟩⟩
  all_goals cases ObjectClass.path_injective (samePath.symm.trans isOf)
  -- What is created is no group and no queue, so it need not come from anything.
  · rw [creates] at carried
    rcases create_eq_ok_iff.mp carried with ⟨-, completed, -, -, rfl⟩
    refine ⟨fun stored member => ?_, fun stored member ofClass isTree storedOf => ?_⟩
    · rcases List.mem_append.mp member with old | new
      · exact descends.plain stored old
      · rw [List.mem_singleton.mp new]
        exact isPlain_of_completed? plain completed
    · rcases List.mem_append.mp member with old | new
      · exact descends.origin stored old ofClass isTree storedOf
      · rw [List.mem_singleton.mp new, classPath_of_completed? completed,
          isOf] at storedOf
        cases ObjectClass.path_injective storedOf
        cases noTree.symm.trans isTree
  -- What is set takes the place of a stored object, and comes from where that does.
  · rw [sets] at carried
    refine ⟨fun stored member => ?_, fun stored member ofClass isTree storedOf => ?_⟩
    · rcases mem_of_set carried member with old | ⟨old, isOld, -, rfl⟩
      · exact descends.plain stored old
      · exact (descends.plain old isOld).mergeFrom _
    · rcases mem_of_set carried member with old | ⟨old, isOld, hit, rfl⟩
      · exact descends.origin stored old ofClass isTree storedOf
      · rcases Bool.and_eq_true_iff.mp hit with ⟨oldOf, same⟩
        have moved := StoreObject.standsFor_mergeFrom (descends.plain old isOld)
          (of_decide_eq_true oldOf) same spares
        rcases descends.origin old isOld ofClass isTree storedOf with
          ⟨first, isFirst, wasPlain, stands⟩
        refine ⟨first, isFirst, wasPlain, moved.classPath.trans stands.classPath, ?_⟩
        intro _ isOne attr locates
        rw [moved.located _ isOne attr locates]
        exact stands.located _ isOne attr locates

/-! ## Replies -/

/-- What a store may reply whose groups and queues come from these contents. -/
def replies (start : Contents) : Replies where
  answers template reply := ∃ memory : Memory, start.DescendsFrom memory.contents ∧
    reply = (memory.query template).1
  confirms batch given := ∃ (memory : Memory) (contents : Contents),
    start.DescendsFrom memory.contents ∧
      memory.contents.performAll memory.rules batch = .ok (given, contents)

theorem exists_of_answers {template answer : StoreObject} {answers : List StoreObject}
    (answered : start.replies.answers template (.ok answers))
    (isOf : template.classPath = objectClass.path)
    (noTable : ∀ mapType, objectClass ≠ .mapTable mapType) (member : answer ∈ answers) :
    ∃ current stored, start.DescendsFrom current ∧ stored ∈ current.objects ∧
      stored.classPath = objectClass.path ∧ stored.agreesWith template = true ∧
      answer = stored.answer objectClass := by
  rcases answered with ⟨memory, descends, replied⟩
  have available : memory.unavailable = 0 := by
    by_contra waiting
    rw [Memory.query, if_pos (Nat.pos_of_ne_zero waiting)] at replied
    cases replied
  rw [Memory.query_eq template available isOf noTable] at replied
  cases replied
  rcases List.mem_map.mp member with ⟨stored, isMatch, rfl⟩
  rcases List.mem_filter.mp isMatch with ⟨listed, agrees⟩
  rcases mem_ofClass_iff.mp listed with ⟨isStored, storedOf⟩
  exact ⟨memory.contents, stored, descends, isStored, storedOf, agrees, rfl⟩

end Contents

/-- In memory an exchange brings what it may bring on any store with these
groups and queues. -/
theorem Memory.logs_of_ends {Result : Type} {exchange : Exchange Result}
    {start : Contents} {before after : Memory} {result : Result}
    {post : List Operation → Result → Prop} (brings : exchange.Brings start.replies post)
    (submits : exchange.Submits fun batch => ∀ operation ∈ batch, operation.KeepsPlaces)
    (descends : start.DescendsFrom before.contents)
    (ends : exchange.Ends responder before result after) :
    ∃ operations, after.log = before.log ++ operations ∧ post operations result ∧
      start.DescendsFrom after.contents :=
  brings_of_ends brings submits (fun _ memory descends => ⟨memory, descends, rfl⟩)
    (fun memory _ _ contents descends performed =>
      ⟨memory, contents, descends, performed⟩)
    (fun _ keeps operation member => Contents.DescendsFrom.keeps (keeps operation member))
    descends ends

/-! ## What is found -/

def GroupIndex.StoredIn (contents : Contents) (port : Nat) (index : GroupIndex) : Prop :=
  ∀ level ordinal id, index.get? level ordinal = some id →
    ∃ stored ∈ contents.objects, stored.IsGroup port level id

namespace Scheduler

open SwitchQos.Task

variable {scheduler : Scheduler} {start : Contents} {port : Port} {key : QueueKey}

theorem isGroup_of_groupPosition {name : String} {stored : StoreObject}
    {position : Nat × Nat} (plain : stored.IsPlain)
    (isOf : stored.classPath = ObjectClass.schedulerGroup.path)
    {onPort : Nat}
    (isOn : ObjectClass.schedulerGroup.number? "port-id" stored = some onPort)
    (located : groupPosition name (stored.answer .schedulerGroup) = .ok position) :
    stored.IsGroup onPort position.1 position.2 := by
  have levelSpec : ObjectClass.schedulerGroup.spec? "level" =
    some (.scalar .uint32) := rfl
  have idSpec : ObjectClass.schedulerGroup.spec? "id" = some (.scalar .uint64) := rfl
  have hasId :=
    (Record.id_answer_iff idSpec ⟨rfl, rfl⟩).mp (id_of_groupPosition isOf located)
  refine ⟨isOf, isOn, ?_, (plain.number?_eq_some_iff idSpec ⟨rfl, rfl⟩).mpr hasId⟩
  simp only [groupPosition, Record.wrap_answer isOf, Results.bind_eq_ok_iff,
    Results.mapError_eq_ok_iff, Except.ok.injEq, exists_eq_left'] at located
  rcases located with ⟨level, read, located⟩
  split at located
  · cases located
  · rename_i number isNumber
    rcases Results.bind_eq_ok_iff.mp located with ⟨id, -, located⟩
    rcases Option.bind_eq_some_iff.mp isNumber with ⟨value, rfl, natural⟩
    have decoded : ObjectClass.schedulerGroup.decode "level"
      (stored.answer .schedulerGroup) =
        .ok (some value) := read
    rcases ObjectClass.decode_natural levelSpec ⟨rfl, rfl⟩ decoded with ⟨given, rfl⟩
    cases natural
    have shown := (ObjectClass.decode_uint_iff levelSpec ⟨rfl, rfl⟩).mp decoded
    rw [StoreObject.lookup_answer] at shown
    cases id with
    | none => cases located
    | some id =>
        cases located
        exact (plain.number?_eq_some_iff levelSpec ⟨rfl, rfl⟩).mpr shown

theorem looks_readGroups :
    (scheduler.readGroups port).Looks start.replies
      (GroupIndex.StoredIn start port.ifindex) := by
  rw [readGroups, portGroups, bind_assoc]
  refine looks_ofCodec.bind fun template built =>
    looks_query.bind fun answers answered => ?_
  rcases portSchedulerGroups_eq_ok_iff.mp built with ⟨switchFits, portFits, rfl⟩
  refine Looks.bind (looks_done fun positions read => read) fun positions read => ?_
  refine looks_done fun index filled level ordinal id listed => ?_
  cases filled
  have none : (({} : GroupIndex).level level).Pairwise (· < ·) := .nil
  have inPositions : (level, id) ∈ positions :=
    (((GroupIndex.level_foldl_insert positions none).2 id).mp
      (List.mem_of_getElem? listed)).resolve_left List.not_mem_nil
  rcases Results.exists_of_mem_mapM read _ inPositions with ⟨answer, isAnswer, located⟩
  rcases Contents.exists_of_answers answered ObjectClass.classPath_assemble
      (by simp) isAnswer with
    ⟨current, stored, descends, member, isOf, agrees, rfl⟩
  have plain := descends.plain stored member
  have onPort := ((agreesWith_portGroups_iff plain switchFits portFits).mp agrees).1
  rcases descends.origin stored member _ rfl isOf with ⟨old, isOld, wasPlain, stands⟩
  exact ⟨old, isOld, stands.isGroup plain wasPlain
    (isGroup_of_groupPosition plain isOf onPort located)⟩

theorem looks_queueId :
    (scheduler.queueId key).Looks start.replies fun id? => ∀ id, id? = some id →
      ∃ stored ∈ start.objects, stored.IsQueue key ∧
        ObjectClass.queue.number? "id" stored = some id := by
  refine looks_ofCodec.bind fun template built =>
    looks_query.bind fun answers answered => ?_
  rcases queueObject_eq_ok_iff.mp built with ⟨-, portFits, numberFits, code, encoded, rfl⟩
  cases answers with
  | nil => exact looks_done fun _ same id isId => by cases same; cases isId
  | cons answer others =>
      rcases Contents.exists_of_answers answered ObjectClass.classPath_assemble (by simp)
        List.mem_cons_self with ⟨current, stored, descends, member, isOf, agrees, rfl⟩
      refine looks_done fun id? shown id isId => ?_
      subst isId
      rw [Results.mapError_eq_ok_iff, Record.wrap_answer isOf] at shown
      have idSpec : ObjectClass.queue.spec? "id" = some (.scalar .uint64) := rfl
      have plain := descends.plain stored member
      have isEntity := ((StoreObject.agreesWith_queue_iff plain isOf).mp agrees).1
      have isQueue :=
        StoreObject.isQueue_iff.mpr ⟨portFits, numberFits, code, encoded, isEntity⟩
      have hasId := (plain.number?_eq_some_iff idSpec ⟨rfl, rfl⟩).mpr
        ((Record.id_answer_iff idSpec ⟨rfl, rfl⟩).mp shown)
      rcases descends.origin stored member _ rfl isOf with ⟨old, isOld, wasPlain, stands⟩
      rcases stands.isQueue plain wasPlain isQueue with ⟨wasQueue, sameId⟩
      exact ⟨old, isOld, wasQueue, sameId.trans hasId⟩

end Scheduler

end SwitchQos
