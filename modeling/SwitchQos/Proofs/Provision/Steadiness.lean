import SwitchQos.Proofs.Provision.TreeSettings
import SwitchQos.Proofs.Store.Rewriting

namespace SwitchQos

/-! What provisioning a port depends on. Groups are discovered and queues are looked up
by a few attributes, and none of these is ever bound. So a look-up brings the same result
on every store that is alike in them, whatever has been bound meanwhile. -/

/-! ## Alike stores -/

namespace StoreObject

/-- The paths of a stored object that provisioning the port depends on,
beside its keys. -/
def consulted (port : Nat) (stored : StoreObject) : List String :=
  if stored.classPath = ObjectClass.schedulerGroup.path then
    ["id", "port-id", "switch-id", "level"].map ObjectClass.schedulerGroup.pathOf
  else if stored.classPath = ObjectClass.queue.path ∧
      ObjectClass.queue.number? "port-id" stored = some port then
    ["id", "switch-id"].map ObjectClass.queue.pathOf
  else []

/-- To provisioning of the port, `new` looks like `old`. -/
structure Alike (port : Nat) (old new : StoreObject) : Prop where
  wasPlain : old.IsPlain
  plain : new.IsPlain
  classPath : new.classPath = old.classPath
  entity : new.entity? = old.entity?
  consulted : ∀ path ∈ old.consulted port, new.get? path = old.get? path

def Spares (port : Nat) (object old : StoreObject) : Prop :=
  object.SameEntity old → ∀ path ∈ old.consulted port, ∀ value,
    object.lookup path = some value → old.get? path = some value

variable {port : Nat} {old new object : StoreObject}

theorem Alike.refl (plain : old.IsPlain) : Alike port old old :=
  ⟨plain, plain, rfl, rfl, fun _ _ => rfl⟩

theorem Alike.updatedBy (alike : Alike port old new) (spares : object.Spares port old) :
    Alike port old (object.updatedBy new) where
  wasPlain := alike.wasPlain
  plain := isPlain_updatedBy.mpr alike.plain
  classPath := classPath_updatedBy.trans alike.classPath
  entity := (entity?_updatedBy alike.plain).trans alike.entity
  consulted := by
    intro path isConsulted
    rw [get?_updatedBy]
    split
    · rename_i same
      cases written : object.lookup path with
      | none => exact alike.consulted path isConsulted
      | some value =>
          have there :=
            spares ((sameEntity_congr alike.entity).mp same) path isConsulted value
            written
          rw [there]
          rfl
    · exact alike.consulted path isConsulted

theorem Alike.rewritten {given : List StoreObject} (alike : Alike port old new)
    (spare : ∀ object ∈ given, object.Spares port old) :
    Alike port old (StoreObject.rewritten given new) := by
  induction given generalizing new with
  | nil => exact alike
  | cons object rest induction =>
      exact induction (alike.updatedBy (spare object List.mem_cons_self))
          fun other member =>
        spare other (List.mem_cons_of_mem _ member)

theorem Alike.group (alike : Alike port old new)
    (isOf : old.classPath = ObjectClass.schedulerGroup.path) {attr : String}
    (isConsulted : attr ∈ ["id", "port-id", "switch-id", "level"]) :
    new.get? (ObjectClass.schedulerGroup.pathOf attr) =
      old.get? (ObjectClass.schedulerGroup.pathOf attr) := by
  apply alike.consulted
  rw [StoreObject.consulted, if_pos isOf]
  exact List.mem_map_of_mem isConsulted

theorem Alike.queue (alike : Alike port old new)
    (isOf : old.classPath = ObjectClass.queue.path)
    (onPort : ObjectClass.queue.number? "port-id" old = some port) {attr : String}
    (isConsulted : attr ∈ ["id", "switch-id"]) :
    new.get? (ObjectClass.queue.pathOf attr) =
      old.get? (ObjectClass.queue.pathOf attr) := by
  apply alike.consulted
  have noGroup : ¬old.classPath = ObjectClass.schedulerGroup.path := by
    rw [isOf, ObjectClass.path_inj]
    decide
  rw [StoreObject.consulted, if_neg noGroup, if_pos ⟨isOf, onPort⟩]
  exact List.mem_map_of_mem isConsulted

end StoreObject

structure Memory.Alike (port : Nat) (start : Contents) (memory : Memory) : Prop where
  available : memory.unavailable = 0
  objects : List.Forall₂ (StoreObject.Alike port) start.objects memory.contents.objects

theorem Memory.alike_self {port : Nat} {memory : Memory}
    (available : memory.unavailable = 0)
    (plain : ∀ stored ∈ memory.contents.objects, stored.IsPlain) :
    memory.Alike port memory.contents :=
  ⟨available, List.forall₂_same.mpr fun stored member => .refl (plain stored member)⟩

namespace Task

open Exchange

variable {Result Other Item : Type} {port : Nat} {start : Contents}

/-! ## Look-ups -/

/-- On every store that is alike, the task brings the result and changes nothing. -/
def Finds (port : Nat) (start : Contents) (task : Task Result)
    (result : Except ProvisionError Result) : Prop :=
  ∀ memory : Memory, memory.Alike port start →
    task.run.Ends Memory.responder memory result memory

def Steady (port : Nat) (start : Contents) (task : Task Result) : Prop :=
  ∃ result, task.Finds port start result

theorem finds_done (result : Except ProvisionError Result) :
    Finds port start (ExceptT.mk (.done result)) result :=
  fun _ _ => ends_done_iff.mpr ⟨rfl, rfl⟩

theorem steady_done (result : Except ProvisionError Result) :
    Steady port start (ExceptT.mk (.done result)) :=
  ⟨result, finds_done result⟩

theorem Finds.bind {task : Task Result} {next : Result → Task Other} {value : Result}
    {result : Except ProvisionError Other} (first : task.Finds port start (.ok value))
    (last : (next value).Finds port start result) :
    (task >>= next).Finds port start result :=
  fun memory alike => ends_bind (first memory alike) (last memory alike)

theorem Finds.bind_error {task : Task Result} {error : ProvisionError}
    (first : task.Finds port start (.error error)) (next : Result → Task Other) :
    (task >>= next).Finds port start (.error error) :=
  fun memory alike => ends_bind_iff.mpr (.inr ⟨error, first memory alike, rfl⟩)

theorem Steady.bind {task : Task Result} {next : Result → Task Other}
    (first : task.Steady port start) (last : ∀ value, (next value).Steady port start) :
    (task >>= next).Steady port start := by
  rcases first with ⟨found, finds⟩
  cases found with
  | error error => exact ⟨_, finds.bind_error next⟩
  | ok value =>
      rcases last value with ⟨result, lastFinds⟩
      exact ⟨result, finds.bind lastFinds⟩

theorem steady_mapM {step : Item → Task Result} {items : List Item}
    (each : ∀ item ∈ items, (step item).Steady port start) :
    (items.mapM step).Steady port start := by
  induction items with
  | nil => exact steady_done (.ok [])
  | cons item rest induction =>
      rw [List.mapM_cons]
      have others :=
        induction fun other member => each other (List.mem_cons_of_mem _ member)
      exact (each item List.mem_cons_self).bind fun first => others.bind fun later =>
        steady_done (.ok (first :: later))

end Task

/-! ## Groups -/

namespace Scheduler

variable {scheduler : Scheduler} {start : Contents} {port : Port}

theorem groupPosition_congr {name : String} {old new : StoreObject}
    (wasOf : old.classPath = ObjectClass.schedulerGroup.path)
    (isOf : new.classPath = ObjectClass.schedulerGroup.path)
    (sameLevel : new.get? (ObjectClass.schedulerGroup.pathOf "level") =
      old.get? (ObjectClass.schedulerGroup.pathOf "level"))
    (sameId : new.get? (ObjectClass.schedulerGroup.pathOf "id") =
      old.get? (ObjectClass.schedulerGroup.pathOf "id")) :
    groupPosition name (new.answer .schedulerGroup) =
      groupPosition name (old.answer .schedulerGroup) := by
  have decoded {attr : String} (same : new.get? (ObjectClass.schedulerGroup.pathOf attr) =
      old.get? (ObjectClass.schedulerGroup.pathOf attr)) :
      ObjectClass.schedulerGroup.decode attr (new.answer .schedulerGroup) =
        ObjectClass.schedulerGroup.decode attr (old.answer .schedulerGroup) := by
    apply ObjectClass.decode_congr
    rw [StoreObject.lookup_answer, StoreObject.lookup_answer, same]
  simp only [groupPosition, Record.wrap_answer isOf,
    Record.wrap_answer wasOf, Record.attr,
    Record.id, Record.objectClass, Record.data, ObjectClass.decodeNat, decoded sameLevel,
    decoded sameId, Except.mapError, Results.ok_bind]

theorem isMatch_portGroups_congr {old new : StoreObject} {switchId onPort : Nat}
    {template : Authored} (built : portSchedulerGroups switchId onPort = .ok template)
    (alike : StoreObject.Alike onPort old new) :
    (new.agreesWith template.data &&
      decide (new.classPath = ObjectClass.schedulerGroup.path)) =
      (old.agreesWith template.data &&
        decide (old.classPath = ObjectClass.schedulerGroup.path)) := by
  rcases portSchedulerGroups_eq_ok_iff.mp built with ⟨switchFits, portFits, rfl⟩
  rw [alike.classPath]
  by_cases wasOf : old.classPath = ObjectClass.schedulerGroup.path
  · have sameNumber {attr : String}
        (isConsulted : attr ∈ ["id", "port-id", "switch-id", "level"]) :
        ObjectClass.schedulerGroup.number? attr new =
          ObjectClass.schedulerGroup.number? attr old := by
      apply ObjectClass.number?_congr
      rw [alike.plain.lookup, alike.wasPlain.lookup, alike.group wasOf isConsulted]
    rw [Bool.eq_iff_iff, Bool.and_eq_true_iff, Bool.and_eq_true_iff,
      Authored.data_assembled, agreesWith_portGroups_iff alike.plain switchFits portFits,
      agreesWith_portGroups_iff alike.wasPlain switchFits portFits, sameNumber (by simp),
      sameNumber (by simp)]
  · simp [wasOf]

def discovered (scheduler : Scheduler) (contents : Contents) (port : Port) :
    Except ProvisionError GroupIndex := do
  let template ← (portSchedulerGroups scheduler.switchId port.ifindex).mapError .codec
  let matching := (contents.ofClass .schedulerGroup).filter fun stored =>
    stored.agreesWith template.data
  let positions ← (matching.map (StoreObject.answer .schedulerGroup)).mapM
    (groupPosition port.name)
  return positions.foldl (fun index position => index.insert position.1 position.2) {}

theorem discovered_congr {other : Contents}
    (alike : List.Forall₂ (StoreObject.Alike port.ifindex) start.objects other.objects) :
    scheduler.discovered other port = scheduler.discovered start port := by
  rw [discovered, discovered]
  cases built : portSchedulerGroups scheduler.switchId port.ifindex with
  | error cause => rfl
  | ok template =>
      simp only [Except.mapError, Results.ok_bind, Contents.ofClass, List.filter_filter,
        Results.mapM_eq_mapM_id (groupPosition port.name), List.map_map,
        Function.comp_def]
      rw [Results.map_filter_congr alike (fun old new => isMatch_portGroups_congr built)
        fun old new first isMatch => ?_]
      have wasOf := of_decide_eq_true (Bool.and_eq_true_iff.mp isMatch).2
      exact groupPosition_congr wasOf (first.classPath.trans wasOf)
        (first.group wasOf (by simp)) (first.group wasOf (by simp))

theorem readGroups_finds :
    (scheduler.readGroups port).Finds port.ifindex start
      (scheduler.discovered start port) := by
  intro memory alike
  rw [← discovered_congr alike.objects, discovered]
  cases built : portSchedulerGroups scheduler.switchId port.ifindex with
  | error cause =>
      simp only [readGroups, portGroups, built]
      rfl
  | ok template =>
      have isOf : template.data.classPath = ObjectClass.schedulerGroup.path := by
        rcases portSchedulerGroups_eq_ok_iff.mp built with ⟨-, -, rfl⟩
        exact ObjectClass.classPath_assemble
      have answered := Memory.query_eq template.data alike.available isOf (by simp)
      have asked : (scheduler.portGroups port.ifindex).run.Ends Memory.responder
          memory _ memory :=
        Task.ends_bind (Task.ends_ofCodec built) (Task.ends_query answered)
      refine Task.ends_bind asked ?_
      simp only [Except.mapError, Results.ok_bind]
      cases (((memory.contents.ofClass .schedulerGroup).filter fun stored =>
        stored.agreesWith template.data).map (StoreObject.answer .schedulerGroup)).mapM
          (groupPosition port.name) <;> rfl

theorem readGroups_discovers {memory : Memory} (available : memory.unavailable = 0)
    (plain : ∀ stored ∈ memory.contents.objects, stored.IsPlain) :
    (scheduler.readGroups port).run.Ends Memory.responder memory
      (scheduler.discovered memory.contents port) memory :=
  readGroups_finds memory (Memory.alike_self available plain)

/-- Discovery changes nothing that is stored. What it finds has been discovered, and it
may find nothing because the store does not answer. -/
theorem readGroups_ends_any {memory : Memory}
    (plain : ∀ stored ∈ memory.contents.objects, stored.IsPlain) :
    ∃ found after, (scheduler.readGroups port).run.Ends Memory.responder
      memory found after ∧
      after.contents = memory.contents ∧ after.rules = memory.rules ∧
      ∀ index, found = .ok index →
      scheduler.discovered memory.contents port = .ok index := by
  rcases Nat.eq_zero_or_pos memory.unavailable with available | waiting
  · exact ⟨_, memory, readGroups_discovers available plain, rfl, rfl, fun _ same => same⟩
  · cases built : portSchedulerGroups scheduler.switchId port.ifindex with
    | error cause =>
        refine ⟨.error (.codec cause), memory, ?_, rfl, rfl, by simp⟩
        simp only [readGroups, portGroups, built]
        rfl
    | ok template =>
        have answered : memory.query template.data =
            (.error .unavailable,
              { memory with unavailable := memory.unavailable - 1 }) := by
          rw [Memory.query, if_pos waiting]
        have asked : (scheduler.portGroups port.ifindex).run.Ends
            Memory.responder memory _ _ :=
          Task.ends_bind (Task.ends_ofCodec built) (Task.ends_query_reply answered)
        exact ⟨_, _, Task.ends_bind_iff.mpr (.inr ⟨_, asked, rfl⟩), rfl, rfl, by simp⟩

theorem id_of_groupPosition {name : String} {stored : StoreObject} {position : Nat × Nat}
    (isOf : stored.classPath = ObjectClass.schedulerGroup.path)
    (located : groupPosition name (stored.answer .schedulerGroup) = .ok position) :
    (Record.view .schedulerGroup (stored.answer .schedulerGroup)).id =
      .ok (some position.2) := by
  simp only [groupPosition, Record.wrap_answer isOf, Results.bind_eq_ok_iff,
    Results.mapError_eq_ok_iff, Except.ok.injEq, exists_eq_left'] at located
  rcases located with ⟨level, -, located⟩
  split at located
  · cases located
  · rcases Results.bind_eq_ok_iff.mp located with ⟨id, read, located⟩
    cases id with
    | none => cases located
    | some id =>
        cases located
        exact Results.mapError_eq_ok_iff.mp read

theorem exists_of_discovered {contents : Contents} {index : GroupIndex}
    {level ordinal id : Nat} (plain : ∀ stored ∈ contents.objects, stored.IsPlain)
    (found : scheduler.discovered contents port = .ok index)
    (listed : index.get? level ordinal = some id) :
    ∃ stored ∈ contents.objects, stored.entity? =
      some ⟨.schedulerGroup, [Storage.uint64.word id]⟩ ∧
      stored.get? (ObjectClass.schedulerGroup.pathOf "switch-id") =
        some (Storage.uint32.word scheduler.switchId) ∧
      ObjectClass.schedulerGroup.number? "port-id" stored = some port.ifindex := by
  rcases Results.bind_eq_ok_iff.mp found with ⟨template, built, found⟩
  rcases portSchedulerGroups_eq_ok_iff.mp (Results.mapError_eq_ok_iff.mp built) with
    ⟨switchFits, portFits, rfl⟩
  rcases Results.bind_eq_ok_iff.mp found with ⟨positions, read, filled⟩
  cases filled
  have none : (({} : GroupIndex).level level).Pairwise (· < ·) := .nil
  have inPositions : (level, id) ∈ positions :=
    (((GroupIndex.level_foldl_insert positions none).2 id).mp
      (List.mem_of_getElem? listed)).resolve_left List.not_mem_nil
  rcases Results.exists_of_mem_mapM read _ inPositions with ⟨answer, isAnswer, located⟩
  rcases List.mem_map.mp isAnswer with ⟨stored, isMatch, rfl⟩
  rcases List.mem_filter.mp isMatch with ⟨isGroup, agrees⟩
  rcases Contents.mem_ofClass_iff.mp isGroup with ⟨member, isOf⟩
  have isPlain := plain stored member
  have idSpec : ObjectClass.schedulerGroup.spec? "id" = some (.scalar .uint64) := rfl
  have switchSpec : ObjectClass.schedulerGroup.spec? "switch-id" =
    some (.scalar .uint32) := rfl
  have hasId :=
    ((Record.id_answer_iff idSpec ⟨rfl, rfl⟩).mp (id_of_groupPosition isOf located)).2
  rcases (agreesWith_portGroups_iff isPlain switchFits portFits).mp agrees with
    ⟨onPort, onSwitch⟩
  refine ⟨stored, member, StoreObject.entity?_eq_some_iff.mpr ⟨isOf, ?_⟩,
    ((isPlain.number?_eq_some_iff switchSpec ⟨rfl, rfl⟩).mp onSwitch).2, onPort⟩
  rw [ObjectClass.identity?_eq_some_singleton
    (rfl : ObjectClass.schedulerGroup.keyAttrs = ["id"])]
  exact ⟨_, rfl, (isPlain.lookup _).trans hasId⟩

/-! ## Queues -/

variable {key : QueueKey}

theorem isMatch_queue_congr {old new : StoreObject} {switchId : Nat} {template : Authored}
    (built : key.object switchId = .ok template)
    (alike : StoreObject.Alike key.port old new) :
    (new.agreesWith template.data && decide (new.classPath = ObjectClass.queue.path)) =
      (old.agreesWith template.data &&
        decide (old.classPath = ObjectClass.queue.path)) := by
  rcases queueObject_eq_ok_iff.mp built with
    ⟨switchFits, portFits, numberFits, code, encoded, rfl⟩
  rw [alike.classPath]
  by_cases wasOf : old.classPath = ObjectClass.queue.path
  · rw [Bool.eq_iff_iff, Bool.and_eq_true_iff, Bool.and_eq_true_iff,
      Authored.data_assembled,
      StoreObject.agreesWith_queue_iff alike.plain (alike.classPath.trans wasOf),
      StoreObject.agreesWith_queue_iff alike.wasPlain wasOf, alike.entity]
    refine and_congr_left fun _ => and_congr_right fun isEntity => ?_
    have isQueue :=
      StoreObject.isQueue_iff.mpr ⟨portFits, numberFits, code, encoded, isEntity⟩
    rw [alike.queue wasOf isQueue.2.1 (by simp)]
  · simp [wasOf]

def shownId (queue : StoreObject) : Except CodecError (Option Nat) := do
  (← Record.wrap (queue.answer .queue)).id

def storedQueueId (scheduler : Scheduler) (contents : Contents) (key : QueueKey) :
    Except ProvisionError (Option Nat) := do
  let template ← (key.object scheduler.switchId).mapError .codec
  let matching := (contents.ofClass .queue).filter fun stored =>
    stored.agreesWith template.data
  match matching.map shownId with
  | [] => .ok none
  | id :: _ => id.mapError .codec

theorem storedQueueId_congr {other : Contents}
    (alike : List.Forall₂ (StoreObject.Alike key.port) start.objects other.objects) :
    scheduler.storedQueueId other key = scheduler.storedQueueId start key := by
  rw [storedQueueId, storedQueueId]
  cases built : key.object scheduler.switchId with
  | error cause => rfl
  | ok template =>
      simp only [Except.mapError, Results.ok_bind, Contents.ofClass, List.filter_filter]
      rw [Results.map_filter_congr alike (fun old new => isMatch_queue_congr built)
        fun old new first isMatch => ?_]
      rcases queueObject_eq_ok_iff.mp built with
        ⟨-, portFits, numberFits, code, encoded, rfl⟩
      have isQueue : old.IsQueue key := by
        have both := Bool.and_eq_true_iff.mp isMatch
        have wasOf := of_decide_eq_true both.2
        have agrees := (StoreObject.agreesWith_queue_iff first.wasPlain wasOf).mp both.1
        exact StoreObject.isQueue_iff.mpr ⟨portFits, numberFits, code, encoded, agrees.1⟩
      have sameId : (new.answer .queue).lookup (ObjectClass.queue.pathOf "id") =
          (old.answer .queue).lookup (ObjectClass.queue.pathOf "id") := by
        rw [StoreObject.lookup_answer, StoreObject.lookup_answer,
          first.queue isQueue.1 isQueue.2.1 (by simp)]
      simp only [shownId, Record.wrap_answer isQueue.1,
        Record.wrap_answer (first.classPath.trans isQueue.1), Results.ok_bind, Record.id,
        Record.objectClass, Record.data, ObjectClass.decodeNat,
        ObjectClass.decode_congr sameId]

theorem queueId_finds (key : QueueKey) :
    (scheduler.queueId key).Finds key.port start (scheduler.storedQueueId start key) := by
  intro memory alike
  rw [← storedQueueId_congr alike.objects, storedQueueId]
  cases built : key.object scheduler.switchId with
  | error cause =>
      simp only [queueId, built]
      rfl
  | ok template =>
      have isOf : template.data.classPath = ObjectClass.queue.path := by
        rcases queueObject_eq_ok_iff.mp built with ⟨-, -, -, -, -, rfl⟩
        exact ObjectClass.classPath_assemble
      have answered := Memory.query_eq template.data alike.available isOf (by simp)
      refine Task.ends_bind (Task.ends_ofCodec built)
        (Task.ends_bind (Task.ends_query answered) ?_)
      simp only [Except.mapError, Results.ok_bind]
      cases (memory.contents.ofClass .queue).filter fun stored =>
        stored.agreesWith template.data <;> rfl

/-! ## Children -/

theorem steady_resolveChild (next : SchedulerLevel) (index : GroupIndex) (child : Nat) :
    (scheduler.resolveChild port next index child).Steady port.ifindex start := by
  rw [resolveChild]
  split
  · exact (Task.steady_done _).bind fun queue =>
      Task.Steady.bind ⟨_, queueId_finds ⟨port.ifindex, queue.queueType, queue.number⟩⟩
        fun id => Task.steady_done _
  · exact Task.steady_done _

theorem steady_resolveChildren (tree : SchedulerTree) (level : SchedulerLevel)
    (index : GroupIndex) (children : List Nat) :
    (scheduler.resolveChildren port tree level index children).Steady
      port.ifindex start :=
  (Task.steady_done _).bind fun next =>
    Task.steady_mapM fun child _ => steady_resolveChild next index child

end Scheduler

end SwitchQos
