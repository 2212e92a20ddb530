import SwitchQos.Proofs.Object.Provisioned
import SwitchQos.Proofs.Provision.Tasks
import SwitchQos.Proofs.Store.Operations
import SwitchQos.Provision.Scheduler

namespace SwitchQos

/-! Looking up a queue by its address. Only one stored object can have the address, so
the id that is found is the id of that queue. -/

def QueueKey.entity (key : QueueKey) (code : Nat) : Entity :=
  ⟨.queue, [Storage.uint32.word key.port, Storage.uint32.word code,
    Storage.uint32.word key.number]⟩

namespace StoreObject

def IsQueue (key : QueueKey) (stored : StoreObject) : Prop :=
  stored.classPath = ObjectClass.queue.path ∧
    ObjectClass.queue.number? "port-id" stored = some key.port ∧
    ObjectClass.queue.decode "type" stored = .ok (some (.symbol key.queueType)) ∧
    ObjectClass.queue.number? "queue-number" stored = some key.number

instance {key : QueueKey} {stored : StoreObject} : Decidable (stored.IsQueue key) :=
  inferInstanceAs (Decidable (_ ∧ _))

variable {key : QueueKey} {stored : StoreObject}

theorem isQueue_iff :
    stored.IsQueue key ↔
      key.port < countOfBits 32 ∧ key.number < countOfBits 32 ∧
        ∃ code, SymbolFamily.queueType.encode key.queueType = .ok code ∧
          stored.entity? = some (key.entity code) := by
  have portSpec : ObjectClass.queue.spec? "port-id" = some (.scalar .uint32) := rfl
  have typeSpec : ObjectClass.queue.spec? "type" = some (.symbol .queueType) := rfl
  have numberSpec : ObjectClass.queue.spec? "queue-number" = some (.scalar .uint32) := rfl
  have canonical : (AttrSpec.symbol .queueType).canonical (.symbol key.queueType) =
      .symbol key.queueType := rfl
  rw [IsQueue, ObjectClass.number?_eq_some_iff portSpec ⟨rfl, rfl⟩,
    ObjectClass.number?_eq_some_iff numberSpec ⟨rfl, rfl⟩,
    ObjectClass.decode_eq_some_iff typeSpec]
  simp only [← ObjectClass.encode_eq_ok_iff typeSpec, encode_queueType_iff,
    canonical, and_true,
    entity?_eq_some_iff, QueueKey.entity, ObjectClass.identity?_eq_some_iff,
    ObjectClass.keyAttrs, List.forall₂_cons, List.Forall₂.nil]
  constructor
  · rintro ⟨isOf, ⟨portFits, hasPort⟩, ⟨_, hasType, code, encoded, rfl⟩,
      numberFits, hasNumber⟩
    exact ⟨portFits, numberFits, code, encoded, isOf, hasPort, hasType, hasNumber⟩
  · rintro ⟨portFits, numberFits, code, encoded, isOf, hasPort, hasType, hasNumber⟩
    exact ⟨isOf, ⟨portFits, hasPort⟩, ⟨_, hasType, code, encoded, rfl⟩,
      numberFits, hasNumber⟩

theorem IsQueue.congr {other : StoreObject} (isQueue : stored.IsQueue key)
    (same : other.entity? = stored.entity?) : other.IsQueue key := by
  rw [isQueue_iff, same]
  exact isQueue_iff.mp isQueue

theorem agreesWith_queue_iff {switchId code : Nat} (plain : stored.IsPlain)
    (isOf : stored.classPath = ObjectClass.queue.path) :
    stored.agreesWith (ObjectClass.queue.assemble (key.attrs switchId code)) = true ↔
      stored.entity? = some (key.entity code) ∧
        stored.get? (ObjectClass.queue.pathOf "switch-id") =
          some (Storage.uint32.word switchId) := by
  rw [ObjectClass.agreesWith_assemble stored (by simp [QueueKey.attrs]; decide)
    (by simp [QueueKey.attrs])]
  simp only [QueueKey.attrs, List.all_cons, List.all_nil,
    ObjectClass.agrees_word, Bool.and_true,
    Bool.and_eq_true, decide_eq_true_eq, entity?_eq_some_iff,
    QueueKey.entity, isOf, true_and,
    ObjectClass.identity?_eq_some_iff, ObjectClass.keyAttrs, plain.lookup,
    List.forall₂_cons, List.Forall₂.nil, and_true]
  constructor
  · rintro ⟨hasNumber, hasType, hasPort, hasSwitch⟩
    exact ⟨⟨hasPort, hasType, hasNumber⟩, hasSwitch⟩
  · rintro ⟨⟨hasPort, hasType, hasNumber⟩, hasSwitch⟩
    exact ⟨hasNumber, hasType, hasPort, hasSwitch⟩

end StoreObject

namespace Contents

variable {contents : Contents} {key : QueueKey} {stored other : StoreObject}

theorem Distinct.eq_of_isQueue (distinct : Distinct contents.objects)
    (member : stored ∈ contents.objects) (otherMember : other ∈ contents.objects)
    (isQueue : stored.IsQueue key) (otherIsQueue : other.IsQueue key) :
    stored = other := by
  rcases StoreObject.isQueue_iff.mp isQueue with ⟨-, -, code, encoded, found⟩
  rcases StoreObject.isQueue_iff.mp otherIsQueue with
    ⟨-, -, otherCode, otherEncoded, otherFound⟩
  rw [encoded] at otherEncoded
  cases otherEncoded
  exact distinct.eq_of_entity? member otherMember found otherFound

/-- The address of a queue that is stored finds this queue and no other. -/
theorem mem_matching_queue_iff {switchId code : Nat}
    (plain : ∀ stored ∈ contents.objects, stored.IsPlain)
    (distinct : Distinct contents.objects) (member : stored ∈ contents.objects)
    (found : stored.entity? = some (key.entity code))
    (onSwitch : stored.get? (ObjectClass.queue.pathOf "switch-id") =
      some (Storage.uint32.word switchId)) :
    other ∈ (contents.ofClass .queue).filter (fun stored =>
        stored.agreesWith (ObjectClass.queue.assemble (key.attrs switchId code))) ↔
      other = stored := by
  rw [List.mem_filter, mem_ofClass_iff]
  constructor
  · rintro ⟨⟨otherMember, isOf⟩, agrees⟩
    have same :=
      ((StoreObject.agreesWith_queue_iff (plain other otherMember) isOf).mp agrees).1
    exact distinct.eq_of_entity? otherMember member same found
  · rintro rfl
    have isOf := (StoreObject.entity?_eq_some_iff.mp found).1
    exact ⟨⟨member, isOf⟩,
      (StoreObject.agreesWith_queue_iff (plain other member) isOf).mpr ⟨found, onSwitch⟩⟩

def queueId? (contents : Contents) (key : QueueKey) : Option Nat :=
  (contents.objects.find? fun stored => stored.IsQueue key).bind
    (ObjectClass.queue.number? "id")

theorem queueId?_eq (distinct : Distinct contents.objects)
    (member : stored ∈ contents.objects) (isQueue : stored.IsQueue key) :
    contents.queueId? key = ObjectClass.queue.number? "id" stored := by
  rw [queueId?]
  cases located : contents.objects.find? (fun stored => stored.IsQueue key) with
  | none =>
      have missed := List.find?_eq_none.mp located stored member
      exact absurd isQueue (by simpa using missed)
  | some other =>
      have otherIsQueue : other.IsQueue key := by simpa using List.find?_some located
      rw [distinct.eq_of_isQueue member (List.mem_of_find?_eq_some located)
        isQueue otherIsQueue]
      rfl

end Contents

namespace Scheduler

variable {scheduler : Scheduler} {memory : Memory} {key : QueueKey} {stored : StoreObject}

theorem queueId_ends (available : memory.unavailable = 0)
    (plain : ∀ stored ∈ memory.contents.objects, stored.IsPlain)
    (distinct : Contents.Distinct memory.contents.objects)
    (member : stored ∈ memory.contents.objects) (isQueue : stored.IsQueue key)
    (onSwitch : ObjectClass.queue.number? "switch-id" stored = some scheduler.switchId)
    {id : Nat} (hasId : ObjectClass.queue.number? "id" stored = some id) :
    (scheduler.queueId key).run.Ends Memory.responder memory (.ok (some id)) memory := by
  rcases StoreObject.isQueue_iff.mp isQueue with
    ⟨portFits, numberFits, code, encoded, found⟩
  have switchSpec : ObjectClass.queue.spec? "switch-id" = some (.scalar .uint32) := rfl
  have idSpec : ObjectClass.queue.spec? "id" = some (.scalar .uint64) := rfl
  rw [(plain stored member).number?_eq_some_iff switchSpec ⟨rfl, rfl⟩] at onSwitch
  rw [(plain stored member).number?_eq_some_iff idSpec ⟨rfl, rfl⟩,
    ← Record.id_answer_iff idSpec ⟨rfl, rfl⟩] at hasId
  have template := queueObject_eq_ok_iff.mpr
    ⟨onSwitch.1, portFits, numberFits, code, encoded, rfl⟩
  have answered := Memory.query_eq (Authored.assembled .queue
    (key.attrs scheduler.switchId code)).data available
    ObjectClass.classPath_assemble (by simp)
  have shown : (Record.wrap (stored.answer .queue) >>= fun record => record.id) =
      .ok (some id) := by
    rw [Record.wrap_answer isQueue.1]
    exact hasId
  have isFound :=
    fun other => @Contents.mem_matching_queue_iff memory.contents key stored other
    scheduler.switchId code plain distinct member found onSwitch.2
  rcases List.exists_cons_of_ne_nil (List.ne_nil_of_mem ((isFound stored).mpr rfl)) with
    ⟨first, others, listed⟩
  have isFirst : first = stored := (isFound first).mp (listed ▸ List.mem_cons_self)
  rw [Authored.data_assembled, listed, isFirst] at answered
  exact Task.ends_bind (Task.ends_ofCodec template)
    (Task.ends_bind (Task.ends_query answered) (Task.ends_ofCodec shown))

end Scheduler

end SwitchQos
