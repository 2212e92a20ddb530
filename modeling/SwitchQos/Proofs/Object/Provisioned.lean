import SwitchQos.MapEntry.Objects
import SwitchQos.Proofs.Object.Assembly

namespace SwitchQos

/-! The objects a switch is provisioned with, attribute by attribute. They can be
built whenever their numbers fit. -/

namespace ObjectClass

theorem spec?_switchId (objectClass : ObjectClass) :
    ∃ scope, objectClass.spec? "switch-id" = some ⟨.scalar, .uint32, scope⟩ := by
  cases objectClass <;> exact ⟨_, rfl⟩

end ObjectClass

open Authored

variable {switchId port id : Nat} {result : Authored}

theorem onSwitch_eq_ok_iff {objectClass : ObjectClass} :
    Authored.onSwitch objectClass switchId = .ok result ↔
      switchId < countOfBits 32 ∧
        result = assembled objectClass [("switch-id", Storage.uint32.word switchId)] := by
  rcases objectClass.spec?_switchId with ⟨scope, found⟩
  rw [Authored.onSwitch, new_eq, set_uint_eq_ok_iff found ⟨rfl, rfl⟩]
  rfl

theorem schedulerGroup_eq_ok_iff :
    schedulerGroup switchId id = .ok result ↔
      switchId < countOfBits 32 ∧ id < countOfBits 64 ∧
        result = assembled .schedulerGroup
          [("id", Storage.uint64.word id),
            ("switch-id", Storage.uint32.word switchId)] := by
  have found : ObjectClass.schedulerGroup.spec? "id" = some (.scalar .uint64) := rfl
  simp only [schedulerGroup, Results.bind_eq_ok_iff, onSwitch_eq_ok_iff, and_assoc,
    exists_and_left, exists_eq_left, set_uint_eq_ok_iff found ⟨rfl, rfl⟩]
  rfl

theorem portSchedulerGroups_eq_ok_iff :
    portSchedulerGroups switchId port = .ok result ↔
      switchId < countOfBits 32 ∧ port < countOfBits 32 ∧
        result = assembled .schedulerGroup
          [("port-id", Storage.uint32.word port),
            ("switch-id", Storage.uint32.word switchId)] := by
  have found : ObjectClass.schedulerGroup.spec? "port-id" = some (.scalar .uint32) := rfl
  simp only [portSchedulerGroups, Results.bind_eq_ok_iff, onSwitch_eq_ok_iff, and_assoc,
    exists_and_left, exists_eq_left, set_uint_eq_ok_iff found ⟨rfl, rfl⟩]
  rfl

theorem portObject_eq_ok_iff {direction : Direction} :
    direction.portObject switchId port = .ok result ↔
      switchId < countOfBits 32 ∧ port < countOfBits 32 ∧
        result = assembled direction.objectClass
          [("port-id", Storage.uint32.word port),
            ("switch-id", Storage.uint32.word switchId)] := by
  have found : direction.objectClass.spec? "port-id" = some (.scalar .uint32) := by
    cases direction <;> rfl
  simp only [Direction.portObject, Results.bind_eq_ok_iff, onSwitch_eq_ok_iff, and_assoc,
    exists_and_left, exists_eq_left, set_uint_eq_ok_iff found ⟨rfl, rfl⟩]
  rfl

/-- What the object of a port has under the name of a map type is the id of a map. -/
theorem Direction.spec?_of_has {direction : Direction} {mapType : MapType}
    (has : direction.objectClass.Has mapType.name) :
    direction.objectClass.spec? mapType.name = some (.scalar .uint64) := by
  cases direction <;> cases mapType <;> first | rfl | cases has

def QueueKey.attrs (key : QueueKey) (switchId code : Nat) : List (String × StoreValue) :=
  [("queue-number", Storage.uint32.word key.number), ("type", Storage.uint32.word code),
   ("port-id", Storage.uint32.word key.port), ("switch-id", Storage.uint32.word switchId)]

theorem encode_queueType_iff {queueType : String} {stored : StoreValue} :
    ObjectClass.queue.encode "type" (.symbol queueType) = .ok stored ↔
      ∃ code, SymbolFamily.queueType.encode queueType = .ok code ∧
        stored = Storage.uint32.word code := by
  have found : ObjectClass.queue.spec? "type" = some (.symbol .queueType) := rfl
  simp only [ObjectClass.encode_eq_ok_iff found, AttrSpec.encode, AttrSpec.symbol,
    AttrValue.asSymbol?, Results.bind_eq_ok_iff, Results.map_eq_ok_iff,
    Storage.encode_eq_ok_iff]
  constructor
  · rintro ⟨code, encoded, bytes, ⟨-, rfl⟩, rfl⟩
    exact ⟨code, encoded, rfl⟩
  · rintro ⟨code, encoded, rfl⟩
    refine ⟨code, encoded, _, ⟨?_, rfl⟩, rfl⟩
    exact (Storage.holds_natCast_iff rfl).mpr (SymbolFamily.code_lt encoded)

theorem queueObject_eq_ok_iff {key : QueueKey} :
    key.object switchId = .ok result ↔
      switchId < countOfBits 32 ∧ key.port < countOfBits 32 ∧
      key.number < countOfBits 32 ∧
        ∃ code, SymbolFamily.queueType.encode key.queueType = .ok code ∧
          result = assembled .queue (key.attrs switchId code) := by
  have port : ObjectClass.queue.spec? "port-id" = some (.scalar .uint32) := rfl
  have number : ObjectClass.queue.spec? "queue-number" = some (.scalar .uint32) := rfl
  simp only [QueueKey.object, Results.bind_eq_ok_iff, onSwitch_eq_ok_iff, and_assoc,
    exists_and_left, exists_eq_left, set_uint_eq_ok_iff port ⟨rfl, rfl⟩,
    Authored.set_eq_ok_iff, encode_queueType_iff]
  refine and_congr_right fun _ => and_congr_right fun _ => ?_
  constructor
  · rintro ⟨_, ⟨_, ⟨code, encoded, rfl⟩, rfl⟩, last⟩
    rcases (set_uint_eq_ok_iff number ⟨rfl, rfl⟩).mp last with ⟨numberFits, rfl⟩
    exact ⟨numberFits, code, encoded, rfl⟩
  · rintro ⟨numberFits, code, encoded, rfl⟩
    exact ⟨_, ⟨_, ⟨code, encoded, rfl⟩, rfl⟩,
      (set_uint_eq_ok_iff number ⟨rfl, rfl⟩).mpr ⟨numberFits, rfl⟩⟩

end SwitchQos
