import SwitchQos.Proofs.Provision.Bindings
import SwitchQos.Proofs.Provision.Steadiness

namespace SwitchQos

/-! What the bindings of a port come down to: each sets one fixed object, or nothing.
An object that is set spares all that look-ups depend on, so a binding comes down to
the same request wherever it stands in the list and whatever became of the others. -/

/-- What a binding comes down to. -/
inductive Request where
  | skip (reason : String)
  | fail (error : ProvisionError)
  /-- Set the object, which errors name so. -/
  | set (name : String) (object : StoreObject)

namespace Request

instance : Inhabited Request := ⟨.skip ""⟩

def status (rules : List FailureRule) (contents : Contents) : Request → Status
  | .skip reason => .skipped reason
  | .fail error => .failed error
  | .set name object =>
      match contents.refusal? rules object with
      | none => .applied
      | some reason =>
          .failed (.transactionFailed name (StoreError.rejected reason).message)

def accepted? (rules : List FailureRule) (contents : Contents) : Request →
    Option StoreObject
  | .set _ object => if contents.refusal? rules object = none then some object else none
  | _ => none

theorem eq_of_accepted? {rules : List FailureRule} {contents : Contents}
    {request : Request} {object : StoreObject}
    (accepted : request.accepted? rules contents = some object) :
    ∃ name, request = .set name object := by
  cases request with
  | skip _ | fail _ => cases accepted
  | set name given =>
      rw [accepted?] at accepted
      split at accepted
      · cases accepted
        exact ⟨name, rfl⟩
      · cases accepted

end Request

def Contents.Spared (port : Nat) (start : Contents) (object : StoreObject) : Prop :=
  ∀ old ∈ start.objects, object.Spares port old

section Alike

open StoreObject

variable {port : Nat} {start : Contents} {memory : Memory} {object : StoreObject}

theorem Memory.Alike.distinct (alike : memory.Alike port start)
    (distinct : Contents.Distinct start.objects) :
    Contents.Distinct memory.contents.objects :=
  distinct.congr (alike.objects.imp fun _ _ first => first.entity)

theorem Memory.Alike.refusal? (alike : memory.Alike port start)
    (rules : List FailureRule) :
    memory.contents.refusal? rules object = start.refusal? rules object :=
  Contents.refusal?_congr (alike.objects.imp fun _ _ first => first.entity)

theorem Memory.Alike.status (alike : memory.Alike port start) (rules : List FailureRule)
    (request : Request) : request.status rules memory.contents =
      request.status rules start := by
  cases request with
  | skip _ | fail _ => rfl
  | set name object => simp only [Request.status, alike.refusal? rules]

theorem Memory.Alike.accepted? (alike : memory.Alike port start)
    (rules : List FailureRule) (request : Request) :
    request.accepted? rules memory.contents = request.accepted? rules start := by
  cases request with
  | skip _ | fail _ => rfl
  | set name object => simp only [Request.accepted?, alike.refusal? rules]

theorem Memory.Alike.rewritten {given : List StoreObject}
    (alike : memory.Alike port start)
    (spared : ∀ object ∈ given, start.Spared port object) {after : Memory}
    (sameUnavailable : after.unavailable = memory.unavailable)
    (contents : after.contents = memory.contents.rewritten given) :
    after.Alike port start where
  available := sameUnavailable.trans alike.available
  objects := by
    rw [contents, Contents.rewritten, List.forall₂_map_right_iff]
    have both := (List.forall₂_and_left (p := (· ∈ start.objects)) _ _).mpr
      ⟨fun _ member => member, alike.objects⟩
    exact both.imp fun old new related =>
      related.2.rewritten fun object member => spared object member old related.1

end Alike

/-! ## Tasks -/

namespace Task

open Exchange

variable {Result : Type} {port : Nat} {start : Contents}
  {request : Request} {name : String}

/-- On every store that is alike, the task comes down to the request. -/
inductive ComesTo (port : Nat) (start : Contents) (task : Task Unit) : Request → Prop
  | fail {error : ProvisionError} (finds : task.Finds port start (.error error)) :
      ComesTo port start task (.fail error)
  | set {name : String} {object : StoreObject} {objectClass : ObjectClass}
      (isOf : object.classPath = objectClass.path) (spared : start.Spared port object)
      (reaches : ∀ memory : Memory, memory.Alike port start →
        Reaches Memory.responder task.run memory (setting name object).run memory) :
      ComesTo port start task (.set name object)

/-- The store takes the object or not, as its rules and its entities decide. -/
theorem setting_ends (name : String) {object : StoreObject} {objectClass : ObjectClass}
    {memory : Memory}
    (isOf : object.classPath = objectClass.path)
    (distinct : Contents.Distinct memory.contents.objects) :
    ∃ result after, (setting name object).run.Ends Memory.responder memory result after ∧
      (∀ target, Outcome.ofResult target result =
        ⟨target, (Request.set name object).status memory.rules memory.contents⟩) ∧
      after.rules = memory.rules ∧ after.unavailable = memory.unavailable ∧
      after.contents = memory.contents.rewritten
        ((Request.set name object).accepted? memory.rules memory.contents).toList := by
  cases decided : memory.contents.refusal? memory.rules object with
  | some reason =>
      have refused := Memory.transact_of_refusal isOf decided
      refine ⟨_, memory, ends_bind_iff.mpr
        (.inr ⟨_, ends_transact_refused refused, rfl⟩), ?_, rfl,
        rfl, ?_⟩
      · simp [Request.status, decided, Outcome.ofResult, Outcome.failed]
      · simp [Request.accepted?, decided, Contents.rewritten_nil]
  | none =>
      rcases Memory.transact_of_accepted distinct isOf decided with
        ⟨answers, after, accepted, sameRules, sameUnavailable, contents⟩
      refine ⟨_, after, ends_bind (ends_transact accepted) (ends_pure ()), ?_, sameRules,
        sameUnavailable, ?_⟩
      · simp [Request.status, decided, Outcome.ofResult, Outcome.applied]
      · simp [Request.accepted?, decided, contents]

theorem Finds.reaches_bind {lookUp : Task Result} {value : Result} {memory : Memory}
    (finds : lookUp.Finds port start (.ok value)) (alike : memory.Alike port start)
    (next : Result → Task Unit) :
    Reaches Memory.responder (lookUp >>= next).run memory (next value).run memory := by
  rw [run_bind]
  exact (finds memory alike).reaches.bind _

theorem ComesTo.of_finds {lookUp : Task Result} {value : Result}
    {next : Result → Task Unit} (finds : lookUp.Finds port start (.ok value))
    (comes : (next value).ComesTo port start request) :
    (lookUp >>= next).ComesTo port start request := by
  cases comes with
  | fail later => exact .fail (finds.bind later)
  | set isOf spared reaches =>
      exact .set isOf spared fun memory alike =>
        (finds.reaches_bind alike next).trans (reaches memory alike)

/-- After a steady look-up it is enough to know what comes of the values it may bring. -/
theorem Steady.exists_comesTo {lookUp : Task Result} {next : Result → Task Unit}
    (steady : lookUp.Steady port start)
    (later : ∀ value, ∃ request, (next value).ComesTo port start request) :
    ∃ request, (lookUp >>= next).ComesTo port start request := by
  rcases steady with ⟨found, finds⟩
  cases found with
  | error error => exact ⟨_, .fail (finds.bind_error next)⟩
  | ok value =>
      rcases later value with ⟨request, comes⟩
      exact ⟨request, .of_finds finds comes⟩

theorem exists_comesTo_throw (error : ProvisionError) :
    ∃ request, (throw error : Task Unit).ComesTo port start request :=
  ⟨_, .fail (finds_done (.error error))⟩

theorem exists_comesTo_setting {data : Except CodecError Authored}
    (built : ∀ authored, data = .ok authored →
      (∃ objectClass : ObjectClass, authored.data.classPath = objectClass.path) ∧
        start.Spared port authored.data) :
    ∃ request, ComesTo port start
      (Task.ofCodec data >>= fun authored => setting name authored.data) request := by
  cases data with
  | error cause => exact ⟨_, .fail (finds_done (.error (.codec cause)))⟩
  | ok authored =>
      rcases built authored rfl with ⟨⟨objectClass, isOf⟩, spared⟩
      exact ⟨.set name authored.data, .set isOf spared fun memory _ => .here⟩

end Task

/-! ## Bindings -/

namespace Binding

open Exchange

variable {names : Names} {port : Nat} {start : Contents} {binding : Binding}
  {request : Request} {memory : Memory}

inductive ComesTo (names : Names) (port : Nat) (start : Contents) (binding : Binding) :
    Request → Prop
  | skip {reason : String} (attempt : binding.attempt = .skip reason) :
      ComesTo names port start binding (.skip reason)
  | attempt {task : Task Unit} {request : Request}
      (records : binding.record names =
        (task.record binding.target).bind fun outcome => .done [outcome])
      (comes : task.ComesTo port start request) : ComesTo names port start binding request

def outcome (rules : List FailureRule) (contents : Contents) (binding : Binding)
    (request : Request) : Outcome := ⟨binding.target, request.status rules contents⟩

theorem ComesTo.ends (comes : binding.ComesTo names port start request)
    (distinct : Contents.Distinct start.objects) (alike : memory.Alike port start) :
    ∃ after, (binding.record names).Ends Memory.responder memory
        [binding.outcome memory.rules start request] after ∧
      after.Alike port start ∧ after.rules = memory.rules ∧
      after.contents =
        memory.contents.rewritten (request.accepted? memory.rules start).toList := by
  cases comes with
  | @skip reason attempt =>
      have records : binding.record names = .done [.skipped binding.target reason] := by
        rw [record, attempt]
        rfl
      rw [records]
      exact ⟨memory, ends_done_iff.mpr ⟨rfl, rfl⟩, alike, rfl,
        Contents.rewritten_nil.symm⟩
  | attempt records comes =>
      rw [records]
      cases comes with
      | fail finds =>
          exact ⟨memory, (Task.ends_record (finds memory alike)).bind rfl, alike, rfl,
            Contents.rewritten_nil.symm⟩
      | @set name object objectClass isOf spared reaches =>
          rcases Task.setting_ends name isOf (alike.distinct distinct) with
            ⟨result, after, ends, outcomes, sameRules, sameUnavailable, contents⟩
          rw [alike.accepted?] at contents
          have recorded := @Task.ends_record _ _ _ _ _ _ binding.target _
            ((reaches memory alike).ends ends)
          rw [outcomes, alike.status] at recorded
          refine ⟨after, recorded.bind rfl, alike.rewritten (fun given member => ?_)
            sameUnavailable contents, sameRules, contents⟩
          rcases Request.eq_of_accepted? (Option.mem_toList.mp member) with ⟨_, same⟩
          cases same
          exact spared

/-- Bindings that each come down to a request come together to all requests in order, and
none of them changes what becomes of another. -/
theorem collect_ends {bindings : List Binding} {request : Binding → Request}
    (comes : ∀ binding ∈ bindings, binding.ComesTo names port start (request binding))
    (distinct : Contents.Distinct start.objects) (alike : memory.Alike port start) :
    ∃ after, (collect bindings (record names)).Ends Memory.responder memory
        (bindings.map fun binding =>
          binding.outcome memory.rules start (request binding)) after ∧
      after.Alike port start ∧ after.rules = memory.rules ∧
      after.contents = memory.contents.rewritten
        (bindings.filterMap fun binding =>
          (request binding).accepted? memory.rules start) := by
  induction bindings generalizing memory with
  | nil =>
      exact ⟨memory, ends_done_iff.mpr ⟨rfl, rfl⟩, alike, rfl,
        Contents.rewritten_nil.symm⟩
  | cons binding rest induction =>
      rcases (comes binding List.mem_cons_self).ends distinct alike with
        ⟨middle, first, middleAlike, middleRules, middleContents⟩
      rcases induction (fun other member => comes other (List.mem_cons_of_mem _ member))
        middleAlike with ⟨after, others, afterAlike, afterRules, afterContents⟩
      rw [middleRules] at others afterContents
      refine ⟨after, first.bind (others.bind (ends_done_iff.mpr ⟨rfl, rfl⟩)), afterAlike,
        afterRules.trans middleRules, ?_⟩
      rw [afterContents, middleContents, ← Contents.rewritten_append]
      cases taken : (request binding).accepted? memory.rules start <;>
        simp [taken]

end Binding

/-! ## What the bindings of a port set -/

/-- The store has no key data, has each entity once, and has its queues of the port on
the switch. Nothing is asked of groups: only those of the switch are discovered. -/
structure Contents.Provisionable (contents : Contents) (switchId port : Nat) : Prop where
  plain : ∀ stored ∈ contents.objects, stored.IsPlain
  distinct : Contents.Distinct contents.objects
  queues : ∀ stored ∈ contents.objects, stored.classPath = ObjectClass.queue.path →
    ObjectClass.queue.number? "port-id" stored = some port →
    ObjectClass.queue.number? "switch-id" stored = some switchId

theorem Memory.Serves.provisionable {memory : Memory} {switchId port : Nat}
    (serves : memory.Serves switchId port) :
    memory.contents.Provisionable switchId port :=
  ⟨serves.plain, serves.distinct, serves.queues⟩

section Spared

variable {contents : Contents} {switchId port : Nat}

theorem Contents.Provisionable.spared_groupObject
    (provisionable : contents.Provisionable switchId port)
    {stored : StoreObject} {id : Nat} (rows : List (String × StoreValue))
    (hasAll : ∀ row ∈ rows, ObjectClass.schedulerGroup.Has row.1)
    (apart : ∀ attr ∈ ["id", "port-id", "switch-id", "level"],
      Directory.findRow attr rows = none)
    (member : stored ∈ contents.objects)
    (found : stored.entity? = some ⟨.schedulerGroup, [Storage.uint64.word id]⟩)
    (onSwitch : stored.get? (ObjectClass.schedulerGroup.pathOf "switch-id") =
      some (Storage.uint32.word switchId)) :
    contents.Spared port (groupObject switchId id rows) := by
  rintro old isOld ⟨entity, given, oldFound⟩ path isConsulted value written
  have own := @entity?_groupObject switchId id _ hasAll (apart "id" (by simp))
  rw [own] at given
  cases given
  rw [provisionable.distinct.eq_of_entity? isOld member oldFound found] at isConsulted ⊢
  rcases StoreObject.entity?_eq_some_iff.mp found with ⟨isOf, identified⟩
  rcases (ObjectClass.identity?_eq_some_singleton rfl).mp identified with ⟨_, same, hasId⟩
  cases same
  rw [(provisionable.plain stored member).lookup] at hasId
  rw [StoreObject.consulted, if_pos isOf] at isConsulted
  rcases List.mem_map.mp isConsulted with ⟨attr, isAttr, rfl⟩
  have isPlain : (groupObject switchId id rows).IsPlain := ObjectClass.keyData_assemble
  have has : ∀ attr ∈ ["id", "port-id", "switch-id", "level"],
      ObjectClass.schedulerGroup.Has attr := by decide
  rw [isPlain.lookup, get?_groupObject (has attr isAttr) hasAll, apart attr isAttr,
    Option.none_or] at written
  simp only [List.mem_cons, List.not_mem_nil, or_false] at isAttr
  rcases isAttr with rfl | rfl | rfl | rfl
  · cases written
    exact hasId
  · cases written
  · cases written
    exact onSwitch
  · cases written

theorem Contents.Provisionable.spared_queueObject
    (provisionable : contents.Provisionable switchId port) {key : QueueKey}
    {code profile : Nat} :
    contents.Spared port (queueObject switchId code key profile) := by
  rintro old isOld ⟨entity, given, oldFound⟩ path isConsulted value written
  rw [entity?_queueObject] at given
  cases given
  have isOf := (StoreObject.entity?_eq_some_iff.mp oldFound).1
  have noGroup : ¬old.classPath = ObjectClass.schedulerGroup.path := by
    simp [isOf, QueueKey.entity, ObjectClass.path_inj]
  rw [StoreObject.consulted, if_neg noGroup] at isConsulted
  split at isConsulted
  · rename_i onPort
    have switchSpec : ObjectClass.queue.spec? "switch-id" = some (.scalar .uint32) := rfl
    have onSwitch := provisionable.queues old isOld onPort.1 onPort.2
    rw [(provisionable.plain old isOld).number?_eq_some_iff switchSpec
      ⟨rfl, rfl⟩] at onSwitch
    have isPlain : (queueObject switchId code key profile).IsPlain :=
      ObjectClass.keyData_assemble
    rcases List.mem_map.mp isConsulted with ⟨attr, isAttr, rfl⟩
    simp only [List.mem_cons, List.not_mem_nil, or_false] at isAttr
    rcases isAttr with rfl | rfl
    · rw [isPlain.lookup, get?_queueObject (by decide)] at written
      cases written
    · rw [isPlain.lookup, get?_queueObject (by decide)] at written
      cases written
      exact onSwitch.2
  · cases isConsulted

theorem Contents.spared_portObject {object : StoreObject} (direction : Direction)
    (isOf : object.classPath = direction.objectClass.path) :
    contents.Spared port object := by
  rintro old isOld ⟨⟨objectClass, key⟩, given, oldFound⟩ path isConsulted
  have samePath := (StoreObject.entity?_eq_some_iff.mp given).1
  have oldOf :=
    (StoreObject.entity?_eq_some_iff.mp oldFound).1.trans (samePath.symm.trans isOf)
  have noGroup : ¬old.classPath = ObjectClass.schedulerGroup.path := by
    rw [oldOf, ObjectClass.path_inj]
    cases direction <;> decide
  have noQueue : ¬(old.classPath = ObjectClass.queue.path ∧
      ObjectClass.queue.number? "port-id" old = some port) := by
    rw [oldOf, ObjectClass.path_inj]
    cases direction <;> simp [Direction.objectClass]
  rw [StoreObject.consulted, if_neg noGroup, if_neg noQueue] at isConsulted
  cases isConsulted

end Spared

/-! ## Every binding comes down to a request -/

section Bindings

open SwitchQos.Task

variable {start : Contents} {scheduler : Scheduler} {port : Port} {names : Names}

theorem Binding.exists_comesTo_task {onPort : Nat} {target : String} {task : Task Unit}
    (comes : ∃ request, task.ComesTo onPort start request) :
    ∃ request, Binding.ComesTo names onPort start ⟨target, .task task⟩ request := by
  rcases comes with ⟨request, comes⟩
  exact ⟨request, .attempt rfl comes⟩

theorem exists_comesTo_mapBindings {node : PortNode} (switchId : Nat) :
    ∀ binding ∈ mapBindings switchId names port node, ∃ request,
      binding.ComesTo names port.ifindex start request := by
  have each (direction : Direction) (mapType : MapType) (tag : String) : ∃ request,
      (mapBinding switchId names port direction mapType tag).ComesTo names
        port.ifindex start
        request := by
    rw [mapBinding]
    split
    · apply Binding.exists_comesTo_task
      refine (steady_done _).exists_comesTo fun id =>
        exists_comesTo_setting fun authored built => ?_
      rcases Results.bind_eq_ok_iff.mp built with ⟨object, isObject, written⟩
      rcases portObject_eq_ok_iff.mp isObject with ⟨-, -, rfl⟩
      rcases Authored.set_eq_ok_iff.mp written with ⟨stored, -, rfl⟩
      exact ⟨⟨_, ObjectClass.classPath_assemble⟩,
        Contents.spared_portObject direction ObjectClass.classPath_assemble⟩
    · exact ⟨_, .skip rfl⟩
  intro binding member
  rcases List.mem_append.mp member with ingress | egress
  · rcases List.mem_map.mp ingress with ⟨row, -, rfl⟩
    exact each _ _ _
  · rcases List.mem_map.mp egress with ⟨row, -, rfl⟩
    exact each _ _ _

theorem exists_comesTo_bindGroupProfile
    (provisionable : start.Provisionable scheduler.switchId port.ifindex)
    {index : GroupIndex} {level ordinal id : Nat}
    (found : scheduler.discovered start port = .ok index)
    (listed : index.get? level ordinal = some id) (profile : Nat) :
    ∃ request, (scheduler.bindGroupProfile id profile).ComesTo port.ifindex
      start request := by
  rcases Scheduler.exists_of_discovered provisionable.plain found listed with
    ⟨stored, member, isEntity, onSwitch, -⟩
  have spec : ObjectClass.schedulerGroup.spec? "scheduler-profile-id" =
      some (.scalar .uint64) :=
    rfl
  rw [Scheduler.bindGroupProfile, submit_set_eq]
  apply exists_comesTo_setting
  intro authored built
  rcases Results.bind_eq_ok_iff.mp built with ⟨group, isGroup, written⟩
  rcases schedulerGroup_eq_ok_iff.mp isGroup with ⟨-, -, rfl⟩
  rcases (Authored.set_uint_eq_ok_iff spec ⟨rfl, rfl⟩).mp written with ⟨-, rfl⟩
  refine ⟨⟨_, ObjectClass.classPath_assemble⟩, ?_⟩
  exact provisionable.spared_groupObject
    [("scheduler-profile-id", Storage.uint64.word profile)]
    (by simp; decide) (by simp [Directory.findRow]) member isEntity onSwitch

theorem exists_comesTo_setChildren
    (provisionable : start.Provisionable scheduler.switchId port.ifindex)
    {index : GroupIndex} {level ordinal id : Nat}
    (found : scheduler.discovered start port = .ok index)
    (listed : index.get? level ordinal = some id) (children : List Nat) :
    ∃ request, (scheduler.setChildren id children).ComesTo port.ifindex
      start request := by
  rcases Scheduler.exists_of_discovered provisionable.plain found listed with
    ⟨stored, member, isEntity, onSwitch, -⟩
  have spec : ObjectClass.schedulerGroup.spec? "child_count" =
    some (.scalar .uint32) := rfl
  rw [Scheduler.setChildren]
  split
  · exact exists_comesTo_throw _
  · rw [submit_set_eq]
    apply exists_comesTo_setting
    intro authored built
    rcases Results.bind_eq_ok_iff.mp built with ⟨group, isGroup, written⟩
    rcases schedulerGroup_eq_ok_iff.mp isGroup with ⟨-, -, rfl⟩
    rcases Results.bind_eq_ok_iff.mp written with ⟨listing, isListing, counted⟩
    rcases Authored.set_eq_ok_iff.mp isListing with ⟨members, -, rfl⟩
    rcases (Authored.set_uint_eq_ok_iff spec ⟨rfl, rfl⟩).mp counted with ⟨-, rfl⟩
    refine ⟨⟨_, ObjectClass.classPath_assemble⟩, ?_⟩
    exact provisionable.spared_groupObject
      [("child_count", Storage.uint32.word children.length), ("child-list", members)]
      (by simp; decide) (by simp [Directory.findRow]) member isEntity onSwitch

theorem exists_comesTo_bindQueueProfile
    (provisionable : start.Provisionable scheduler.switchId port.ifindex) (key : QueueKey)
    (profile : Nat) :
    ∃ request, (scheduler.bindQueueProfile key profile).ComesTo port.ifindex
      start request := by
  have spec : ObjectClass.queue.spec? "scheduler-profile-id" =
    some (.scalar .uint64) := rfl
  rw [Scheduler.bindQueueProfile, submit_set_eq]
  apply exists_comesTo_setting
  intro authored built
  rcases Results.bind_eq_ok_iff.mp built with ⟨queue, isQueue, written⟩
  rcases queueObject_eq_ok_iff.mp isQueue with ⟨-, -, -, code, -, rfl⟩
  rcases (Authored.set_uint_eq_ok_iff spec ⟨rfl, rfl⟩).mp written with ⟨-, rfl⟩
  exact ⟨⟨_, ObjectClass.classPath_assemble⟩, provisionable.spared_queueObject⟩

theorem exists_comesTo_profileBindings {onPort : Nat} {target : String}
    {bind : Nat → Task Unit} {profile : Option String}
    (each : ∀ id, ∃ request, (bind id).ComesTo onPort start request) :
    ∀ binding ∈ Scheduler.profileBindings target bind profile, ∃ request,
      binding.ComesTo names onPort start request := by
  intro binding member
  cases profile with
  | none => cases member
  | some name =>
      cases List.mem_singleton.mp member
      rcases (steady_done (names.profileId name)).exists_comesTo each with
        ⟨request, comes⟩
      exact ⟨request, .attempt rfl comes⟩

theorem exists_comesTo_groupBindings
    (provisionable : start.Provisionable scheduler.switchId port.ifindex)
    {index : GroupIndex} (found : scheduler.discovered start port = .ok index)
    (tree : SchedulerTree) (level : SchedulerLevel) (group : GroupNode) :
    ∀ binding ∈ scheduler.groupBindings port tree level index group, ∃ request,
      binding.ComesTo names port.ifindex start request := by
  intro binding member
  rw [Scheduler.groupBindings] at member
  split at member
  · rename_i id listed
    rcases List.mem_append.mp member with isProfile | isChildren
    · exact exists_comesTo_profileBindings
        (exists_comesTo_bindGroupProfile provisionable found listed) binding isProfile
    · cases declared : group.children with
      | none =>
          rw [declared] at isChildren
          cases isChildren
      | some children =>
          rw [declared] at isChildren
          cases List.mem_singleton.mp isChildren
          apply Binding.exists_comesTo_task
          exact (Scheduler.steady_resolveChildren tree level index
            children).exists_comesTo
            (exists_comesTo_setChildren provisionable found listed)
  · split at member
    · cases List.mem_singleton.mp member
      exact ⟨_, .skip rfl⟩
    · cases List.mem_singleton.mp member
      exact Binding.exists_comesTo_task (exists_comesTo_throw _)

theorem exists_comesTo_levelBindings
    (provisionable : start.Provisionable scheduler.switchId port.ifindex)
    {index : Option GroupIndex}
    (found : ∀ groups ∈ index, scheduler.discovered start port = .ok groups)
    (tree : SchedulerTree) (level : SchedulerLevel) :
    ∀ binding ∈ scheduler.levelBindings port tree index level, ∃ request,
      binding.ComesTo names port.ifindex start request := by
  intro binding member
  unfold Scheduler.levelBindings at member
  split at member
  · rcases List.mem_flatMap.mp member with ⟨queue, -, isBinding⟩
    exact exists_comesTo_profileBindings
      (exists_comesTo_bindQueueProfile provisionable _) binding isBinding
  · cases index with
    | some groups =>
        rcases List.mem_flatMap.mp member with ⟨group, -, isBinding⟩
        exact exists_comesTo_groupBindings provisionable (found groups rfl) tree
          level group binding isBinding
    | none =>
        rcases List.mem_map.mp member with ⟨group, -, rfl⟩
        exact ⟨_, .skip rfl⟩

theorem exists_comesTo_treeBindings (names : Names)
    (provisionable : start.Provisionable scheduler.switchId port.ifindex)
    (tree : SchedulerTree) :
    ∀ binding ∈ scheduler.treeBindings port tree (scheduler.discovered start port),
    ∃ request, binding.ComesTo names port.ifindex start request := by
  intro binding member
  cases found : scheduler.discovered start port with
  | ok index =>
      rw [found] at member
      rcases List.mem_flatMap.mp member with ⟨level, -, isBinding⟩
      exact exists_comesTo_levelBindings provisionable (fun groups isIndex => by
        cases isIndex
        exact found) tree level binding isBinding
  | error error =>
      rw [found] at member
      rcases List.mem_cons.mp member with rfl | isLevel
      · exact Binding.exists_comesTo_task (exists_comesTo_throw _)
      · rcases List.mem_flatMap.mp isLevel with ⟨level, -, isBinding⟩
        exact exists_comesTo_levelBindings provisionable
          (fun groups isIndex => by cases isIndex) tree level binding isBinding

/-- However the store has been changed by bindings so far, a tree is applied
in the same way. -/
theorem Scheduler.applyTree_ends {memory : Memory} {tree : SchedulerTree}
    {request : Binding → Request} (distinct : Contents.Distinct start.objects)
    (comes : ∀ binding ∈
        scheduler.treeBindings port tree (scheduler.discovered start port),
      binding.ComesTo names port.ifindex start (request binding))
    (alike : memory.Alike port.ifindex start) :
    ∃ after, (scheduler.applyTree names port tree).Ends Memory.responder memory
        ((scheduler.treeBindings port tree (scheduler.discovered start port)).map
          fun binding => binding.outcome memory.rules start (request binding)) after ∧
      after.Alike port.ifindex start ∧ after.rules = memory.rules ∧
      after.contents = memory.contents.rewritten
        ((scheduler.treeBindings port tree (scheduler.discovered start port)).filterMap
          fun binding => (request binding).accepted? memory.rules start) := by
  rcases Binding.collect_ends comes distinct alike with ⟨after, ends, rest⟩
  rw [applyTree_eq]
  exact ⟨after, (readGroups_finds memory alike).bind ends, rest⟩

end Bindings

end SwitchQos
