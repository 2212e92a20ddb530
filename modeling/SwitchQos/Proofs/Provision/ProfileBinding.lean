import SwitchQos.Proofs.Config.Validation
import SwitchQos.Proofs.Provision.RunStages

namespace SwitchQos

/-! Which profiles a run binds. Each id that it writes to a scheduler group or a queue is
that of the profile that was declared for it, which is stored when the run has ended.
Where none was created under the name, the binding is recorded as a miss. -/

open Exchange

/-- The object is a profile with the id that has just the attributes of the node, as they
are encoded, switch and id aside. -/
structure StoreObject.Shows (node : ProfileNode) (id : Nat)
    (stored : StoreObject) : Prop where
  classPath : stored.classPath = ObjectClass.schedulerProfile.path
  hasId : stored.get? profileIdPath = some (Storage.uint64.word id)
  encoded : ∀ attr text, node.text? attr = some text →
    ∃ value, ObjectClass.schedulerProfile.encodeText attr text = .ok value
  attrs : ∀ attr, ObjectClass.schedulerProfile.Has attr →
  attr ≠ "switch-id" ∧ attr ≠ "id" →
    stored.get? (ObjectClass.schedulerProfile.pathOf attr) = node.written? attr
  paths : ∀ path value, stored.get? path = some value →
    ∃ attr, ObjectClass.schedulerProfile.Has attr ∧
    path = ObjectClass.schedulerProfile.pathOf attr

theorem StoreObject.Renders.shows {switchId id : Nat} {node : ProfileNode}
    {stored : StoreObject} (renders : stored.Renders switchId node id) :
    stored.Shows node id where
  classPath := renders.classPath
  hasId := renders.hasId
  encoded _ _ given := by
    rcases renders.attrs with ⟨profile, built, -⟩
    exact ProfileNode.exists_encoded built given
  attrs _ := renders.get?_eq
  paths _ _ := renders.path

def Operation.BindsProfile (operation : Operation) (value : StoreValue) : Prop :=
  ∃ objectClass : ObjectClass, objectClass.ofTree = true ∧
    operation.object.classPath = objectClass.path ∧
    operation.object.lookup (objectClass.pathOf "scheduler-profile-id") = some value

theorem Adding.not_bindsProfile {classes : Set ObjectClass} {batch : List Operation}
    (adding : Adding classes batch)
    (apart : ∀ objectClass ∈ classes, objectClass.ofTree = false)
    {operation : Operation} (member : operation ∈ batch) (value : StoreValue) :
    ¬operation.BindsProfile value := by
  rintro ⟨objectClass, isTree, isOf, -⟩
  rcases adding operation member with ⟨-, -, otherClass, isOne, otherOf⟩
  cases ObjectClass.path_injective (isOf.symm.trans otherOf)
  cases isTree.symm.trans (apart objectClass isOne)

/-! ## Declared bindings -/

/-- On the port the node binds a profile by the name, to a group that has been discovered
or to a queue. The item is called like this. -/
inductive PortNode.Declares (node : PortNode) (port : Port)
    (found : Except ProvisionError GroupIndex) : String → String → Prop
  | group {tree : SchedulerTree} {level : SchedulerLevel} {group : GroupNode}
      {index : GroupIndex} {id : Nat} {name : String} (isTree : node.tree = some tree)
      (isLevel : level ∈ tree.levels) (isGroup : group ∈ level.groups)
      (isFound : found = .ok index)
      (discovered : index.get? level.level group.number = some id)
      (declared : group.profile = some name) :
      Declares node port found
        (Scheduler.groupTarget port level group ++ " profile " ++ name) name
  | queue {tree : SchedulerTree} {level : SchedulerLevel}
      {queue : QueueNode} {name : String} (isTree : node.tree = some tree)
      (isLevel : level ∈ tree.levels) (isQueue : queue ∈ level.queues)
      (declared : queue.profile = some name) :
      Declares node port found
        (port.name ++ " " ++ (QueueKey.mk port.ifindex queue.queueType
          queue.number).text ++ " profile " ++ name) name

section Declared

variable {switchId : Nat} {scheduler : Scheduler} {names : Names}
  {start : Contents} {port : Port} {node : PortNode} {tree : SchedulerTree}
  {found : Except ProvisionError GroupIndex} {errand : Errand} {operation : Operation}
  {value : StoreValue} {target name : String}

theorem ProfileNode.not_bindsProfile_of_errand {profile : ProfileNode}
    (leads : (profile.errand switchId).plan.Leads (.applied operation)) :
    ¬operation.BindsProfile value := by
  unfold ProfileNode.errand at leads
  dsimp only at leads
  split at leads
  · rename_i authored built
    cases leads with
    | applied isOne =>
        rintro ⟨objectClass, isTree, isOf, -⟩
        rw [Set.mem_singleton_iff.mp isOne] at isOf
        cases ObjectClass.path_injective
          ((plain_schedulerProfile built).2.symm.trans isOf)
        cases isTree
  · cases leads

theorem not_bindsProfile_of_mapErrands (leads : errand.plan.Leads (.applied operation))
    (member : errand ∈ mapErrands switchId names port node) :
    ¬operation.BindsProfile value := by
  have each {direction : Direction} {mapType : MapType} {tag : String}
      (same : mapErrand switchId names port direction mapType tag = errand) :
      ¬operation.BindsProfile value := by
    subst same
    unfold mapErrand at leads
    dsimp only at leads
    split at leads
    · split at leads
      · cases leads with
        | applied isOne =>
            rintro ⟨objectClass, isTree, isOf, -⟩
            rw [Set.mem_singleton_iff.mp isOne] at isOf
            cases ObjectClass.path_injective
              (ObjectClass.classPath_assemble.symm.trans isOf)
            cases direction <;> cases isTree
      · cases leads
    · cases leads
  rcases List.mem_append.mp member with isIngress | isEgress
  · rcases List.mem_map.mp isIngress with ⟨row, -, same⟩
    exact each same
  · rcases List.mem_map.mp isEgress with ⟨row, -, same⟩
    exact each same

theorem Scheduler.Applies.declares {object : StoreObject} (isTree : node.tree = some tree)
    (applies : scheduler.Applies names start port tree found target object)
    (binds : Operation.BindsProfile ⟨.set, object⟩ value) :
    ∃ name id, node.Declares port found target name ∧ names.profiles.get? name = some id ∧
      value = Storage.uint64.word id := by
  rcases binds with ⟨objectClass, -, isOf, written⟩
  dsimp only at isOf written
  have plain : object.IsPlain := by cases applies <;> exact ObjectClass.keyData_assemble
  rw [plain.lookup] at written
  cases applies with
  | groupProfile isLevel isGroup isFound discovered declared named =>
      cases ObjectClass.path_injective (ObjectClass.classPath_assemble.symm.trans isOf)
      rw [Scheduler.groupProfile,
        get?_groupObject (by decide) (by simp; decide)] at written
      exact ⟨_, _, .group isTree isLevel isGroup isFound discovered declared, named,
        (Option.some.inj written).symm⟩
  | groupChildren =>
      cases ObjectClass.path_injective (ObjectClass.classPath_assemble.symm.trans isOf)
      rw [Scheduler.groupChildren,
        get?_groupObject (by decide) (by simp; decide)] at written
      cases written
  | queueProfile isLevel isQueue declared named =>
      cases ObjectClass.path_injective (ObjectClass.classPath_assemble.symm.trans isOf)
      rw [get?_queueObject (by decide)] at written
      exact ⟨_, _, .queue isTree isLevel isQueue declared, named,
        (Option.some.inj written).symm⟩

theorem exists_declares_of_errands (leads : errand.plan.Leads (.applied operation))
    (binds : operation.BindsProfile value)
    (member : errand ∈ node.errands scheduler names start port found) :
    ∃ name id, node.Declares port found errand.target name ∧
    names.profiles.get? name = some id ∧
      value = Storage.uint64.word id := by
  rcases List.mem_append.mp member with isMap | isTree
  · exact absurd binds (not_bindsProfile_of_mapErrands leads isMap)
  · rcases List.mem_flatMap.mp isTree with ⟨tree, declared, isTree⟩
    rcases Scheduler.applies_of_treeErrands leads isTree with ⟨object, rfl, applies⟩
    exact applies.declares (Option.mem_toList.mp declared) binds

theorem profileErrand_of_missing {settings : Nat → Set StoreObject}
    (missing : names.profiles.get? name = none) :
    Scheduler.profileErrand names target settings name =
      ⟨target ++ " profile " ++ name, .fail (.lookupMiss .schedulerProfile name)⟩ := by
  rw [Scheduler.profileErrand, missing]

/-- If a name is not known, each binding of it that is declared is bound to fail. -/
theorem PortNode.Declares.mem_errands
    (accepted : ∀ tree, node.tree = some tree →
      ∀ level ∈ tree.levels, level.fault? = none)
    (declares : node.Declares port found target name)
    (missing : names.profiles.get? name = none) :
    ⟨target, .fail (.lookupMiss .schedulerProfile name)⟩ ∈
      node.errands scheduler names start port found := by
  refine List.mem_append_right _ (List.mem_flatMap.mpr ?_)
  cases declares with
  | group isTree isLevel isGroup isFound discovered declared =>
      subst isFound
      have sound := SchedulerLevel.fault?_eq_none_iff.mp (accepted _ isTree _ isLevel)
      have noLeaf := mt sound.1 (List.ne_nil_of_mem isGroup)
      refine ⟨_, Option.mem_toList.mpr isTree, List.mem_flatMap.mpr ⟨_, isLevel, ?_⟩⟩
      rw [Scheduler.levelErrands, if_neg noLeaf]
      refine List.mem_flatMap.mpr ⟨_, isGroup, ?_⟩
      rw [Scheduler.groupErrands, discovered]
      exact List.mem_append_left _ (List.mem_map.mpr ⟨_, Option.mem_toList.mpr declared,
        profileErrand_of_missing missing⟩)
  | @queue tree level queue name isTree isLevel isQueue declared =>
      have sound := SchedulerLevel.fault?_eq_none_iff.mp (accepted _ isTree _ isLevel)
      have isLeaf : level.leaf = true :=
        Bool.not_eq_false _ ▸ mt sound.2 (List.ne_nil_of_mem isQueue)
      let key : QueueKey := ⟨port.ifindex, queue.queueType, queue.number⟩
      have listed (index : Option GroupIndex) :
        ⟨port.name ++ " " ++ key.text ++ " profile " ++ name,
          .fail (.lookupMiss .schedulerProfile name)⟩ ∈
            tree.levels.flatMap (scheduler.levelErrands names start port tree index) := by
        refine List.mem_flatMap.mpr ⟨level, isLevel, ?_⟩
        unfold Scheduler.levelErrands
        rw [if_pos isLeaf]
        exact List.mem_flatMap.mpr ⟨queue, isQueue, List.mem_map.mpr ⟨name,
          Option.mem_toList.mpr declared, profileErrand_of_missing missing⟩⟩
      refine ⟨tree, Option.mem_toList.mpr isTree, ?_⟩
      -- Queues are bound even where the groups of the port cannot be read.
      cases found with
      | ok index => exact listed (some index)
      | error error => exact List.mem_cons_of_mem _ (listed none)

end Declared

structure Visit.BindsDeclared (visit : Visit) (node : PortNode)
    (recorded : List (ProfileNode × Status)) (contents : Contents) : Prop where
  /-- Each id that is written is that of the profile that was recorded last
  under the name. -/
  bound : ∀ entry ∈ visit.ledger, ∀ operation ∈ entry.operations, ∀ value,
    operation.BindsProfile value → ∃ name profile id,
      node.Declares visit.port visit.found entry.target name ∧
      lastApplied recorded name = some profile ∧ value = Storage.uint64.word id ∧
      ∃ stored ∈ contents.objects, stored.Shows profile id
  /-- If none was recorded under the name, the binding is missed, and so it
  writes nothing. -/
  missed : ∀ target name, node.Declares visit.port visit.found target name →
    lastApplied recorded name = none →
      ⟨target, .failed (.lookupMiss .schedulerProfile name)⟩ ∈ visit.ledger

theorem Visit.Accounted.bindsDeclared {Whole : Type} {whole : Exchange Whole}
    {provisioner : Provisioner} {origin : Memory} {names : Names}
    {node : PortNode} {visit : Visit} {recorded : List (ProfileNode × Status)}
    {contents : Contents} (accepted : ∀ tree, node.tree = some tree →
      ∀ level ∈ tree.levels, level.fault? = none)
    (accounted : visit.Accounted provisioner whole origin names node)
    (tells : names.Tells provisioner.switchId recorded contents) :
    visit.BindsDeclared node recorded contents where
  bound entry member operation made value binds := by
    rcases Results.exists_left accounted.2 member with ⟨errand, isErrand, settles⟩
    have leads := Entry.applied_of_mem_operations made ▸ settles.leads
    rcases exists_declares_of_errands leads binds isErrand with
      ⟨name, id, declares, named, rfl⟩
    cases isLast : lastApplied recorded name with
    | none => cases named.symm.trans (tells.missing name isLast)
    | some profile =>
        rcases tells.known name profile isLast with
          ⟨other, namedToo, stored, isStored, renders⟩
        cases named.symm.trans namedToo
        exact ⟨name, profile, id, settles.target ▸ declares, isLast, rfl,
          stored, isStored, renders.shows⟩
  missed target name declares isNone := by
    rcases Results.exists_right accounted.2
      (declares.mem_errands accepted (tells.missing name isNone)) with
      ⟨entry, member, settles⟩
    rcases entry with ⟨own, verdict⟩
    rcases settles with ⟨rfl, leads⟩
    cases leads
    exact member

namespace Provisioner

/-- A run binds the profiles that are declared. Each id that it writes to a scheduler
group or a queue is that of a profile that is stored when the run has ended. Its
attributes, switch and id aside, are as declared by the last node of the name among the
globals before the port node whose creation was recorded as applied. A binding of a name
without such a node is a miss. -/
theorem run_binds_declared_profiles {provisioner : Provisioner} {config : Config}
    {memory after : Memory} {report : RunReport} (accepted : config.fault? = none)
    (plain : ∀ stored ∈ memory.contents.objects, stored.IsPlain)
    (ends : (provisioner.run config).Ends Memory.responder memory report after) :
    ∃ stages : List Stage, stages.map Stage.node = config.nodes ∧
      report = ⟨stages.flatMap Stage.phases⟩ ∧
      after.log = memory.log ++ stages.flatMap Stage.operations ∧
      (∀ node maps filled profiles, .globals node maps filled profiles ∈ stages →
        maps.length = node.maps.length ∧
        List.Forall₂ Errand.Settles
          (node.profiles.map (·.errand provisioner.switchId)) profiles ∧
        ∀ operation ∈ (Stage.globals node maps filled profiles).operations, ∀ value,
          ¬operation.BindsProfile value) ∧
      ∀ earlier interfaceClass node visits later,
        stages = earlier ++ .ports interfaceClass node visits :: later →
          ∃ names : Names,
            names.Tells provisioner.switchId (earlier.flatMap Stage.recorded)
              after.contents ∧
            ∀ visit ∈ visits,
              visit.Accounted provisioner (provisioner.run config) memory names node ∧
              visit.BindsDeclared node (earlier.flatMap Stage.recorded)
                after.contents := by
  rcases ends_bind_iff.mp ends with ⟨phases, _, ran, done⟩
  rcases ends_done_iff.mp done with ⟨rfl, rfl⟩
  -- At the start no name is known, and every group and queue is its own origin.
  have nothing := @Names.tells_nothing provisioner.switchId memory.contents
  rcases exists_stages nothing (Contents.descendsFrom_self plain)
    (includes_self (provisioner.run config) memory).part ran with
    ⟨stages, isNodes, rfl, log, chain⟩
  refine ⟨stages, isNodes, rfl, log, fun node maps filled profiles member => ?_,
    fun earlier interfaceClass node visits later split => ?_⟩
  · rcases List.append_of_mem member with ⟨earlier, later, split⟩
    rcases chain _ _ _ split with ⟨sameLength, adding, settled⟩
    refine ⟨sameLength, settled, fun operation made value => ?_⟩
    rcases List.mem_append.mp made with isMap | isProfile
    · exact adding.not_bindsProfile (by rintro _ ⟨mapType, rfl | rfl⟩ <;> rfl) isMap value
    · rcases List.mem_flatMap.mp isProfile with ⟨entry, isEntry, isOne⟩
      rcases Results.exists_left settled isEntry with ⟨errand, isErrand, settles⟩
      rcases List.mem_map.mp isErrand with ⟨profile, -, rfl⟩
      exact ProfileNode.not_bindsProfile_of_errand
        (Entry.applied_of_mem_operations isOne ▸ settles.leads)
  · rcases chain _ _ _ split with ⟨names, tells, accounted⟩
    have isNode : .ports interfaceClass node ∈ config.nodes := by
      rw [← isNodes, split]
      simp [Stage.node]
    exact ⟨names, tells, fun visit member => ⟨accounted visit member,
      (accounted visit member).bindsDeclared (Config.fault?_level accepted isNode) tells⟩⟩

def redeclared : Config :=
  let heavy : ProfileNode := { tag := "fair", attrs := ⟨[("weight", .int 7)]⟩ }
  let broken : ProfileNode := { tag := "broken", attrs := ⟨[("colour", .text "red")]⟩ }
  let queues : List QueueNode :=
    [{ queueType := "UCAST", number := 0, profile := some "fair" },
      { queueType := "UCAST", number := 1, profile := some "broken" }]
  ⟨[.globals { profiles := [{ tag := "fair" }, heavy, broken] },
    .ports .frontPanel { tree := some ⟨[{ level := 0, leaf := true, queues }]⟩ }]⟩

def twoQueues : Memory :=
  (Memory.ofTopology 0 ⟨[{ queuePort with unicastQueues := 2 }]⟩).toOption.getD (.new 0)

theorem run_binds_declared_profiles_redeclared :
    redeclared.fault? = none ∧ (∀ stored ∈ twoQueues.contents.objects, stored.IsPlain) ∧
    ∃ (report : RunReport) (after : Memory) (stages : List Stage),
      (run ⟨0, 3⟩ redeclared).Ends Memory.responder twoQueues report after ∧
      (report.appliedCount, report.failureCount, after.log.length) = (3, 2, 3) ∧
      stages.map Stage.node = redeclared.nodes ∧ report = ⟨stages.flatMap Stage.phases⟩ ∧
      after.log = twoQueues.log ++ stages.flatMap Stage.operations ∧
      ∀ earlier interfaceClass node visits later,
        stages = earlier ++ .ports interfaceClass node visits :: later → ∀ visit ∈ visits,
          visit.BindsDeclared node (earlier.flatMap Stage.recorded) after.contents := by
  have accepted : redeclared.fault? = none := by decide +kernel
  have plain : ∀ stored ∈ twoQueues.contents.objects, stored.IsPlain := by decide +kernel
  obtain ⟨result, isResult⟩ : ∃ result,
      (run ⟨0, 3⟩ redeclared).run Memory.responder twoQueues = result := ⟨_, rfl⟩
  have counted : result.1.map (fun report : RunReport =>
      (report.appliedCount, report.failureCount, result.2.log.length)) =
        some (3, 2, 3) := by
    rw [← isResult]
    decide +kernel
  rcases result with ⟨_ | report, after⟩
  · cases counted
  · rcases run_binds_declared_profiles accepted plain isResult with
      ⟨stages, nodes, phases, log, -, bound⟩
    refine ⟨accepted, plain, report, after, stages, isResult,
      Option.some.inj counted, nodes, phases,
      log, fun earlier interfaceClass node visits later split visit member => ?_⟩
    rcases bound _ _ _ _ _ split with ⟨_, -, each⟩
    exact (each visit member).2

end Provisioner

end SwitchQos
