import SwitchQos.Proofs.MapEntry.Authoring
import SwitchQos.Proofs.Provision.Footprint

namespace SwitchQos

/-! Which batches the parts of a run submit, whatever the store replies. Global nodes only
create tables, entries and profiles. A run deletes nothing and changes no table it has
created, and the QoS objects of ports are written only where maps are bound. -/

namespace Operation

/-- Nothing is deleted, and no table is changed. -/
def KeepsTables (operation : Operation) : Prop :=
  operation.verb = .create ∨
    operation.verb = .set ∧
      ∀ mapType, operation.object.classPath ≠ (ObjectClass.mapTable mapType).path

def SparesPorts (operation : Operation) : Prop :=
  ∀ direction : Direction, operation.object.classPath ≠ direction.objectClass.path

end Operation

/-- All a run submits apart from the binding of maps. -/
def Harmless (batch : List Operation) : Prop :=
  ∀ operation ∈ batch, operation.KeepsTables ∧ operation.SparesPorts

theorem Harmless.keepsTables {batch : List Operation} (harmless : Harmless batch) :
    ∀ operation ∈ batch, operation.KeepsTables :=
  fun operation member => (harmless operation member).1

theorem harmless_set {objectClass : ObjectClass} {object : StoreObject}
    (samePath : object.classPath = objectClass.path)
    (noTable : ∀ mapType, objectClass ≠ .mapTable mapType)
    (noPort : ∀ direction : Direction, objectClass ≠ direction.objectClass) :
    Harmless [⟨.set, object⟩] := by
  intro operation member
  rw [List.mem_singleton.mp member]
  refine ⟨.inr ⟨rfl, fun mapType same => noTable mapType ?_⟩, fun direction same => ?_⟩
  · exact ObjectClass.path_injective (samePath.symm.trans same)
  · exact noPort direction (ObjectClass.path_injective (samePath.symm.trans same))

/-- What all operations that may be submitted keep, a run keeps. -/
theorem Memory.kept_of_submits {Result : Type} {exchange rest : Exchange Result}
    {allowed : List Operation → Prop} {Kept : Contents → Prop} {before later : Memory}
    (submits : exchange.Submits allowed)
    (keeps : ∀ batch, allowed batch → ∀ operation ∈ batch, Contents.Keeps Kept operation)
    (reaches : Exchange.Reaches responder exchange before rest later)
    (kept : Kept before.contents) : Kept later.contents := by
  refine submits.kept (fun memory : Memory => Kept memory.contents)
    (fun template memory kept => ?_) (fun batch memory isAllowed kept => ?_)
    (fun interfaceClass memory kept => ?_) reaches kept
  · exact (@contents_query memory template).symm ▸ kept
  · exact transact_keeps (keeps batch isAllowed) kept
  · exact (@contents_listPorts memory interfaceClass).symm ▸ kept

def Adding (classes : Set ObjectClass) (batch : List Operation) : Prop :=
  ∀ operation ∈ batch, operation.verb = .create ∧ operation.object.IsPlain ∧
    ∃ objectClass ∈ classes, operation.object.classPath = objectClass.path

def ObjectClass.ofMaps : Set ObjectClass :=
  {objectClass | ∃ mapType, objectClass = .mapTable mapType ∨
    objectClass = .mapEntry mapType}

def ObjectClass.ofEntries : Set ObjectClass :=
  {objectClass | ∃ mapType, objectClass = .mapEntry mapType}

theorem ObjectClass.ofEntries_subset : ofEntries ⊆ ofMaps := by
  rintro _ ⟨mapType, rfl⟩
  exact ⟨mapType, .inr rfl⟩

section Adding

variable {classes : Set ObjectClass} {batch : List Operation}

theorem Adding.keepsTables (adding : Adding classes batch) :
    ∀ operation ∈ batch, operation.KeepsTables :=
  fun operation member => .inl (adding operation member).1

theorem Adding.mono {others : Set ObjectClass} (within : classes ⊆ others)
    (adding : Adding classes batch) : Adding others batch := by
  intro operation member
  rcases adding operation member with ⟨creates, plain, objectClass, isOne, samePath⟩
  exact ⟨creates, plain, objectClass, within isOne, samePath⟩

theorem adding_singleton {objectClass : ObjectClass} {values : List (String × StoreValue)}
    (isOne : objectClass ∈ classes) :
    Adding classes [⟨.create, objectClass.assemble values⟩] := by
  intro operation member
  rw [List.mem_singleton.mp member]
  exact ⟨rfl, ObjectClass.keyData_assemble, objectClass, isOne,
    ObjectClass.classPath_assemble⟩

end Adding

def ObjectClass.ofGlobals : Set ObjectClass := insert .schedulerProfile ofMaps

theorem Adding.harmless {batch : List Operation}
    (adding : Adding ObjectClass.ofGlobals batch) :
    Harmless batch := by
  intro operation member
  rcases adding operation member with ⟨creates, -, objectClass, isGlobal, samePath⟩
  refine ⟨.inl creates, fun direction same => ?_⟩
  cases ObjectClass.path_injective (samePath.symm.trans same)
  rcases isGlobal with isProfile | ⟨mapType, isTable | isEntry⟩ <;> cases direction <;>
    contradiction

namespace Task

variable {Result Other : Type} {allowed : List Operation → Prop}

theorem submits_ofCodec_bind {result : Except CodecError Result}
    {next : Result → Task Other}
    (later : ∀ value, result = .ok value → (next value).run.Submits allowed) :
    (Task.ofCodec result >>= next).run.Submits allowed := by
  rw [run_bind]
  cases result with
  | ok value => exact later value rfl
  | error cause => trivial

theorem submits_require_bind {value : Option Result} {error : ProvisionError}
    {next : Result → Task Other} (later : ∀ given, (next given).run.Submits allowed) :
    (Task.require value error >>= next).run.Submits allowed :=
  submits_bind trivial later

theorem submits_mapM {Item : Type} {step : Item → Task Result} {items : List Item}
    (each : ∀ item ∈ items, (step item).run.Submits allowed) :
    (items.mapM step).run.Submits allowed := by
  induction items with
  | nil => trivial
  | cons item rest induction =>
      rw [List.mapM_cons]
      have others :=
        induction fun other member => each other (List.mem_cons_of_mem _ member)
      exact submits_bind (each item List.mem_cons_self) fun _ =>
        submits_bind others fun _ => trivial

end Task

/-! ## Profiles -/

namespace Scheduler

open SwitchQos.Task

variable {scheduler : Scheduler}

theorem submits_createProfile {tag : String} {attrs : Directory String String} :
    (scheduler.createProfile tag attrs).run.Submits (Adding {.schedulerProfile}) := by
  refine submits_bind (submits_ofCodec_bind fun authored built =>
    submits_transact ?_) fun _ => ?_
  · rcases Results.bind_eq_ok_iff.mp built with ⟨data, started, written⟩
    rcases onSwitch_eq_ok_iff.mp started with ⟨-, rfl⟩
    rcases Authored.setTexts_eq_ok_iff.mp written with ⟨rows, -, rfl⟩
    exact adding_singleton rfl
  · exact submits_require_bind fun _ => submits_ofCodec_bind fun _ _ =>
      submits_ofCodec_bind fun _ _ => trivial

end Scheduler

/-! ## Map tables -/

namespace MapTable

open SwitchQos.Task

variable {table : MapTable}

theorem submits_create {mapType : MapType} {switchId : Nat} :
    (MapTable.create mapType switchId).run.Submits (Adding ObjectClass.ofMaps) := by
  refine submits_ofCodec_bind fun request built =>
    submits_bind (submits_transact ?_) fun _ => ?_
  · rcases TableAddress.tableObject_eq_ok_iff.mp built with ⟨-, -, rfl⟩
    exact adding_singleton ⟨mapType, .inl rfl⟩
  · exact submits_require_bind fun _ => submits_ofCodec_bind fun _ _ =>
      submits_ofCodec_bind fun _ _ => submits_require_bind fun _ => trivial

structure CreatesEntries (table : MapTable) : Prop where
  entries : ∀ object ∈ table.created, object.IsPlain ∧
    object.classPath = (ObjectClass.mapEntry table.mapType).path
  unmodified : table.modified = []
  undeleted : table.deleted = []

theorem CreatesEntries.add {entry : AuthoredEntry} {range : Option IntRange} {count : Nat}
    {result : MapTable} (creates : table.CreatesEntries)
    (added : table.add entry range = .ok (count, result)) : result.CreatesEntries := by
  rcases Results.bind_eq_ok_iff.mp added with ⟨objects, built, same⟩
  cases same
  rw [Results.mapError_eq_ok_iff, TableAddress.entryObjects,
    Results.bind_eq_ok_iff] at built
  rcases built with ⟨entries, -, built⟩
  refine ⟨fun object member => ?_, creates.unmodified, creates.undeleted⟩
  rcases List.mem_append.mp member with old | new
  · exact creates.entries object old
  · rcases Results.exists_of_mem_mapM built object new with ⟨fields, -, entryBuilt⟩
    have hasId : table.address.id = some table.id := rfl
    rcases (TableAddress.entryObject_eq_ok_iff hasId).mp entryBuilt with
      ⟨-, -, rows, -, rfl⟩
    exact ⟨ObjectClass.keyData_assemble, ObjectClass.classPath_assemble⟩

theorem keeps_foldlM_add {Kept : MapTable → Prop} {entries : List EntryNode}
    {range : Option IntRange} {result : MapTable}
    (adds : ∀ {table entry count result}, Kept table →
      table.add entry range = .ok (count, result) → Kept result)
    (staged : entries.foldlM
      (fun table entry => (table.add entry.authored range).map (·.2))
      table = .ok result) (kept : Kept table) : Kept result := by
  induction entries generalizing table with
  | nil =>
      cases staged
      exact kept
  | cons entry rest induction =>
      rw [List.foldlM_cons, Results.bind_eq_ok_iff] at staged
      rcases staged with ⟨next, first, later⟩
      rcases Results.map_eq_ok_iff.mp first with ⟨⟨count, added⟩, isAdded, rfl⟩
      exact induction later (adds kept isAdded)

theorem CreatesEntries.foldlM_add {entries : List EntryNode} {range : Option IntRange}
    {result : MapTable} (creates : table.CreatesEntries)
    (staged : entries.foldlM
      (fun table entry => (table.add entry.authored range).map (·.2))
      table = .ok result) : result.CreatesEntries :=
  keeps_foldlM_add (fun kept added => kept.add added) staged creates

theorem CreatesEntries.submits_commit (creates : table.CreatesEntries) :
    table.commit.run.Submits (Adding ObjectClass.ofEntries) := by
  rw [commit]
  split
  · trivial
  · refine submits_bind (submits_transact ?_) fun _ => trivial
    rw [batch, creates.unmodified, creates.undeleted, List.map_nil, List.map_nil,
      List.append_nil, List.append_nil]
    intro operation member
    rcases List.mem_map.mp member with ⟨object, staged, rfl⟩
    rcases creates.entries object staged with ⟨plain, isEntry⟩
    exact ⟨rfl, plain, _, ⟨table.mapType, rfl⟩, isEntry⟩

theorem gives_create {mapType : MapType} {switchId : Nat} :
    (MapTable.create mapType switchId).Gives CreatesEntries :=
  gives_bind fun _ => gives_bind fun _ => gives_bind fun _ => gives_bind fun _ =>
    gives_bind fun _ => gives_bind fun _ => gives_pure ⟨by simp, rfl, rfl⟩

theorem submits_fill {allowed : List Operation → Prop} {entries : List EntryNode}
    {range : Option IntRange}
    (commits : ∀ result, entries.foldlM
      (fun table entry => (table.add entry.authored range).map (·.2)) table = .ok result →
        result.commit.run.Submits allowed) :
    (do let staged ← (ExceptT.mk (.done (entries.foldlM
          (fun table entry => (table.add entry.authored range).map (·.2)) table)) :
          Task MapTable)
        let _ ← staged.commit
        return table.id : Task Nat).run.Submits allowed := by
  rw [run_bind]
  cases staged : entries.foldlM
      (fun table entry => (table.add entry.authored range).map (·.2)) table with
  | error error => trivial
  | ok result => exact submits_bind (commits result staged) fun _ => trivial

theorem CreatesEntries.submits_fill {entries : List EntryNode} {range : Option IntRange}
    (creates : table.CreatesEntries) :
    (do let staged ← (ExceptT.mk (.done (entries.foldlM
          (fun table entry => (table.add entry.authored range).map (·.2)) table)) :
          Task MapTable)
        let _ ← staged.commit
        return table.id : Task Nat).run.Submits (Adding ObjectClass.ofEntries) :=
  MapTable.submits_fill fun _ staged => (creates.foldlM_add staged).submits_commit

end MapTable

namespace Provisioner

open SwitchQos.Task

variable {provisioner : Provisioner} {names : Names}

theorem submits_createMap {node : MapNode} :
    (provisioner.createMap node).run.Submits (Adding ObjectClass.ofMaps) :=
  submits_bind_of_gives MapTable.submits_create MapTable.gives_create fun _ creates =>
    creates.submits_fill.mono fun _ => .mono ObjectClass.ofEntries_subset

theorem submits_each_createMap {allowed : List Operation → Prop} {nodes : List MapNode}
    (each : ∀ node, (provisioner.createMap node).run.Submits allowed) :
    (provisioner.createMaps nodes names).Submits allowed := by
  induction nodes generalizing names with
  | nil => trivial
  | cons node rest induction =>
      rw [createMaps]
      split
      · exact (each node).bind fun _ => induction.bind fun _ => trivial
      · exact induction.bind fun _ => trivial

theorem submits_each_createProfile {allowed : List Operation → Prop}
    {nodes : List ProfileNode} (each : ∀ node ∈ nodes,
      (provisioner.scheduler.createProfile node.tag node.attrTexts).run.Submits allowed) :
    (provisioner.createProfiles nodes names).Submits allowed := by
  induction nodes generalizing names with
  | nil => trivial
  | cons node rest induction =>
      have others := fun {names} => @induction names fun other member =>
        each other (List.mem_cons_of_mem _ member)
      exact (each node List.mem_cons_self).bind fun _ => others.bind fun _ => trivial

theorem submits_createMaps {nodes : List MapNode} :
    (provisioner.createMaps nodes names).Submits (Adding ObjectClass.ofMaps) :=
  submits_each_createMap fun _ => submits_createMap

theorem submits_createProfiles {nodes : List ProfileNode} :
    (provisioner.createProfiles nodes names).Submits (Adding {.schedulerProfile}) :=
  submits_each_createProfile fun _ _ => Scheduler.submits_createProfile

theorem submits_all_createProfile {allowed : List Operation → Prop}
    {nodes : List GlobalsNode} (each : ∀ node ∈ nodes, ∀ profile ∈ node.profiles,
      (provisioner.scheduler.createProfile profile.tag profile.attrTexts).run.Submits
        allowed) :
    (provisioner.createAllProfiles nodes names).Submits allowed := by
  induction nodes generalizing names with
  | nil => trivial
  | cons node rest induction =>
      rw [List.forall_mem_cons] at each
      exact (submits_each_createProfile each.1).bind fun _ =>
        (induction each.2).bind fun _ => trivial

theorem submits_createAllProfiles {nodes : List GlobalsNode} :
    (provisioner.createAllProfiles nodes names).Submits (Adding {.schedulerProfile}) :=
  submits_all_createProfile fun _ _ _ _ => Scheduler.submits_createProfile

theorem submits_initGlobals {node : GlobalsNode} :
    (provisioner.initGlobals names node).Submits (Adding ObjectClass.ofGlobals) :=
  (submits_createMaps.mono fun _ => .mono (Set.subset_insert _ _)).bind fun _ =>
    (submits_createProfiles.mono fun _ =>
      .mono (Set.singleton_subset_iff.mpr (.inl rfl))).bind
      fun _ => trivial

end Provisioner

/-! ## Ports -/

/-- What is submitted where a port node is applied to a port: a map is bound to the port
under its tag, or the ports' own objects are left alone. -/
def PortBatch (switchId : Nat) (names : Names) (node : PortNode) (ifindex : Nat)
    (batch : List Operation) : Prop :=
  Harmless batch ∨
    ∃ direction mapType tag id, (mapType, tag) ∈ node.bindings direction ∧
      names.maps.get? tag = some id ∧ direction.objectClass.Has mapType.name ∧
      batch = [⟨.set, direction.objectClass.assemble
        [(mapType.name, Storage.uint64.word id), ("port-id", Storage.uint32.word ifindex),
         ("switch-id", Storage.uint32.word switchId)]⟩]

theorem PortBatch.keepsTables {switchId ifindex : Nat} {names : Names} {node : PortNode}
    {batch : List Operation} (batchFor : PortBatch switchId names node ifindex batch) :
    ∀ operation ∈ batch, operation.KeepsTables := by
  rcases batchFor with harmless | ⟨direction, mapType, tag, id, -, -, -, rfl⟩
  · exact harmless.keepsTables
  · intro operation member
    rw [List.mem_singleton.mp member]
    refine .inr ⟨rfl, fun other same => ?_⟩
    have sameClass :=
      ObjectClass.path_injective (ObjectClass.classPath_assemble.symm.trans same)
    cases direction <;> cases sameClass

namespace Provisioner

variable {provisioner : Provisioner} {names : Names} {node : PortNode}

theorem submits_initPort {port : Port} :
    (provisioner.initPort names node port).Submits
      (PortBatch provisioner.switchId names node port.ifindex) := by
  refine (Footprint.parallel_initPort provisioner names node port).submits.mono ?_
  rintro batch ⟨object, other, sets, rfl⟩
  cases sets with
  | groupProfile | groupChildren =>
      exact .inl (harmless_set ObjectClass.classPath_assemble (by simp) (by rintro ⟨⟩ ⟨⟩))
  | queueProfile =>
      exact .inl (harmless_set ObjectClass.classPath_assemble (by simp) (by rintro ⟨⟩ ⟨⟩))
  | @portMap direction mapType id bound has _ =>
      rcases bound with ⟨tag, declared, named⟩
      exact .inr ⟨direction, mapType, tag, id, declared, named, has, rfl⟩

theorem submits_each_initPort {allowed : List Operation → Prop}
    {interfaceClass : InterfaceClass}
    (each : ∀ port, (provisioner.initPort names node port).Submits allowed) :
    (provisioner.initPortsOf names interfaceClass node).Submits allowed := by
  have polling : ∀ (polls : Nat) (tracker : PortTracker),
      (provisioner.initListed names node polls tracker).Submits allowed := by
    intro polls
    induction polls with
    | zero => exact fun _ => trivial
    | succ polls induction =>
        intro tracker reply
        cases reply with
        | error error => exact induction tracker
        | ok listing =>
            dsimp only [Exchange.bind]
            split
            · trivial
            · refine Exchange.Submits.bind
                (Exchange.submits_collect fun port _ => ?_) fun _ =>
                (induction _).bind fun _ => trivial
              exact (each port).bind fun _ => trivial
  exact polling _ _

theorem submits_initPortsOf {interfaceClass : InterfaceClass} :
    (provisioner.initPortsOf names interfaceClass node).Submits
      fun batch => ∀ operation ∈ batch, operation.KeepsTables :=
  submits_each_initPort fun _ => submits_initPort.mono fun _ batchFor =>
    batchFor.keepsTables

theorem submits_runNodes {allowed : List Operation → Prop} {nodes : List ConfigNode}
    (globals : ∀ names node, .globals node ∈ nodes →
      (provisioner.initGlobals names node).Submits allowed)
    (ports : ∀ names node port, (provisioner.initPort names node port).Submits allowed) :
    (provisioner.runNodes nodes names).Submits allowed := by
  induction nodes generalizing names with
  | nil => trivial
  | cons first rest induction =>
      have others := fun {names} => @induction names fun names node member =>
        globals names node (List.mem_cons_of_mem _ member)
      cases first with
      | globals node =>
          exact (globals names node List.mem_cons_self).bind fun _ =>
            others.bind fun _ => trivial
      | ports interfaceClass node =>
          exact (submits_each_initPort (ports names node)).bind fun _ =>
            others.bind fun _ => trivial

end Provisioner

/-! ## Interfaces -/

theorem Exchange.submits_findPort {allowed : List Operation → Prop} {name : String} :
    (findPort name).Submits allowed := by
  refine Submits.bind (fun _ => trivial) fun reply => ?_
  cases reply with
  | error cause => trivial
  | ok listing =>
      simp only [ExceptT.bindCont]
      split
      · trivial
      · refine Submits.bind (fun _ => trivial) fun reply => ?_
        cases reply <;> trivial

theorem Provisioner.submits_resolveAll {allowed : List Operation → Prop}
    {names : List String} :
    (resolveAll names).run.Submits allowed :=
  Task.submits_mapM fun _ _ =>
    Task.submits_bind (Exchange.submits_findPort.bind fun _ => trivial)
    fun _ => trivial

end SwitchQos
