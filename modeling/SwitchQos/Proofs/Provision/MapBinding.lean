import SwitchQos.Config.Validation
import SwitchQos.Proofs.Provision.Arrivals

namespace SwitchQos

/-! Where the ids that are bound to ports come from. A run notes the ids of the tables
it has created under their tags, and as it never deletes or changes a table, the table
behind a name is still there when the name is used. Tags of all map types share one
set of names: of the maps with one tag the last one counts, whatever its type. -/

/-! ## Stored tables -/

namespace Contents

variable {contents after : Contents} {mapType : MapType} {id : Nat}

def HasTable (contents : Contents) (mapType : MapType) (id : Nat) : Prop :=
  ∃ stored ∈ contents.objects, stored.classPath = (ObjectClass.mapTable mapType).path ∧
    stored.get? ((ObjectClass.mapTable mapType).pathOf "id") =
      some (Storage.uint64.word id)

instance : Decidable (contents.HasTable mapType id) :=
  inferInstanceAs (Decidable (∃ stored ∈ contents.objects, _))

theorem mem_replaceFirst {condition : StoreObject → Bool}
    {replacement stored : StoreObject} {objects : List StoreObject}
    (member : stored ∈ objects) (missed : ¬condition stored = true) :
    stored ∈ replaceFirst condition replacement objects := by
  induction objects with
  | nil => cases member
  | cons first rest induction =>
      rw [replaceFirst]
      rcases List.mem_cons.mp member with rfl | later
      · rw [if_neg missed]
        exact List.mem_cons_self
      · split
        · exact List.mem_cons_of_mem _ later
        · exact List.mem_cons_of_mem _ (induction later)

theorem mem_set {objectClass : ObjectClass} {object merged stored : StoreObject}
    (set : contents.set objectClass object = .ok (merged, after))
    (member : stored ∈ contents.objects)
    (otherClass : stored.classPath ≠ objectClass.path) :
    stored ∈ after.objects := by
  rw [Contents.set] at set
  split at set
  · cases set
  · cases set
    exact mem_replaceFirst member fun hit =>
      otherClass (by simp [addressed] at hit; exact hit.1)

theorem keeps_mem {stored : StoreObject} {operation : Operation}
    (spares : operation.verb = .create ∨
      operation.verb = .set ∧ operation.object.classPath ≠ stored.classPath) :
    Keeps (fun contents => stored ∈ contents.objects) operation := by
  rintro before after objectClass result samePath member carried
  rcases spares with creates | ⟨sets, apart⟩
  · rw [creates] at carried
    rcases create_eq_ok_iff.mp carried with ⟨-, -, -, -, rfl⟩
    exact List.mem_append_left _ member
  · rw [sets] at carried
    exact mem_set carried member fun same => apart (samePath.trans same.symm)

theorem HasTable.keeps {operation : Operation} (keepsTables : operation.KeepsTables) :
    Keeps (fun contents => contents.HasTable mapType id) operation := by
  rintro before after objectClass result samePath ⟨stored, member, isTable, hasId⟩ carried
  refine ⟨stored, keeps_mem ?_ samePath member carried, isTable, hasId⟩
  exact keepsTables.imp_right fun sets => ⟨sets.1, isTable ▸ sets.2 mapType⟩

end Contents

namespace Memory

variable {memory : Memory}

/-- Tables stay where nothing is submitted that deletes or changes one. -/
theorem hasTable_of_reaches {Result : Type} {exchange rest : Exchange Result}
    {before later : Memory} {mapType : MapType} {id : Nat}
    (submits : exchange.Submits fun batch => ∀ operation ∈ batch, operation.KeepsTables)
    (reaches : Exchange.Reaches responder exchange before rest later)
    (table : before.contents.HasTable mapType id) : later.contents.HasTable mapType id :=
  kept_of_submits submits (fun _ keeps operation member =>
    Contents.HasTable.keeps (keeps operation member)) reaches table

end Memory

/-! ## Created tables -/

theorem MapTable.hasTable_of_create {mapType : MapType} {switchId : Nat}
    {table : MapTable} {before after : Memory}
    (ends : (MapTable.create mapType switchId).run.Ends Memory.responder before
      (.ok table) after) :
    table = { mapType, switchId, id := table.id } ∧
    after.contents.HasTable mapType table.id := by
  simp only [MapTable.create, Task.ends_bind_ok_iff, Task.ends_ofCodec_ok_iff,
    Task.ends_transact_ok_iff, Task.ends_require_ok_iff] at ends
  obtain ⟨request, _, ⟨built, rfl⟩, answers, _, accepted, answer, _, ⟨isHead, rfl⟩,
    record, _, ⟨wrapped, rfl⟩, id?, _, ⟨decoded, rfl⟩, id, _, ⟨rfl, rfl⟩, given⟩ := ends
  rcases Exchange.ends_done_iff.mp given with ⟨same, rfl⟩
  cases same
  refine ⟨rfl, ?_⟩
  rcases TableAddress.tableObject_eq_ok_iff.mp built with ⟨-, -, rfl⟩
  rcases Memory.transact_eq_ok_iff.mp accepted with ⟨contents, performed, rfl⟩
  rcases Contents.performAll_singleton_eq_ok_iff.mp performed with ⟨_, first, rfl⟩
  rcases Contents.perform_eq_ok_iff.mp first with
    ⟨-, objectClass, stored, samePath, carried, rfl⟩
  cases isHead
  obtain rfl : ObjectClass.mapTable mapType = objectClass :=
    ObjectClass.path_injective (ObjectClass.classPath_assemble.symm.trans samePath)
  rcases Contents.create_eq_ok_iff.mp carried with ⟨-, completed, -, -, rfl⟩
  have isOf : stored.classPath = (ObjectClass.mapTable mapType).path :=
    (Contents.classPath_of_completed? completed).trans samePath
  rw [Record.wrap_answer isOf] at wrapped
  cases wrapped
  have found : (ObjectClass.mapTable mapType).spec? "id" = some (.scalar .uint64) := rfl
  have hasId := ((Record.id_answer_iff found ⟨rfl, rfl⟩).mp decoded).2
  exact ⟨stored, List.mem_append_right _ (List.mem_singleton.mpr rfl), isOf, hasId⟩

namespace Provisioner

variable {provisioner : Provisioner} {before after : Memory}

theorem hasTable_of_createMap {node : MapNode} {id : Nat}
    (ends : (provisioner.createMap node).run.Ends Memory.responder before
      (.ok id) after) :
    after.contents.HasTable node.mapType id := by
  rcases Task.ends_bind_ok_iff.mp ends with ⟨table, middle, created, filled⟩
  rcases MapTable.hasTable_of_create created with ⟨isNew, hasTable⟩
  have creates := MapTable.gives_create.of_ends created table rfl
  have sameId : id = table.id := by
    rcases Task.ends_bind_ok_iff.mp filled with ⟨staged, _, -, committed⟩
    rcases Task.ends_bind_ok_iff.mp committed with ⟨_, _, -, given⟩
    cases (Exchange.ends_done_iff.mp given).1
    rfl
  rw [sameId]
  apply Memory.hasTable_of_reaches (creates.submits_fill.mono _) filled.reaches hasTable
  exact fun _ adding => adding.keepsTables

end Provisioner

/-! ## Names -/

def lastUnder (created : List (MapNode × Nat)) (tag : String) : Option (MapNode × Nat) :=
  created.reverse.find? fun row => row.1.tag = tag

section Names

variable {first later created : List (MapNode × Nat)} {row : MapNode × Nat} {tag : String}

theorem lastUnder_append :
    lastUnder (first ++ later) tag = (lastUnder later tag).or (lastUnder first tag) := by
  rw [lastUnder, List.reverse_append, List.find?_append]
  rfl

theorem lastUnder_singleton :
    lastUnder [row] tag = if row.1.tag = tag then some row else none := by
  by_cases same : row.1.tag = tag <;> simp [lastUnder, same]

theorem mem_of_lastUnder (isLast : lastUnder created tag = some row) :
    row ∈ created ∧ row.1.tag = tag :=
  ⟨List.mem_reverse.mp (List.mem_of_find?_eq_some isLast),
    by simpa using List.find?_some isLast⟩

theorem Names.get?_addMaps {names : Names} :
    (names.addMaps created).maps.get? tag =
      ((lastUnder created tag).map Prod.snd).or (names.maps.get? tag) := by
  induction created generalizing names with
  | nil => rfl
  | cons row rest induction =>
      change ((names.addMap row.1.tag row.2).addMaps rest).maps.get? tag = _
      rw [induction, Names.addMap, Directory.get?_insert, ← List.singleton_append,
        lastUnder_append, lastUnder_singleton, Option.map_or, Option.or_assoc]
      split <;> rfl

end Names

namespace Provisioner

variable {provisioner : Provisioner} {memory before after start last : Memory}
  {names : Names} {created : List (MapNode × Nat)} {mapType : MapType} {id : Nat}

theorem maps_of_createProfiles {nodes : List ProfileNode} {outcomes : List Outcome}
    {later : Names}
    (ends : (provisioner.createProfiles nodes names).Ends Memory.responder before
      (outcomes, later) after) : later.maps = names.maps := by
  induction nodes generalizing names before after outcomes with
  | nil =>
      rcases Exchange.ends_done_iff.mp ends with ⟨same, -⟩
      cases same
      rfl
  | cons node rest induction =>
      rw [createProfiles] at ends
      rcases Exchange.ends_bind_iff.mp ends with ⟨result, middle, -, last⟩
      rcases Exchange.ends_bind_iff.mp last with ⟨⟨_, _⟩, _, restEnds, given⟩
      rcases Exchange.ends_done_iff.mp given with ⟨same, -⟩
      cases same
      have restKeeps := induction restEnds
      cases result with
      | ok _ | error _ => exact restKeeps

theorem Passes.get?_maps {nodes : List ConfigNode} {later : Names}
    (passes : provisioner.Passes nodes names start created later last) (tag : String) :
    later.maps.get? tag =
      ((lastUnder created tag).map Prod.snd).or (names.maps.get? tag) := by
  induction passes with
  | nothing => rfl
  | globals creates ends passes induction =>
      rw [induction, maps_of_createProfiles ends, Names.get?_addMaps, lastUnder_append,
        Option.map_or, Option.or_assoc]
  | ports ends passes induction => exact induction

/-! ## Created tables on the way -/

section CreatesMaps

variable {nodes : List MapNode}

theorem CreatesMaps.mem_nodes (creates : provisioner.CreatesMaps nodes start created last) :
    ∀ row ∈ created, row.1 ∈ nodes := by
  induction creates with
  | nothing => simp
  | skipped _ _ induction | failed _ _ _ induction =>
      exact fun row member => List.mem_cons_of_mem _ (induction row member)
  | succeeded _ _ _ induction =>
      exact List.forall_mem_cons.mpr ⟨List.mem_cons_self, fun row member =>
        List.mem_cons_of_mem _ (induction row member)⟩

theorem CreatesMaps.keeps_table
    (creates : provisioner.CreatesMaps nodes start created last)
    (table : start.contents.HasTable mapType id) : last.contents.HasTable mapType id := by
  induction creates with
  | nothing => exact table
  | skipped _ _ induction => exact induction table
  | failed _ ends _ induction | succeeded _ ends _ induction =>
      apply induction
      exact Memory.hasTable_of_reaches
        (submits_createMap.mono fun _ adding => adding.keepsTables) ends.reaches table

theorem CreatesMaps.hasTable (creates : provisioner.CreatesMaps nodes start created last) :
    ∀ row ∈ created, last.contents.HasTable row.1.mapType row.2 := by
  induction creates with
  | nothing => simp
  | skipped _ _ induction | failed _ _ _ induction => exact induction
  | succeeded _ ends creates induction =>
      have table := creates.keeps_table (hasTable_of_createMap ends)
      exact List.forall_mem_cons.mpr ⟨table, induction⟩

end CreatesMaps

theorem hasTable_of_createProfiles {nodes : List ProfileNode}
    {result : List Outcome × Names}
    (ends : (provisioner.createProfiles nodes names).Ends Memory.responder before
      result after)
    (table : before.contents.HasTable mapType id) : after.contents.HasTable mapType id :=
  Memory.hasTable_of_reaches
    (submits_createProfiles.mono fun _ adding => adding.keepsTables) ends.reaches table

section Passes

variable {nodes : List ConfigNode} {later : Names}

theorem Passes.exists_globals
    (passes : provisioner.Passes nodes names start created later last) :
    ∀ row ∈ created, ∃ globals, .globals globals ∈ nodes ∧ row.1 ∈ globals.maps := by
  induction passes with
  | nothing => simp
  | globals creates ends passes induction =>
      refine List.forall_mem_append.mpr ⟨fun row member => ?_, fun row member => ?_⟩
      · exact ⟨_, List.mem_cons_self, creates.mem_nodes row member⟩
      · rcases induction row member with ⟨globals, isNode, isMap⟩
        exact ⟨globals, List.mem_cons_of_mem _ isNode, isMap⟩
  | ports ends passes induction =>
      intro row member
      rcases induction row member with ⟨globals, isNode, isMap⟩
      exact ⟨globals, List.mem_cons_of_mem _ isNode, isMap⟩

theorem Passes.keeps_table
    (passes : provisioner.Passes nodes names start created later last)
    (table : start.contents.HasTable mapType id) : last.contents.HasTable mapType id := by
  induction passes with
  | nothing => exact table
  | globals creates ends passes induction =>
      apply induction
      exact hasTable_of_createProfiles ends (creates.keeps_table table)
  | ports ends passes induction =>
      apply induction
      exact Memory.hasTable_of_reaches submits_initPortsOf ends.reaches table

theorem Passes.hasTable
    (passes : provisioner.Passes nodes names start created later last) :
    ∀ row ∈ created, last.contents.HasTable row.1.mapType row.2 := by
  induction passes with
  | nothing => simp
  | globals creates ends passes induction =>
      refine List.forall_mem_append.mpr ⟨fun row member => ?_, induction⟩
      apply passes.keeps_table
      exact hasTable_of_createProfiles ends (creates.hasTable row member)
  | ports ends passes induction => exact induction

end Passes

/-! ## Runs -/

theorem get?_maps_of_arrival {config : Config} {arrival : Arrival}
    (onRun : arrival.OnRun provisioner config memory) (tag : String) :
    arrival.names.maps.get? tag = (lastUnder arrival.created tag).map Prod.snd := by
  rw [onRun.passes.get?_maps]
  exact Option.or_none

/-- The tables that a run has created before a port are stored while the port node is
applied. -/
theorem hasTable_of_arrival {config : Config} {arrival : Arrival}
    {batch : List Operation} {state : Memory}
    (onRun : arrival.OnRun provisioner config memory)
    (submitted : (provisioner.initPort arrival.names arrival.node arrival.port).SubmitsAt
      Memory.responder arrival.start batch state) :
    ∀ row ∈ arrival.created, state.contents.HasTable row.1.mapType row.2 := by
  intro row member
  rcases onRun.begins with ⟨_, reached⟩
  rcases submitted with ⟨_, reaches⟩
  have atNode := onRun.passes.hasTable row member
  have atPort := Memory.hasTable_of_reaches submits_initPortsOf reached atNode
  exact Memory.hasTable_of_reaches
    (submits_initPort.mono fun _ batchFor => batchFor.keepsTables) reaches atPort

/-- What a batch writes to a port for a map type is the id behind the tag that the port
node binds for it. -/
theorem binding_of_portBatch {switchId ifindex : Nat} {node : PortNode}
    {batch : List Operation} {operation : Operation} {direction : Direction}
    {mapType : MapType} {value : StoreValue}
    (batchFor : PortBatch switchId names node ifindex batch) (member : operation ∈ batch)
    (onPort : operation.object.classPath = direction.objectClass.path)
    (has : direction.objectClass.Has mapType.name)
    (written : operation.object.lookup
      (direction.objectClass.pathOf mapType.name) = some value) :
    operation.object.lookup (direction.objectClass.pathOf "port-id") =
        some (Storage.uint32.word ifindex) ∧
      ∃ tag id, (mapType, tag) ∈ node.bindings direction ∧ names.maps.get? tag = some id ∧
        value = Storage.uint64.word id := by
  rcases batchFor with harmless | ⟨other, boundType, tag, id, bound, named, hasBound, rfl⟩
  · exact absurd onPort ((harmless operation member).2 direction)
  · rw [List.mem_singleton.mp member] at onPort written ⊢
    obtain rfl : other = direction := by
      have sameClass :=
        ObjectClass.path_injective (ObjectClass.classPath_assemble.symm.trans onPort)
      cases other <;> cases direction <;> first | rfl | cases sameClass
    let values : List (String × StoreValue) := [(boundType.name, Storage.uint64.word id),
      ("port-id", Storage.uint32.word ifindex),
      ("switch-id", Storage.uint32.word switchId)]
    have plain : (other.objectClass.assemble values).IsPlain :=
      ObjectClass.keyData_assemble
    rw [plain.lookup] at written ⊢
    have hasPort : other.objectClass.Has "port-id" := by cases other <;> decide
    have hasSwitch : other.objectClass.Has "switch-id" := by cases other <;> decide
    have hasAll : ∀ row ∈ values, other.objectClass.Has row.1 := by
      simp [values, hasBound, hasPort, hasSwitch]
    have distinct : (values.map (·.1)).Nodup := by
      simp only [values, List.map_cons, List.map_nil]
      cases boundType <;> decide
    have rows := fun {path value} =>
      @ObjectClass.get?_assemble_iff other.objectClass values hasAll distinct path value
    rcases rows.mp written with ⟨attr, samePath, isRow⟩
    refine ⟨rows.mpr ⟨"port-id", rfl, by simp [values]⟩, ?_⟩
    simp only [values, List.mem_cons, Prod.mk.injEq, List.not_mem_nil, or_false] at isRow
    rcases isRow with ⟨rfl, rfl⟩ | ⟨rfl, rfl⟩ | ⟨rfl, rfl⟩
    · cases MapType.name_injective (ObjectClass.pathOf_injective has hasBound samePath)
      exact ⟨tag, id, bound, named, rfl⟩
    · have sameName := ObjectClass.pathOf_injective has hasPort samePath
      cases mapType <;> simp [MapType.name] at sameName
    · have sameName := ObjectClass.pathOf_injective has hasSwitch samePath
      cases mapType <;> simp [MapType.name] at sameName

/-- Whenever a run writes the attribute of a map type to a QoS object of a port, it
does so on its arrival at that port, for the port node that it applies there. It writes
the id of a stored table that it has created itself: the last one that it has created,
for an earlier node, under the tag that this port node binds for the map type. The table
is of the type its map was declared with. -/
theorem run_binds_created_tables {config : Config} {state : Memory}
    {batch : List Operation} {next : ObjectsReply → Exchange RunReport}
    {operation : Operation} {direction : Direction} {mapType : MapType} {path : String}
    {value : StoreValue}
    (submitted : Exchange.Reaches Memory.responder (provisioner.run config) memory
      (.transact batch next) state)
    (member : operation ∈ batch)
    (onPort : operation.object.classPath = direction.objectClass.path)
    (located : direction.objectClass.attrPath? mapType.name = some path)
    (written : operation.object.lookup path = some value) :
    ∃ (arrival : Arrival) (map : MapNode) (id : Nat),
      arrival.OnRun provisioner config memory ∧
      (provisioner.run config).SubmitsFor Memory.responder memory
        (provisioner.initPort arrival.names arrival.node arrival.port)
        arrival.start batch state next ∧
      operation.object.lookup (direction.objectClass.pathOf "port-id") =
        some (Storage.uint32.word arrival.port.ifindex) ∧
      (mapType, map.tag) ∈ arrival.node.bindings direction ∧
      lastUnder arrival.created map.tag = some (map, id) ∧
      (∃ globals, .globals globals ∈ arrival.earlier ∧ map ∈ globals.maps) ∧
      value = Storage.uint64.word id ∧ state.contents.HasTable map.mapType id := by
  rcases ObjectClass.has_of_attrPath? located with ⟨has, rfl⟩
  rcases run_submits_for submitted with
    ⟨globals, known, begun, -, forGlobals⟩ | ⟨arrival, onRun, forPort⟩
  · have adding := submits_initGlobals.allowed_of_submitsAt forGlobals.submitsAt
    exact absurd onPort ((adding.harmless operation member).2 direction)
  · have batchFor := submits_initPort.allowed_of_submitsAt forPort.submitsAt
    rcases binding_of_portBatch batchFor member onPort has written with
      ⟨portId, tag, id, bound, named, rfl⟩
    rw [get?_maps_of_arrival onRun, Option.map_eq_some_iff] at named
    rcases named with ⟨⟨map, _⟩, isLast, rfl⟩
    rcases mem_of_lastUnder isLast with ⟨isCreated, rfl⟩
    exact ⟨arrival, map, _, onRun, forPort, portId, bound, isLast,
      onRun.passes.exists_globals _ isCreated, rfl,
      hasTable_of_arrival onRun forPort.submitsAt _ isCreated⟩

/-- Two maps of different types share a tag, and the port asks for the first type. -/
def sharedTag : Config :=
  { nodes :=
      [.globals { maps := [{ mapType := .dot1pToTc, tag := "m" },
        { mapType := .dscpToTc, tag := "m" }] },
       .ports .frontPanel { ingress := [(.dot1pToTc, "m")] }] }

def onePort : Memory :=
  (Memory.ofTopology 0 { ports := [{ name := "Ethernet0", ifindex := 1 }] }).toOption.getD
    (.new 0)

def sharedBinding : Operation :=
  ⟨.set, ObjectClass.portIngress.assemble
    [("dot1p-to-tc-map", Storage.uint64.word 4097), ("port-id", Storage.uint32.word 1),
     ("switch-id", Storage.uint32.word 0)]⟩

theorem run_binds_created_tables_shared :
    ∃ state next arrival map id,
      Exchange.Reaches Memory.responder (run ⟨0, 3⟩ sharedTag) onePort
        (.transact [sharedBinding] next) state ∧
      Arrival.OnRun ⟨0, 3⟩ sharedTag onePort arrival ∧
      sharedBinding.object.lookup (ObjectClass.portIngress.pathOf "port-id") =
        some (Storage.uint32.word arrival.port.ifindex) ∧
      map.tag = "m" ∧ lastUnder arrival.created "m" = some (map, id) ∧
      Storage.uint64.word 4097 = Storage.uint64.word id ∧
      state.contents.HasTable map.mapType id := by
  obtain ⟨state, next, submitted⟩ : ∃ state next,
      Exchange.Reaches Memory.responder (run ⟨0, 3⟩ sharedTag) onePort
        (.transact [sharedBinding] next) state :=
    ⟨_, _, .transact (.transact (.listPorts .here))⟩
  rcases @run_binds_created_tables _ _ _ _ _ _ _ .ingress .dot1pToTc _ _ submitted
      List.mem_cons_self rfl rfl rfl with
    ⟨arrival, map, id, onRun, -, portId, bound, isLast, -, same, table⟩
  have isTag : map.tag = "m" := by
    rcases onRun.position with ⟨later, position⟩
    have isNode : .ports arrival.interfaceClass arrival.node ∈ sharedTag.nodes := by
      rw [position]
      exact List.mem_append_right _ List.mem_cons_self
    simp only [sharedTag, List.mem_cons, List.not_mem_nil, or_false, reduceCtorEq,
      false_or, ConfigNode.ports.injEq] at isNode
    rw [isNode.2] at bound
    simpa [PortNode.bindings] using bound
  exact ⟨state, next, arrival, map, id, submitted, onRun, portId, isTag,
    isTag ▸ isLast, same, table⟩

/-- No table of the type that was asked for has the id that is bound. -/
theorem run_binds_created_tables_refuted :
    Memory.ofTopology 0 { ports := [{ name := "Ethernet0", ifindex := 1 }] } =
      .ok onePort ∧
      sharedTag.fault? = none ∧
      ((run ⟨0, 3⟩ sharedTag).run Memory.responder onePort).1.isSome ∧
      (∃ bound ∈ ((run ⟨0, 3⟩ sharedTag).run Memory.responder onePort).2.contents.objects,
        bound.classPath = ObjectClass.portIngress.path ∧
        bound.get? (ObjectClass.portIngress.pathOf "dot1p-to-tc-map") =
          some (Storage.uint64.word 4097)) ∧
      ¬((run ⟨0, 3⟩ sharedTag).run Memory.responder onePort).2.contents.HasTable
        .dot1pToTc 4097 := by
  decide +kernel

end Provisioner

end SwitchQos
