import SwitchQos.Proofs.Provision.Confinement
import SwitchQos.Proofs.Provision.PortDiscovery
import SwitchQos.Proofs.Provision.Submissions
import SwitchQos.Proofs.Store.Framing
import SwitchQos.Store.Topology

namespace SwitchQos

/-! A run only adds and binds. Global nodes create what belongs to no port, and a port
node binds attributes of objects that belong to the ports it lets through. -/

open Exchange

/-- The attributes that a port node binds on objects of a class. -/
def PortNode.bindable (node : PortNode) : ObjectClass → Set String
  | .schedulerGroup =>
      {attr | node.tree.isSome ∧
        attr ∈ ["scheduler-profile-id", "child-list", "child_count"]}
  | .queue => {attr | node.tree.isSome ∧ attr = "scheduler-profile-id"}
  | .portIngress => {attr | ∃ row ∈ node.ingress, attr = row.1.name}
  | .portEgress => {attr | ∃ row ∈ node.egress, attr = row.1.name}
  | .schedulerProfile | .mapTable _ | .mapEntry _ => ∅

theorem PortNode.mem_bindable {node : PortNode} {direction : Direction}
    {mapType : MapType} {tag : String}
    (declared : (mapType, tag) ∈ node.bindings direction) :
    mapType.name ∈ node.bindable direction.objectClass := by
  cases direction <;> exact ⟨_, declared, rfl⟩

theorem ObjectClass.ofPort_of_ofGlobals {objectClass : ObjectClass}
    (isGlobal : objectClass ∈ ofGlobals) : objectClass.ofPort = false := by
  rcases isGlobal with rfl | ⟨mapType, rfl | rfl⟩ <;> rfl

namespace Footprint

variable {footprint : Footprint} {object other stored : StoreObject} {contents : Contents}
  {bindable : Bindable}

/-! ## Settings -/

structure CoveredBy (footprint : Footprint)
    (bindable : ObjectClass → Set String) : Prop where
  profiles : ∀ {left right}, footprint.Renames left right →
    "scheduler-profile-id" ∈ bindable .schedulerGroup ∧
    "scheduler-profile-id" ∈ bindable .queue
  children : ∀ {id}, id ∈ footprint.groups →
    "child-list" ∈ bindable .schedulerGroup ∧ "child_count" ∈ bindable .schedulerGroup
  maps : ∀ {direction mapType id}, id ∈ footprint.maps direction mapType →
    mapType.name ∈ bindable direction.objectClass

theorem Sets.framed (sets : footprint.Sets object other)
    (within : footprint.Within contents)
    (covered : footprint.CoveredBy fun objectClass => bindable objectClass footprint.port)
    (member : stored ∈ contents.objects) :
    StoreObject.Framed footprint.switchId bindable stored (object.updatedBy stored) := by
  have plain := within.plain stored member
  have onPort := sets.addresses within member
  have stays := sets.port?_updatedBy within member
  cases sets with
  | groupProfile _ renamed =>
      have isBindable := (covered.profiles renamed).1
      refine StoreObject.framed_updatedBy plain onPort stays ?_ ?_ ⟨_, isBindable⟩
      · simp
      · simpa [ObjectClass.keyAttrs] using isBindable
  | groupChildren isGroup =>
      have isBindable := covered.children isGroup
      refine StoreObject.framed_updatedBy plain onPort stays ?_ ?_ ⟨_, isBindable.1⟩
      · simp
      · simpa [ObjectClass.keyAttrs] using isBindable.symm
  | queueProfile _ _ renamed =>
      have isBindable := (covered.profiles renamed).2
      refine StoreObject.framed_updatedBy plain onPort stays ?_ ?_ ⟨_, isBindable⟩
      · simp [QueueKey.attrs]
      · simpa [QueueKey.attrs, ObjectClass.keyAttrs] using isBindable
  | @portMap direction mapType _ bound _ _ =>
      have isBindable := covered.maps bound
      have otherName : mapType.name ≠ "switch-id" := by cases mapType <;> decide
      have isKey : "port-id" ∈ direction.objectClass.keyAttrs := by
        cases direction <;> decide
      refine StoreObject.framed_updatedBy plain onPort stays ?_ ?_ ⟨_, isBindable⟩
      · simp [otherName]
      · simpa [isKey] using fun _ _ => isBindable

theorem binds_of_reaches {Result : Type} {exchange other rest : Exchange Result}
    {start later : Memory} (parallel : exchange.Parallel footprint.conduct other)
    (reaches : Exchange.Reaches Memory.responder exchange start rest later)
    (within : footprint.Within start.contents)
    (covered : footprint.CoveredBy fun objectClass =>
      bindable objectClass footprint.port) :
    Contents.Binds footprint.switchId bindable start.contents later.contents := by
  have both : footprint.Within later.contents ∧
      Contents.Binds footprint.switchId bindable start.contents later.contents := by
    refine parallel.submits.kept
      (fun memory : Memory => footprint.Within memory.contents ∧
      Contents.Binds footprint.switchId bindable start.contents memory.contents)
      (fun template memory kept => ?_) (fun batch memory allowed kept => ?_)
      (fun interfaceClass memory kept => ?_) reaches
      ⟨within, Contents.binds_self within.plain within.distinct⟩
    · exact (@Memory.contents_query memory template).symm ▸ kept
    · rcases allowed with ⟨object, other, sets, rfl⟩
      rcases sets.isOf with ⟨objectClass, isOf, -⟩
      rcases Memory.transact_set_cases kept.1.distinct isOf with
        ⟨reason, -, refused⟩ | ⟨-, answers, after, accepted, -, -, sameContents⟩
      · exact (congrArg Prod.snd refused).symm ▸ kept
      · have isAfter : (Memory.responder.transact [⟨.set, object⟩] memory).2.contents =
            memory.contents.rewritten [object] :=
          (congrArg (fun result => result.2.contents) accepted).trans sameContents
        rw [isAfter]
        exact ⟨sets.within_rewritten kept.1,
          kept.2.set fun stored member => sets.framed kept.1 covered member⟩
    · exact (@Memory.contents_listPorts memory interfaceClass).symm ▸ kept
  exact both.2

/-! ## Ports -/

section Ports

variable {switchId : Nat} {names : Names} {node : PortNode} {port : Port}
  {groups : Set Nat}

def ofMaps (switchId : Nat) (names : Names) (node : PortNode) (port : Port) : Footprint :=
  { ofPort switchId names node port ∅ with
    Renames := fun _ _ => False
    fits := False.elim }

theorem coveredBy_ofMaps (covers : ∀ direction : Direction,
      node.bindable direction.objectClass ⊆ bindable direction.objectClass port.ifindex) :
    (ofMaps switchId names node port).CoveredBy
      fun objectClass => bindable objectClass port.ifindex where
  profiles := False.elim
  children := False.elim
  maps := by
    rintro direction mapType id ⟨tag, declared, -⟩
    exact covers _ (PortNode.mem_bindable declared)

theorem coveredBy_ofPort (declared : node.tree.isSome) (covers : ∀ objectClass,
      node.bindable objectClass ⊆ bindable objectClass port.ifindex) :
    (ofPort switchId names node port groups).CoveredBy
      fun objectClass => bindable objectClass port.ifindex where
  profiles := fun _ => ⟨covers _ ⟨declared, by simp⟩, covers _ ⟨declared, rfl⟩⟩
  children := fun _ => ⟨covers _ ⟨declared, by simp⟩, covers _ ⟨declared, by simp⟩⟩
  maps := by
    rintro direction mapType id ⟨tag, declared, -⟩
    exact covers _ (PortNode.mem_bindable declared)

end Ports

end Footprint

theorem Memory.extends_of_adding {Result : Type} {exchange : Exchange Result}
    {result : Result} {classes : Set ObjectClass} {switchId : Nat} {bindable : Bindable}
    {start after : Memory} (submits : exchange.Submits (Adding classes))
    (unowned : ∀ objectClass ∈ classes, objectClass.ofPort = false)
    (plain : ∀ stored ∈ start.contents.objects, stored.IsPlain)
    (distinct : Contents.Distinct start.contents.objects)
    (ends : exchange.Ends responder start result after) :
    Contents.Extends switchId bindable start.contents after.contents := by
  refine kept_of_submits submits (fun batch adding operation member => ?_) ends.reaches
    (Contents.extends_self plain distinct)
  rcases adding operation member with ⟨creates, isPlain, objectClass, isOne, isOf⟩
  exact Contents.Extends.keeps creates isPlain isOf (unowned objectClass isOne)

namespace Provisioner

variable {provisioner : Provisioner} {names : Names} {node : PortNode}
  {bindable : Bindable} {start after : Memory}

theorem binds_bindPortMaps {switchId : Nat} {port : Port} {outcomes : List Outcome}
    (plain : ∀ stored ∈ start.contents.objects, stored.IsPlain)
    (distinct : Contents.Distinct start.contents.objects)
    (covers : ∀ direction : Direction, node.bindable direction.objectClass ⊆
      bindable direction.objectClass port.ifindex)
    (ends : (bindPortMaps switchId names port node).Ends Memory.responder start
      outcomes after) :
    Contents.Binds switchId bindable start.contents after.contents := by
  have parallel : (bindPortMaps switchId names port node).Parallel
      (Footprint.ofMaps switchId names node port).conduct
      (bindPortMaps switchId names port node) := by
    rw [bindPortMaps_eq]
    exact parallel_collect (@Footprint.parallel_mapBindings
      (Footprint.ofMaps switchId names node port) port names names names node rfl
      fun direction mapType tag id declared named => ⟨tag, declared, named⟩)
  exact Footprint.binds_of_reaches parallel ends.reaches
    ⟨plain, distinct, fun _ => False.elim⟩ (Footprint.coveredBy_ofMaps covers)

theorem binds_applyTree {port : Port} {tree : SchedulerTree} {outcomes : List Outcome}
    (plain : ∀ stored ∈ start.contents.objects, stored.IsPlain)
    (distinct : Contents.Distinct start.contents.objects)
    (declared : node.tree = some tree)
    (covers : ∀ objectClass,
      node.bindable objectClass ⊆ bindable objectClass port.ifindex)
    (ends : (provisioner.scheduler.applyTree names port tree).Ends
      Memory.responder start outcomes after) :
    Contents.Binds provisioner.switchId bindable start.contents after.contents := by
  let footprint := Footprint.ofPort provisioner.switchId names node port
  have within : (footprint ∅).Within start.contents :=
    ⟨plain, distinct, fun _ => False.elim⟩
  rcases Footprint.exists_bindings_of_applyTree rfl rfl
    (fun name _ => Footprint.renames_self names.profiles name) within ends with
    ⟨groups, discovered, bindings, sameContents, -, mayBeSet, parallel, built⟩
  have bound :=
    Footprint.binds_of_reaches parallel built.reaches (sameContents ▸ mayBeSet)
    (@Footprint.coveredBy_ofPort bindable _ names node port groups
      (by simp [declared]) covers)
  rwa [sameContents] at bound

theorem binds_initPort {port : Port} {report : PhaseReport}
    (plain : ∀ stored ∈ start.contents.objects, stored.IsPlain)
    (distinct : Contents.Distinct start.contents.objects)
    (covers : ∀ objectClass,
      node.bindable objectClass ⊆ bindable objectClass port.ifindex)
    (ends : (provisioner.initPort names node port).Ends Memory.responder
      start report after) :
    Contents.Binds provisioner.switchId bindable start.contents after.contents := by
  rcases ends_bind_iff.mp ends with ⟨maps, middle, bound, ends⟩
  rcases ends_bind_iff.mp ends with ⟨outcomes, last, built, ends⟩
  rcases ends_done_iff.mp ends with ⟨-, rfl⟩
  have first := binds_bindPortMaps plain distinct (fun direction => covers _) bound
  cases declared : node.tree with
  | none =>
      rw [declared] at built
      rcases ends_done_iff.mp built with ⟨-, rfl⟩
      exact first
  | some tree =>
      rw [declared] at built
      exact first.trans (binds_applyTree first.plain first.distinct declared covers built)

theorem binds_initEach {ports : List Port} {phases : List PhaseReport}
    (plain : ∀ stored ∈ start.contents.objects, stored.IsPlain)
    (distinct : Contents.Distinct start.contents.objects)
    (covers : ∀ port ∈ ports, ∀ objectClass,
      node.bindable objectClass ⊆ bindable objectClass port.ifindex)
    (ends : (provisioner.initEach names node ports).Ends Memory.responder
      start phases after) :
    Contents.Binds provisioner.switchId bindable start.contents after.contents := by
  induction ports generalizing start phases with
  | nil =>
      rcases ends_done_iff.mp ends with ⟨-, rfl⟩
      exact Contents.binds_self plain distinct
  | cons port rest induction =>
      rcases initEach_ends_cons_iff.mp ends with
        ⟨report, middle, others, initialised, later, rfl⟩
      have first :=
        binds_initPort plain distinct (covers port List.mem_cons_self) initialised
      exact first.trans (induction first.plain first.distinct
        (fun other member => covers other (List.mem_cons_of_mem _ member)) later)

end Provisioner

/-! ## Listings -/

/-- In a run of the exchange such a port of the class is listed. -/
def Exchange.Lists {State Result : Type} (responder : Responder State)
    (exchange : Exchange Result) (before : State) (interfaceClass : InterfaceClass)
    (port : Port) : Prop :=
  ∃ next state listing, Reaches responder exchange before
    (.listPorts interfaceClass next) state ∧
    (responder.listPorts interfaceClass state).1 = .ok listing ∧ port ∈ listing ∧
    port.isOf interfaceClass = true

theorem Exchange.Includes.lists {State Result Other : Type} {responder : Responder State}
    {whole : Exchange Result} {interfaceClass : InterfaceClass}
    {next : PortsReply → Exchange Other} {before start : State}
    {listing : List Port} {port : Port}
    (includes : whole.Includes responder before
      ((askPorts interfaceClass).bind next) start)
    (replied : (responder.listPorts interfaceClass start).1 = .ok listing)
    (member : port ∈ listing) (isOf : port.isOf interfaceClass = true) :
    whole.Lists responder before interfaceClass port := by
  rcases includes with ⟨rest, reaches⟩
  exact ⟨_, start, listing, reaches, replied, member, isOf⟩

theorem Exchange.ends_askPorts_iff {State : Type} {responder : Responder State}
    {interfaceClass : InterfaceClass} {before after : State} {reply : PortsReply} :
    (askPorts interfaceClass).Ends responder before reply after ↔
      reply = (responder.listPorts interfaceClass before).1 ∧
        after = (responder.listPorts interfaceClass before).2 :=
  @ends_done_iff State PortsReply responder _ _ _ _

namespace Provisioner

variable {provisioner : Provisioner} {names : Names} {node : PortNode}
  {bindable : Bindable} {start after : Memory}

section Loop

variable {Result : Type} {whole : Exchange Result} {before : Memory}

theorem binds_initListed {polls : Nat} {tracker : PortTracker} {phases : List PhaseReport}
    (includes : whole.Includes Memory.responder before
      (provisioner.initListed names node polls tracker) start)
    (plain : ∀ stored ∈ start.contents.objects, stored.IsPlain)
    (distinct : Contents.Distinct start.contents.objects)
    (covers : ∀ port, whole.Lists Memory.responder before tracker.interfaceClass port →
      ∀ objectClass, node.bindable objectClass ⊆ bindable objectClass port.ifindex)
    (ends : (provisioner.initListed names node polls tracker).Ends
      Memory.responder start phases after) :
    Contents.Binds provisioner.switchId bindable start.contents after.contents := by
  induction polls generalizing start tracker phases with
  | zero => cases ends
  | succ polls induction =>
      rw [initListed, bind_eq_bind] at includes ends
      rcases ends_bind_iff.mp ends with ⟨reply, listed, asked, ends⟩
      have rest := includes.rest asked
      rcases ends_askPorts_iff.mp asked with ⟨isReply, isListed⟩
      have sameContents : listed.contents = start.contents :=
        isListed ▸ Memory.contents_listPorts
      rw [← sameContents] at plain distinct ⊢
      cases reply with
      | error cause => exact induction rest plain distinct covers ends
      | ok listing =>
          dsimp only at rest ends
          split at ends
          · rcases ends_done_iff.mp ends with ⟨-, rfl⟩
            exact Contents.binds_self plain distinct
          · rename_i goesOn
            rw [if_neg goesOn] at rest
            rcases ends_bind_iff.mp ends with ⟨first, middle, each, ends⟩
            rcases ends_bind_iff.mp ends with ⟨others, last, later, ends⟩
            rcases ends_done_iff.mp ends with ⟨-, rfl⟩
            have sameClass : (tracker.accept listing).2.interfaceClass =
                tracker.interfaceClass := by
              rw [PortTracker.accept_eq]
            have new := @binds_initEach provisioner names node bindable listed _ _ _ plain
              distinct (fun port member => by
                rcases PortTracker.listed_of_mem_accept member with ⟨inListing, isOf⟩
                exact covers port (includes.lists isReply.symm inListing isOf)) each
            refine new.trans (induction (rest.rest each).part new.plain new.distinct
              (fun port lists => covers port (sameClass ▸ lists)) later)

end Loop

/-! ## Runs -/

theorem extends_initGlobals {globals : GlobalsNode} {result : PhaseReport × Names}
    (plain : ∀ stored ∈ start.contents.objects, stored.IsPlain)
    (distinct : Contents.Distinct start.contents.objects)
    (ends : (provisioner.initGlobals names globals).Ends Memory.responder
      start result after) :
    Contents.Extends provisioner.switchId bindable start.contents after.contents :=
  Memory.extends_of_adding submits_initGlobals
    (fun _ => ObjectClass.ofPort_of_ofGlobals) plain distinct ends

theorem runNodes_ends_globals_iff {globals : GlobalsNode} {rest : List ConfigNode}
    {phases : List PhaseReport} :
    (provisioner.runNodes (.globals globals :: rest) names).Ends
      Memory.responder start phases
        after ↔
      ∃ phase later middle others,
        (provisioner.initGlobals names globals).Ends Memory.responder start
          (phase, later) middle ∧
        (provisioner.runNodes rest later).Ends Memory.responder middle others after ∧
        phases = phase :: others := by
  constructor
  · intro ends
    rcases ends_bind_iff.mp ends with ⟨⟨phase, later⟩, middle, own, ends⟩
    rcases ends_bind_iff.mp ends with ⟨others, _, rest, done⟩
    rcases ends_done_iff.mp done with ⟨rfl, rfl⟩
    exact ⟨phase, later, middle, others, own, rest, rfl⟩
  · rintro ⟨phase, later, middle, others, own, rest, rfl⟩
    exact own.bind (rest.map fun others => phase :: others)

theorem runNodes_ends_ports_iff {interfaceClass : InterfaceClass} {rest : List ConfigNode}
    {phases : List PhaseReport} :
    (provisioner.runNodes (.ports interfaceClass node :: rest) names).Ends
      Memory.responder start
        phases after ↔
      ∃ own middle others,
        (provisioner.initPortsOf names interfaceClass node).Ends Memory.responder
          start own middle ∧
        (provisioner.runNodes rest names).Ends Memory.responder middle others after ∧
        phases = own ++ others := by
  constructor
  · intro ends
    rcases ends_bind_iff.mp ends with ⟨own, middle, initialised, ends⟩
    rcases ends_bind_iff.mp ends with ⟨others, _, rest, done⟩
    rcases ends_done_iff.mp done with ⟨rfl, rfl⟩
    exact ⟨own, middle, others, initialised, rest, rfl⟩
  · rintro ⟨own, middle, others, initialised, rest, rfl⟩
    exact initialised.bind (rest.map fun others => own ++ others)

/-- Going through the nodes from such names and such a store, a port with the index is
listed to the port node. -/
inductive Admits (provisioner : Provisioner) :
    List ConfigNode → Names → Memory → PortNode → Nat → Prop
  | listed {interfaceClass : InterfaceClass} {node : PortNode} {rest : List ConfigNode}
      {names : Names} {start : Memory} {port : Port}
      (lists : (provisioner.initPortsOf names interfaceClass node).Lists
        Memory.responder start interfaceClass port) :
      Admits provisioner (.ports interfaceClass node :: rest) names start
        node port.ifindex
  | globals {globals : GlobalsNode} {rest : List ConfigNode} {names later : Names}
      {start middle : Memory} {phase : PhaseReport} {node : PortNode} {ifindex : Nat}
      (ends : (provisioner.initGlobals names globals).Ends Memory.responder
        start (phase, later) middle)
      (admits : Admits provisioner rest later middle node ifindex) :
      Admits provisioner (.globals globals :: rest) names start node ifindex
  | ports {interfaceClass : InterfaceClass} {earlier : PortNode} {rest : List ConfigNode}
      {names : Names} {start middle : Memory} {phases : List PhaseReport}
      {node : PortNode} {ifindex : Nat}
      (ends : (provisioner.initPortsOf names interfaceClass earlier).Ends
        Memory.responder start phases middle)
      (admits : Admits provisioner rest names middle node ifindex) :
      Admits provisioner (.ports interfaceClass earlier :: rest) names start node ifindex

theorem extends_runNodes {nodes : List ConfigNode} {phases : List PhaseReport}
    (plain : ∀ stored ∈ start.contents.objects, stored.IsPlain)
    (distinct : Contents.Distinct start.contents.objects)
    (covers : ∀ node ifindex, provisioner.Admits nodes names start node ifindex →
      ∀ objectClass, node.bindable objectClass ⊆ bindable objectClass ifindex)
    (ends : (provisioner.runNodes nodes names).Ends Memory.responder start phases after) :
    Contents.Extends provisioner.switchId bindable start.contents after.contents := by
  induction nodes generalizing names start phases with
  | nil =>
      rcases ends_done_iff.mp ends with ⟨-, rfl⟩
      exact Contents.extends_self plain distinct
  | cons node rest induction =>
      cases node with
      | globals globals =>
          rcases runNodes_ends_globals_iff.mp ends with
            ⟨phase, later, middle, _, own, others, rfl⟩
          have first : Contents.Extends provisioner.switchId bindable start.contents
              middle.contents := extends_initGlobals plain distinct own
          exact first.trans (induction first.plain first.distinct
            (fun node ifindex admits => covers node ifindex (.globals own admits)) others)
      | ports interfaceClass node =>
          rcases runNodes_ends_ports_iff.mp ends with
            ⟨_, middle, _, initialised, others, rfl⟩
          have first := binds_initListed (includes_self _ _) plain distinct
            (fun port lists => covers node port.ifindex (.listed lists)) initialised
          exact first.extends.trans (induction first.plain first.distinct
            (fun node ifindex admits =>
              covers node ifindex (.ports initialised admits)) others)

end Provisioner

def Contents.OnSwitch (switchId : Nat) (contents : Contents) : Prop :=
  ∀ stored ∈ contents.objects, ∀ objectClass : ObjectClass, objectClass.ofPort = true →
    stored.classPath = objectClass.path →
      stored.get? (objectClass.pathOf "switch-id") = some (Storage.uint32.word switchId)

instance {switchId : Nat} {contents : Contents} :
    Decidable (contents.OnSwitch switchId) :=
  decidable_of_iff (∀ stored ∈ contents.objects, ∀ objectClass ∈ ObjectClass.all,
      objectClass.ofPort = true → stored.classPath = objectClass.path →
        stored.get? (objectClass.pathOf "switch-id") =
          some (Storage.uint32.word switchId))
    (forall₂_congr fun _ _ => forall_congr' fun objectClass =>
      imp_iff_right objectClass.mem_all)

namespace Provisioner

structure Leaves (provisioner : Provisioner) (config : Config) (memory : Memory)
    (old new : StoreObject) : Prop where
  plain : new.IsPlain
  classPath : new.classPath = old.classPath
  entity : new.entity? = old.entity?
  /-- Tables, entries and profiles, and whatever is of no known class, are unchanged. -/
  unowned : old.port? = none → new = old
  /-- What belongs to a port that was listed to no port node is unchanged. -/
  unlisted : (∀ node ifindex, old.port? = some ifindex →
    ¬provisioner.Admits config.nodes {} memory node ifindex) → new = old
  /-- What has changed is bound by a port node that the port was listed to. -/
  bound : ∀ path, new.get? path ≠ old.get? path → ∃ objectClass node ifindex attr,
    old.classPath = objectClass.path ∧ old.port? = some ifindex ∧
      provisioner.Admits config.nodes {} memory node ifindex ∧
      attr ∈ node.bindable objectClass ∧ path = objectClass.pathOf attr

/-- A run only adds and binds: all that was stored is stored still, in the same order, and
has changed in nothing but what port nodes bind on the ports that were listed to them. -/
theorem run_only_adds_and_binds (provisioner : Provisioner) (config : Config)
    {memory : Memory} {report : RunReport} {after : Memory}
    (plain : ∀ stored ∈ memory.contents.objects, stored.IsPlain)
    (distinct : Contents.Distinct memory.contents.objects)
    (onSwitch : memory.contents.OnSwitch provisioner.switchId)
    (ends : (provisioner.run config).Ends Memory.responder memory report after) :
    ∃ olds added, after.contents.objects = olds ++ added ∧
      List.Forall₂ (provisioner.Leaves config memory) memory.contents.objects olds := by
  rcases ends_bind_iff.mp ends with ⟨phases, last, ran, ends⟩
  rcases ends_done_iff.mp ends with ⟨-, rfl⟩
  let bindable : Bindable := fun objectClass ifindex =>
    {attr | ∃ node, provisioner.Admits config.nodes {} memory node ifindex ∧
      attr ∈ node.bindable objectClass}
  have extends_ := @extends_runNodes provisioner {} bindable _ _ _ _ plain distinct
    (fun node ifindex admits objectClass attr isBindable =>
      ⟨node, admits, isBindable⟩) ran
  rcases extends_.objects with ⟨olds, added, isAfter, framed, -⟩
  refine ⟨olds, added, isAfter, ?_⟩
  refine ((List.forall₂_and_left _ _).mpr ⟨onSwitch, framed⟩).imp ?_
  rintro old new ⟨ownSwitch, framed⟩
  refine ⟨framed.plain, framed.classPath, framed.entity, fun none =>
    ?_, fun unlisted => ?_,
    fun path changed => ?_⟩
  · exact framed.same fun objectClass port _ onPort => by simp [none] at onPort
  · refine framed.same fun objectClass port _ onPort => Set.eq_empty_of_forall_notMem ?_
    rintro attr ⟨node, admits, -⟩
    exact unlisted node port onPort admits
  · rcases (framed.attrs path).resolve_left changed with
      ⟨objectClass, port, isOf, onPort,
        ⟨rfl, written⟩ | ⟨attr, ⟨node, admits, isBindable⟩, isPath⟩⟩
    · rcases StoreObject.port?_eq_some_iff.mp onPort with ⟨ownClass, ofPort, ownOf, -⟩
      cases ObjectClass.path_injective (isOf.symm.trans ownOf)
      exact absurd (written.trans (ownSwitch _ ofPort isOf).symm) changed
    · exact ⟨objectClass, node, port, attr, isOf, onPort, admits, isBindable, isPath⟩

def fairQueue : Config :=
  let queue : QueueNode := { queueType := "UCAST", number := 0, profile := some "fair" }
  ⟨[.globals { profiles := [{ tag := "fair" }] },
    .ports .frontPanel
      { tree := some ⟨[{ level := 0, leaf := true, queues := [queue] }]⟩ }]⟩

def switchWithCpu : Memory :=
  let ports : List TopologyPort :=
    [{ name := "Ethernet0", ifindex := 1, unicastQueues := 1 },
      { name := "CPU", ifindex := 9, cpu := true, unicastQueues := 1 }]
  (Memory.ofTopology 0 ⟨ports⟩).toOption.getD (.new 0)

theorem run_only_adds_and_binds_fairQueue :
    ∃ report after olds added,
      (run ⟨0, 3⟩ fairQueue).Ends Memory.responder switchWithCpu report after ∧
      report.appliedCount = 2 ∧ after.contents.objects = olds ++ added ∧
      List.Forall₂ (Leaves ⟨0, 3⟩ fairQueue switchWithCpu) switchWithCpu.contents.objects
        olds := by
  have counted : ((run ⟨0, 3⟩ fairQueue).run Memory.responder switchWithCpu).1.map
      RunReport.appliedCount = some 2 := by
    decide +kernel
  rcases Option.map_eq_some_iff.mp counted with ⟨report, ran, count⟩
  rcases exists_ends_of_run ran with ⟨after, ends⟩
  rcases run_only_adds_and_binds ⟨0, 3⟩ fairQueue (by decide +kernel) (by decide +kernel)
    (by decide +kernel) ends with ⟨olds, added, isAfter, left⟩
  exact ⟨report, after, olds, added, ends, count, isAfter, left⟩

end Provisioner

end SwitchQos
