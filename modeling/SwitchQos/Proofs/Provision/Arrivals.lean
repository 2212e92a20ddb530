import SwitchQos.Proofs.Provision.RunFrame

namespace SwitchQos

/-! Where a run is when it submits a batch. It takes the nodes in order, so it comes to
the ports of a port node with the names that the nodes before it have left, and whatever
is submitted is submitted for a global node or for one port of a port node. -/

open Exchange

/-! ## Passed nodes -/

def Names.addMaps (names : Names) (created : List (MapNode × Nat)) : Names :=
  created.foldl (fun names row => names.addMap row.1.tag row.2) names

namespace Provisioner

variable {provisioner : Provisioner}

/-- Taken in order, the nodes have these maps created, each with the id of its table. -/
inductive CreatesMaps (provisioner : Provisioner) :
    List MapNode → Memory → List (MapNode × Nat) → Memory → Prop
  | nothing {start : Memory} : CreatesMaps provisioner [] start [] start
  | skipped {node : MapNode} {rest : List MapNode} {created : List (MapNode × Nat)}
      {start last : Memory} (unprovisionable : ¬node.mapType.isProvisionable = true)
      (creates : CreatesMaps provisioner rest start created last) :
      CreatesMaps provisioner (node :: rest) start created last
  | failed {node : MapNode} {rest : List MapNode} {created : List (MapNode × Nat)}
      {start middle last : Memory} {error : ProvisionError}
      (provisionable : node.mapType.isProvisionable = true)
      (ends : (provisioner.createMap node).run.Ends Memory.responder start
        (.error error) middle)
      (creates : CreatesMaps provisioner rest middle created last) :
      CreatesMaps provisioner (node :: rest) start created last
  | succeeded {node : MapNode} {rest : List MapNode} {created : List (MapNode × Nat)}
      {start middle last : Memory} {id : Nat}
      (provisionable : node.mapType.isProvisionable = true)
      (ends : (provisioner.createMap node).run.Ends Memory.responder start
        (.ok id) middle)
      (creates : CreatesMaps provisioner rest middle created last) :
      CreatesMaps provisioner (node :: rest) start ((node, id) :: created) last

theorem exists_createsMaps {nodes : List MapNode} {names later : Names}
    {outcomes : List Outcome} {before after : Memory}
    (ends : (provisioner.createMaps nodes names).Ends Memory.responder before
      (outcomes, later) after) :
    ∃ created, provisioner.CreatesMaps nodes before created after ∧
      later = names.addMaps created := by
  induction nodes generalizing names before outcomes with
  | nil =>
      rcases ends_done_iff.mp ends with ⟨same, rfl⟩
      cases same
      exact ⟨[], .nothing, rfl⟩
  | cons node rest induction =>
      rw [createMaps] at ends
      split at ends
      · rcases ends_bind_iff.mp ends with ⟨result, middle, first, last⟩
        rcases ends_bind_iff.mp last with ⟨⟨_, _⟩, _, restEnds, given⟩
        rcases ends_done_iff.mp given with ⟨same, rfl⟩
        cases same
        rcases induction restEnds with ⟨created, creates, rfl⟩
        cases result with
        | error error => exact ⟨created, .failed ‹_› first creates, rfl⟩
        | ok id => exact ⟨(node, id) :: created, .succeeded ‹_› first creates, rfl⟩
      · rcases ends_bind_iff.mp ends with ⟨⟨_, _⟩, _, restEnds, given⟩
        rcases ends_done_iff.mp given with ⟨same, rfl⟩
        cases same
        rcases induction restEnds with ⟨created, creates, rfl⟩
        exact ⟨created, .skipped ‹_› creates, rfl⟩

inductive Passes (provisioner : Provisioner) :
    List ConfigNode → Names → Memory → List (MapNode × Nat) → Names → Memory → Prop
  | nothing {names : Names} {start : Memory} :
      Passes provisioner [] names start [] names start
  | globals {node : GlobalsNode} {rest : List ConfigNode}
      {names middleNames lastNames : Names} {start filled middle last : Memory}
      {own others : List (MapNode × Nat)} {outcomes : List Outcome}
      (creates : provisioner.CreatesMaps node.maps start own filled)
      (ends : (provisioner.createProfiles node.profiles (names.addMaps own)).Ends
        Memory.responder filled (outcomes, middleNames) middle)
      (passes : Passes provisioner rest middleNames middle others lastNames last) :
      Passes provisioner (.globals node :: rest) names start (own ++ others)
        lastNames last
  | ports {interfaceClass : InterfaceClass} {node : PortNode} {rest : List ConfigNode}
      {names lastNames : Names} {start middle last : Memory}
      {created : List (MapNode × Nat)} {phases : List PhaseReport}
      (ends : (provisioner.initPortsOf names interfaceClass node).Ends
        Memory.responder start phases middle)
      (passes : Passes provisioner rest names middle created lastNames last) :
      Passes provisioner (.ports interfaceClass node :: rest) names start created
        lastNames last

end Provisioner

/-! ## Arrivals -/

/-- The arrival of a run at a port, where a port node is applied. -/
structure Arrival where
  earlier : List ConfigNode
  interfaceClass : InterfaceClass
  node : PortNode
  /-- The maps that the earlier nodes have had created, in order. -/
  created : List (MapNode × Nat)
  names : Names
  /-- The store when the run has come to the port node. -/
  reached : Memory
  port : Port
  /-- The store when the run has come to the port. -/
  start : Memory

/-- The run of the configuration arrives there: it has passed the earlier nodes, the port
is listed to the port node, and the node begins with the port. -/
structure Arrival.OnRun (provisioner : Provisioner) (config : Config) (memory : Memory)
    (arrival : Arrival) : Prop where
  position : ∃ later,
    config.nodes = arrival.earlier ++ .ports arrival.interfaceClass arrival.node :: later
  passes : provisioner.Passes arrival.earlier {} memory arrival.created arrival.names
    arrival.reached
  lists :
    (provisioner.initPortsOf arrival.names arrival.interfaceClass arrival.node).Lists
      Memory.responder arrival.reached arrival.interfaceClass arrival.port
  begins :
    (provisioner.initPortsOf arrival.names arrival.interfaceClass arrival.node).Includes
      Memory.responder arrival.reached
      (provisioner.initPort arrival.names arrival.node arrival.port) arrival.start

namespace Provisioner

variable {Whole : Type} {provisioner : Provisioner} {names : Names} {node : PortNode}
  {whole : Exchange Whole} {before start state : Memory} {batch : List Operation}
  {next : ObjectsReply → Exchange Whole}

theorem exists_listed_of_submitsFor {polls : Nat} {tracker : PortTracker}
    (submitted : whole.SubmitsFor Memory.responder before
      (provisioner.initListed names node polls tracker) start batch state next) :
    ∃ port begun, whole.Lists Memory.responder before tracker.interfaceClass port ∧
      whole.SubmitsFor Memory.responder before
        (provisioner.initPort names node port) begun batch state next := by
  induction polls generalizing start tracker with
  | zero =>
      rcases submitted.submitsAt with ⟨_, none⟩
      cases none
  | succ polls induction =>
      rw [initListed, bind_eq_bind] at submitted
      have includes := submitted.includes
      rcases submitted.of_bind with own | ⟨reply, listed, asked, later⟩
      · exact absurd own not_submitsFor_askPorts
      · rcases ends_askPorts_iff.mp asked with ⟨isReply, -⟩
        cases reply with
        | error cause => exact induction later
        | ok listing =>
            have sameClass :
                (tracker.accept listing).2.interfaceClass = tracker.interfaceClass := by
              rw [PortTracker.accept_eq]
            dsimp only at later
            split at later
            · exact absurd later not_submitsFor_done
            · rcases later.of_bind with each | ⟨phases, middle, -, others⟩
              · rcases each.of_collect with ⟨port, member, begun, submits⟩
                rcases PortTracker.listed_of_mem_accept member with ⟨inListing, isOf⟩
                exact ⟨port, begun, includes.lists isReply.symm inListing isOf,
                  submits.of_map⟩
              · rw [← sameClass]
                exact induction others.of_map

theorem exists_node_of_submitsFor {nodes : List ConfigNode}
    (submitted : whole.SubmitsFor Memory.responder before
      (provisioner.runNodes nodes names) start batch state next) :
    (∃ globals known begun, .globals globals ∈ nodes ∧
      whole.SubmitsFor Memory.responder before
        (provisioner.initGlobals known globals) begun batch state next) ∨
      ∃ earlier interfaceClass node later created known reached,
        nodes = earlier ++ .ports interfaceClass node :: later ∧
        provisioner.Passes earlier names start created known reached ∧
        whole.SubmitsFor Memory.responder before
          (provisioner.initPortsOf known interfaceClass node) reached batch
          state next := by
  induction nodes generalizing names start with
  | nil => exact absurd submitted not_submitsFor_done
  | cons first rest induction =>
      cases first with
      | globals globals =>
          rcases submitted.of_bind with own | ⟨⟨phase, after⟩, middle, ends, others⟩
          · exact .inl ⟨globals, names, start, List.mem_cons_self, own⟩
          · rcases ends_bind_iff.mp ends with ⟨⟨maps, named⟩, filled, mapsEnd, ends⟩
            rcases exists_createsMaps mapsEnd with ⟨own, creates, rfl⟩
            rcases ends_bind_iff.mp ends with ⟨⟨profiles, _⟩, _, profilesEnd, given⟩
            rcases ends_done_iff.mp given with ⟨same, rfl⟩
            cases same
            rcases induction others.of_map with ⟨other, known, begun, member, submits⟩ |
              ⟨earlier, interfaceClass, node, later, created, known, reached, rfl,
                passes, submits⟩
            · exact .inl ⟨other, known, begun, List.mem_cons_of_mem _ member, submits⟩
            · exact .inr ⟨.globals globals :: earlier, interfaceClass, node, later,
                own ++ created, known, reached, rfl,
                .globals creates profilesEnd passes, submits⟩
      | ports ownClass own =>
          rcases submitted.of_bind with submits | ⟨phases, middle, ends, others⟩
          · exact .inr ⟨[], ownClass, own, rest, [], names, start, rfl, .nothing, submits⟩
          · rcases induction others.of_map with ⟨other, known, begun, member, submits⟩ |
              ⟨earlier, interfaceClass, node, later, created, known, reached, rfl,
                passes, submits⟩
            · exact .inl ⟨other, known, begun, List.mem_cons_of_mem _ member, submits⟩
            · exact .inr ⟨.ports ownClass own :: earlier, interfaceClass, node, later,
                created, known, reached, rfl, .ports ends passes, submits⟩

/-- Each batch of a run is submitted for a global node or on an arrival at a port. -/
theorem run_submits_for {config : Config} {memory : Memory}
    {next : ObjectsReply → Exchange RunReport}
    (submitted : Reaches Memory.responder (provisioner.run config) memory
      (.transact batch next) state) :
    (∃ globals known begun, .globals globals ∈ config.nodes ∧
      (provisioner.run config).SubmitsFor Memory.responder memory
        (provisioner.initGlobals known globals) begun batch state next) ∨
      ∃ arrival : Arrival, arrival.OnRun provisioner config memory ∧
        (provisioner.run config).SubmitsFor Memory.responder memory
          (provisioner.initPort arrival.names arrival.node arrival.port)
          arrival.start batch state next := by
  rcases exists_node_of_submitsFor (submitsFor_self submitted).of_map with
    global | ⟨earlier, interfaceClass, node, later, created, names, reached,
      position, passes, submits⟩
  · exact .inl global
  · rcases submits with ⟨last, reply, reaches, own, rfl⟩
    rcases exists_listed_of_submitsFor (submitsFor_self own) with
      ⟨port, start, lists, forPort⟩
    exact .inr ⟨⟨earlier, interfaceClass, node, created, names, reached, port, start⟩,
      ⟨⟨later, position⟩, passes, lists, forPort.includes⟩, forPort.within reaches⟩

end Provisioner

end SwitchQos
