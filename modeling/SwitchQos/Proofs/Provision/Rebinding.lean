import SwitchQos.Proofs.Provision.Requests
import SwitchQos.Proofs.Provision.TreeBuilding

namespace SwitchQos

/-! Provisioning a port again. Nothing that the first run sets makes the second run
discover, look up or set anything else, so the second run reports the same and writes
over every attribute the value that is there already. -/

namespace Exchange

variable {port : Nat} {start : Contents} {Result : Type}

/-- What is reported and what is set is the same on all stores that are alike and have
the same rules. -/
def Repeatable (port : Nat) (start : Contents) (exchange : Exchange Result) : Prop :=
  ∃ (result : List FailureRule → Result) (accepted : List FailureRule → List StoreObject),
    ∀ memory : Memory, memory.Alike port start → ∃ after,
      exchange.Ends Memory.responder memory (result memory.rules) after ∧
      after.Alike port start ∧ after.rules = memory.rules ∧
      after.contents = memory.contents.rewritten (accepted memory.rules)

theorem repeatable_done (result : Result) : (done result).Repeatable port start :=
  ⟨fun _ => result, fun _ => [], fun memory alike =>
    ⟨memory, ends_done_iff.mpr ⟨rfl, rfl⟩, alike, rfl, Contents.rewritten_nil.symm⟩⟩

theorem Repeatable.bind {Other : Type} {exchange : Exchange Result}
    {next : Result → Exchange Other} (first : exchange.Repeatable port start)
    (last : ∀ result, (next result).Repeatable port start) :
    (exchange.bind next).Repeatable port start := by
  rcases first with ⟨result, accepted, firstEnds⟩
  choose results later lastEnds using last
  refine ⟨fun rules => results (result rules) rules,
    fun rules => accepted rules ++ later (result rules) rules, fun memory alike => ?_⟩
  rcases firstEnds memory alike with
    ⟨middle, ends, middleAlike, middleRules, middleContents⟩
  rcases lastEnds (result memory.rules) middle middleAlike with
    ⟨after, ended, afterAlike, afterRules, afterContents⟩
  rw [middleRules] at ended afterRules afterContents
  refine ⟨after, ends.bind ended, afterAlike, afterRules, ?_⟩
  rw [afterContents, middleContents, Contents.rewritten_append]

theorem Repeatable.of_finds {Found : Type} {lookUp : Task Found}
    {found : Except ProvisionError Found}
    {next : Except ProvisionError Found → Exchange Result}
    (finds : lookUp.Finds port start found) (last : (next found).Repeatable port start) :
    (lookUp.run.bind next).Repeatable port start := by
  rcases last with ⟨result, accepted, ends⟩
  refine ⟨result, accepted, fun memory alike => ?_⟩
  rcases ends memory alike with ⟨after, ended, rest⟩
  exact ⟨after, (finds memory alike).bind ended, rest⟩

/-- Run a second time, such an exchange changes nothing. -/
theorem Repeatable.twice {exchange : Exchange Result} {memory : Memory}
    (repeatable : exchange.Repeatable port memory.contents)
    (available : memory.unavailable = 0)
    (plain : ∀ stored ∈ memory.contents.objects, stored.IsPlain) :
    ∃ result first second, exchange.Ends Memory.responder memory result first ∧
      exchange.Ends Memory.responder first result second ∧
      second.contents = first.contents := by
  rcases repeatable with ⟨result, accepted, ends⟩
  rcases ends memory (Memory.alike_self available plain) with
    ⟨first, firstEnds, firstAlike, sameRules, firstContents⟩
  rcases ends first firstAlike with ⟨second, secondEnds, -, -, secondContents⟩
  rw [sameRules] at secondEnds secondContents
  refine ⟨_, first, second, firstEnds, secondEnds, ?_⟩
  rw [secondContents, firstContents, Contents.rewritten_rewritten plain]

end Exchange

variable {start : Contents} {names : Names} {port : Port}

theorem repeatable_bindings {bindings : List Binding} {onPort : Nat}
    (distinct : Contents.Distinct start.objects)
    (each : ∀ binding ∈ bindings, ∃ request, binding.ComesTo names onPort start request) :
    (Exchange.collect bindings (Binding.record names)).Repeatable onPort start := by
  choose! request comes using each
  exact ⟨fun rules => bindings.map fun binding =>
    binding.outcome rules start (request binding),
    fun rules => bindings.filterMap fun binding =>
      (request binding).accepted? rules start,
    fun memory alike => Binding.collect_ends comes distinct alike⟩

theorem repeatable_bindPortMaps {switchId : Nat} {node : PortNode}
    (distinct : Contents.Distinct start.objects) :
    (bindPortMaps switchId names port node).Repeatable port.ifindex start := by
  rw [bindPortMaps_eq]
  exact repeatable_bindings distinct (exists_comesTo_mapBindings switchId)

theorem Scheduler.repeatable_applyTree {scheduler : Scheduler} {tree : SchedulerTree}
    (provisionable : start.Provisionable scheduler.switchId port.ifindex) :
    (scheduler.applyTree names port tree).Repeatable port.ifindex start := by
  have bindings := repeatable_bindings provisionable.distinct
    (exists_comesTo_treeBindings names provisionable tree)
  rw [applyTree_eq]
  exact .of_finds readGroups_finds bindings

namespace Provisioner

variable {provisioner : Provisioner} {node : PortNode}

/-- Provisioning a port a second time reports the same as the first time, and leaves all
that is stored as the first run has left it. -/
theorem initPort_idempotent {memory : Memory} (available : memory.unavailable = 0)
    (provisionable : memory.contents.Provisionable provisioner.switchId port.ifindex) :
    ∃ report first second,
      (provisioner.initPort names node port).Ends Memory.responder memory report first ∧
      (provisioner.initPort names node port).Ends Memory.responder first report second ∧
      second.contents = first.contents := by
  have tree : (provisioner.applyTree? names port node.tree).Repeatable port.ifindex
      memory.contents := by
    cases node.tree with
    | none => exact Exchange.repeatable_done _
    | some tree => exact Scheduler.repeatable_applyTree provisionable
  have whole : (provisioner.initPort names node port).Repeatable port.ifindex
      memory.contents :=
    (repeatable_bindPortMaps provisionable.distinct).bind fun maps =>
      tree.bind fun outcomes => Exchange.repeatable_done _
  exact whole.twice available provisionable.plain

/-- A refused binding is refused again, and those beside it are made again. -/
theorem initPort_idempotent_refusing :
    let names := ({} : Names).addProfile "fair" 7
    let port : Port := ⟨"Ethernet0", 1, InterfaceClass.frontPanel.typeName⟩
    let node : PortNode :=
      { ingress := [(.dscpToTc, "unknown")], tree := some Scheduler.groupOverQueue }
    let memory := Scheduler.switchWithQueue.refuseAll .set .queue
    ∃ report first second,
      (initPort ⟨0, 1⟩ names node port).Ends Memory.responder memory report first ∧
      (initPort ⟨0, 1⟩ names node port).Ends Memory.responder first report second ∧
      second.contents = first.contents ∧
      report.outcomes.map Outcome.isFailure = [true, false, false, true] := by
  intro names port node memory
  have provisionable : memory.contents.Provisionable 0 1 := by
    rw [Memory.contents_refuseAll]
    exact Scheduler.serves_switchWithQueue.provisionable
  have available : memory.unavailable = 0 := by
    rw [Memory.unavailable_refuseAll]
    exact Scheduler.serves_switchWithQueue.available
  have failures : ((initPort ⟨0, 1⟩ names node port).run Memory.responder memory).1.map
      (fun report => report.outcomes.map Outcome.isFailure) =
      some [true, false, false, true] := by
    decide +kernel
  rcases @initPort_idempotent names port ⟨0, 1⟩ node memory available provisionable with
    ⟨report, first, second, firstEnds, secondEnds, same⟩
  rw [firstEnds] at failures
  exact ⟨report, first, second, firstEnds, secondEnds, same, Option.some.inj failures⟩

end Provisioner

end SwitchQos
