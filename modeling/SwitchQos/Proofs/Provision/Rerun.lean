import Mathlib.Algebra.GroupWithZero.Nat
import SwitchQos.Proofs.Provision.ProfileCreation
import SwitchQos.Proofs.Provision.RunFrame
import SwitchQos.Proofs.Store.Seeding

namespace SwitchQos

/-! A run and the rerun on a single port. The run comes to the port with the names that
the nodes before it have left; the rerun creates all profiles first. If nothing that is
declared behind gets in between, the tree is built alike on the port, and the profiles
that are bound differ in their ids only. Whatever else a run does spares the groups and
queues of the port. -/

open Exchange

/-! ## Sparing a port -/

/-- All may be bound but the groups and queues of a port. -/
def sparing (ifindex : Nat) : Bindable := fun objectClass port =>
  {_attr | ¬(objectClass.ofTree = true ∧ port = ifindex)}

theorem PortNode.bindable_subset_sparing {node : PortNode} {objectClass : ObjectClass}
    {port ifindex : Nat} (apart : node.tree = none ∨ port ≠ ifindex) :
    node.bindable objectClass ⊆ sparing ifindex objectClass port := by
  rintro attr isBindable ⟨ofTree, same⟩
  have noTree := apart.resolve_right (not_not.mpr same)
  cases objectClass with
  | schedulerGroup | queue => simp [bindable, noTree] at isBindable
  | _ => cases ofTree

namespace StoreObject

variable {Renames Weaker : Nat → Nat → Prop}
  {old new left right leftAfter rightAfter : StoreObject}

structure Spared (old new : StoreObject) : Prop where
  plain : new.IsPlain
  classPath : new.classPath = old.classPath
  entity : new.entity? = old.entity?
  same : ∀ objectClass : ObjectClass, objectClass.ofTree = true →
    old.classPath = objectClass.path → new = old

theorem spared_self (plain : old.IsPlain) : old.Spared old :=
  ⟨plain, rfl, rfl, fun _ _ _ => rfl⟩

theorem boundAlike_self (plain : old.IsPlain)
    (unbound : ∀ objectClass : ObjectClass, objectClass.ofTree = true →
      old.classPath = objectClass.path →
        old.get? (objectClass.pathOf "scheduler-profile-id") = none) :
    old.BoundAlike Renames old where
  leftPlain := plain
  rightPlain := plain
  classPath := rfl
  entity := rfl
  others := fun _ _ _ _ _ => rfl
  profile objectClass ofTree isOf := by
    rw [unbound objectClass ofTree isOf]
    exact .none

theorem BoundAlike.spared (alike : left.BoundAlike Renames right)
    (leftSpared : left.Spared leftAfter) (rightSpared : right.Spared rightAfter) :
    leftAfter.BoundAlike Renames rightAfter where
  leftPlain := leftSpared.plain
  rightPlain := rightSpared.plain
  classPath :=
    rightSpared.classPath.trans (alike.classPath.trans leftSpared.classPath.symm)
  entity := rightSpared.entity.trans (alike.entity.trans leftSpared.entity.symm)
  others objectClass ofTree isOf := by
    have leftOf := leftSpared.classPath.symm.trans isOf
    rw [leftSpared.same objectClass ofTree leftOf,
      rightSpared.same objectClass ofTree (alike.classPath.trans leftOf)]
    exact alike.others objectClass ofTree leftOf
  profile objectClass ofTree isOf := by
    have leftOf := leftSpared.classPath.symm.trans isOf
    rw [leftSpared.same objectClass ofTree leftOf,
      rightSpared.same objectClass ofTree (alike.classPath.trans leftOf)]
    exact alike.profile objectClass ofTree leftOf

theorem forall₂_boundAlike_spared {lefts rights leftsAfter rightsAfter : List StoreObject}
    (alike : List.Forall₂ (BoundAlike Renames) lefts rights)
    (leftSpared : List.Forall₂ Spared lefts leftsAfter)
    (rightSpared : List.Forall₂ Spared rights rightsAfter) :
    List.Forall₂ (BoundAlike Renames) leftsAfter rightsAfter := by
  have half : List.Forall₂
    (fun left rightAfter => ∃ right, left.BoundAlike Renames right ∧
      right.Spared rightAfter) lefts rightsAfter :=
    Results.forall₂_trans (fun _ right _ alike spared => ⟨right, alike, spared⟩)
      alike rightSpared
  refine Results.forall₂_trans (fun _ _ _ spared => ?_) leftSpared.flip half
  rintro ⟨right, alike, spared'⟩
  exact alike.spared spared spared'

theorem BoundAlike.mono (alike : left.BoundAlike Renames right)
    (weaker : ∀ leftId rightId, Renames leftId rightId → Weaker leftId rightId) :
    left.BoundAlike Weaker right :=
  { alike with
    profile :=
      fun objectClass ofTree isOf => rel_imp (alike.profile objectClass ofTree isOf)
      fun _ _ ⟨leftId, rightId, renamed, isLeft, isRight⟩ =>
        ⟨leftId, rightId, weaker _ _ renamed, isLeft, isRight⟩ }

end StoreObject

theorem Contents.Extends.spared {switchId ifindex : Nat} {start later : Contents}
    (extends_ : Extends switchId (sparing ifindex) start later) :
    List.Forall₂ StoreObject.Spared (start.part (some ifindex))
      (later.part (some ifindex)) := by
  refine ((List.forall₂_and_left _ _).mpr
    ⟨fun stored member => (mem_part_iff.mp member).2,
    extends_.part ifindex⟩).imp ?_
  rintro old new ⟨onPort, framed⟩
  refine ⟨framed.plain, framed.classPath, framed.entity,
    fun objectClass ofTree isOf => ?_⟩
  refine framed.same fun otherClass port otherOf otherPort => ?_
  cases ObjectClass.path_injective (isOf.symm.trans otherOf)
  cases onPort.symm.trans otherPort
  exact Set.eq_empty_of_forall_notMem fun attr isBindable => isBindable ⟨ofTree, rfl⟩

/-! ## Runs on a standing store -/

section Standing

variable {listing : InterfaceClass → List Port} {before : Memory}

theorem Memory.Stands.mem_of_lists {Result : Type} {exchange : Exchange Result}
    {interfaceClass : InterfaceClass} {port : Port} (stands : before.Stands listing)
    (lists : exchange.Lists Memory.responder before interfaceClass port) :
    port ∈ listing interfaceClass := by
  rcases lists with ⟨next, state, listed, reaches, replied, member, -⟩
  have isListed := ((stands.of_reaches reaches).listPorts_eq interfaceClass).1
  cases replied.symm.trans isListed
  exact member

theorem Memory.Stands.exists_of_admits {provisioner : Provisioner}
    {nodes : List ConfigNode} {names : Names} {node : PortNode} {ifindex : Nat}
    (stands : before.Stands listing)
    (admits : provisioner.Admits nodes names before node ifindex) :
    ∃ interfaceClass, ConfigNode.ports interfaceClass node ∈ nodes ∧
      ∃ port ∈ listing interfaceClass, port.ifindex = ifindex := by
  induction admits with
  | listed lists => exact ⟨_, List.mem_cons_self, _, stands.mem_of_lists lists, rfl⟩
  | globals ends _ induction | ports ends _ induction =>
      rcases induction (stands.of_reaches ends.reaches) with
        ⟨interfaceClass, declared, isListed⟩
      exact ⟨interfaceClass, List.mem_cons_of_mem _ declared, isListed⟩

end Standing

/-! ## The nodes in front -/

def declared (nodes : List ConfigNode) : Nat :=
  ((Config.mk nodes).globals.map fun node => node.maps.length + node.profiles.length).sum

namespace Provisioner

variable {provisioner : Provisioner} {listing : InterfaceClass → List Port}
  {base limit : Nat}

theorem createAllProfiles_ends_append {earlier later : List GlobalsNode}
    {names middleNames last : Names} {before middle after : Memory}
    {outcomes others : List Outcome}
    (first : (provisioner.createAllProfiles earlier names).Ends Memory.responder before
      (outcomes, middleNames) middle)
    (rest : (provisioner.createAllProfiles later middleNames).Ends Memory.responder middle
      (others, last) after) :
    (provisioner.createAllProfiles (earlier ++ later) names).Ends Memory.responder before
      (outcomes ++ others, last) after := by
  induction earlier generalizing names before outcomes with
  | nil =>
      rcases ends_done_iff.mp first with ⟨same, rfl⟩
      cases same
      exact rest
  | cons node earlier induction =>
      rcases ends_bind_iff.mp first with ⟨⟨own, ownNames⟩, next, ownEnds, first⟩
      rcases ends_bind_iff.mp first with ⟨⟨tail, tailNames⟩, last, tailEnds, first⟩
      rcases ends_done_iff.mp first with ⟨same, rfl⟩
      cases same
      rw [List.append_assoc]
      exact ownEnds.bind ((induction tailEnds).map fun result =>
        (own ++ result.1, result.2))

theorem exists_createAllProfiles {nodes : List GlobalsNode} {names : Names}
    {before : Memory} (stands : before.Stands listing) :
    ∃ outcomes last after, (provisioner.createAllProfiles nodes names).Ends
      Memory.responder before
        (outcomes, last) after ∧
      ∀ name, (∀ node ∈ nodes, ∀ profile ∈ node.profiles, profile.tag ≠ name) →
        last.profiles.get? name = names.profiles.get? name := by
  induction nodes generalizing names before with
  | nil => exact ⟨[], names, before, ends_done_iff.mpr ⟨rfl, rfl⟩, fun _ _ => rfl⟩
  | cons node rest induction =>
      rcases @exists_createProfiles provisioner before names listing
          node.profiles stands with
        ⟨own, ownNames, middle, ownEnds, ownSame⟩
      rcases @induction ownNames middle (stands.of_reaches ownEnds.reaches) with
        ⟨others, last, after, restEnds, restSame⟩
      refine ⟨own ++ others, last, after,
        ownEnds.bind (restEnds.map fun result => (own ++ result.1, result.2)),
        fun name other => ?_⟩
      rw [restSame name fun later member => other later (List.mem_cons_of_mem _ member)]
      refine ownSame name fun isTag => ?_
      rcases List.mem_map.mp isTag with ⟨profile, isProfile, same⟩
      exact other node List.mem_cons_self profile isProfile same

section Synced

variable {left right after ran : Memory} {leftNames rightNames : Names} {ifindex : Nat}

theorem initGlobals_synced {node : GlobalsNode} {phase : PhaseReport} {later : Names}
    (leftStands : left.Stands listing) (rightStands : right.Stands listing)
    (synced : Contents.Synced base limit left.contents right.contents
      leftNames rightNames)
    (fits : limit ≤ countOfBits 64)
    (leftRoom : left.contents.nextId + (node.maps.length + node.profiles.length) ≤ limit)
    (rightRoom : right.contents.nextId +
      (node.maps.length + node.profiles.length) ≤ limit)
    (unclaimed : ∀ profile ∈ node.profiles,
      profile.LeavesRange provisioner.switchId base limit)
    (ends : (provisioner.initGlobals leftNames node).Ends Memory.responder
      left (phase, later) after) :
    ∃ outcomes rightLater rightAfter,
      (provisioner.createProfiles node.profiles rightNames).Ends Memory.responder right
        (outcomes, rightLater) rightAfter ∧
      Contents.Synced base limit after.contents rightAfter.contents later rightLater ∧
      after.contents.nextId ≤
        left.contents.nextId + (node.maps.length + node.profiles.length) ∧
      rightAfter.contents.nextId ≤
        right.contents.nextId + (node.maps.length + node.profiles.length) := by
  rcases ends_bind_iff.mp ends with ⟨⟨maps, mapNames⟩, mapped, mapsEnd, ends⟩
  rcases ends_bind_iff.mp ends with ⟨⟨profiles, profileNames⟩, last, profilesEnd, ends⟩
  rcases ends_done_iff.mp ends with ⟨same, rfl⟩
  cases same
  rcases passes_createMaps mapsEnd with ⟨passes, sameNames⟩
  have within := passes.within
  rcases createProfiles_synced (leftStands.of_reaches mapsEnd.reaches) rightStands
    (synced.passes passes sameNames) fits (by omega) (by omega) unclaimed with
    ⟨leftOutcomes, leftLast, leftAfter, outcomes, rightLater, rightAfter,
      leftEnd, rightEnd, syncedAfter, leftNext, rightNext⟩
  rcases leftEnd.unique profilesEnd with ⟨same, rfl⟩
  cases same
  exact ⟨outcomes, rightLater, rightAfter, rightEnd, syncedAfter, by omega, by omega⟩

theorem initPortsOf_synced {node : PortNode} {phases : List PhaseReport}
    (leftStands : left.Stands listing)
    (apart : ∀ port ∈ listing .cpu, port.ifindex ≠ ifindex)
    (plain : ∀ stored ∈ left.contents.objects, stored.IsPlain)
    (distinct : Contents.Distinct left.contents.objects)
    (synced : Contents.Synced base limit left.contents right.contents
      leftNames rightNames)
    (ends : (provisioner.initPortsOf leftNames .cpu node).Ends Memory.responder
      left phases after) :
    Contents.Binds provisioner.switchId (sparing ifindex) left.contents after.contents ∧
      Contents.Synced base limit after.contents right.contents leftNames rightNames := by
  have binds := binds_initListed (includes_self _ _) plain distinct
    (fun port lists objectClass => PortNode.bindable_subset_sparing
      (.inr (apart port (leftStands.mem_of_lists lists)))) ends
  have passes : left.contents.Passes 0 after.contents :=
    ⟨binds.ofClass rfl, binds.nextId.ge, binds.nextId.le⟩
  exact ⟨binds, synced.passes passes rfl⟩

/-- The run goes through the nodes in front, while the rerun creates their profiles. -/
theorem runNodes_synced {earlier rest : List ConfigNode} {phases : List PhaseReport}
    (noPanel : ∀ node, ConfigNode.ports .frontPanel node ∉ earlier)
    (leftStands : left.Stands listing) (rightStands : right.Stands listing)
    (apart : ∀ port ∈ listing .cpu, port.ifindex ≠ ifindex)
    (plain : ∀ stored ∈ left.contents.objects, stored.IsPlain)
    (distinct : Contents.Distinct left.contents.objects)
    (synced : Contents.Synced base limit left.contents right.contents
      leftNames rightNames)
    (fits : limit ≤ countOfBits 64)
    (leftRoom : left.contents.nextId + declared earlier ≤ limit)
    (rightRoom : right.contents.nextId + declared earlier ≤ limit)
    (unclaimed : ∀ node ∈ (Config.mk earlier).globals, ∀ profile ∈ node.profiles,
      profile.LeavesRange provisioner.switchId base limit)
    (ends : (provisioner.runNodes (earlier ++ rest) leftNames).Ends
      Memory.responder left phases ran) :
    ∃ names others middle outcomes rightLast rightAfter,
      (provisioner.runNodes rest names).Ends Memory.responder middle others ran ∧
      (provisioner.createAllProfiles (Config.mk earlier).globals rightNames).Ends
        Memory.responder right (outcomes, rightLast) rightAfter ∧
      middle.Stands listing ∧
      Contents.Extends provisioner.switchId (sparing ifindex) left.contents
        middle.contents ∧
      Contents.Synced base limit middle.contents rightAfter.contents names rightLast := by
  induction earlier generalizing left right leftNames rightNames phases with
  | nil =>
      exact ⟨leftNames, phases, left, [], rightNames, right, ends,
        ends_done_iff.mpr ⟨rfl, rfl⟩,
        leftStands, Contents.extends_self plain distinct, synced⟩
  | cons node earlier induction =>
      have noPanelLater :=
        fun other member => noPanel other (List.mem_cons_of_mem _ member)
      cases node with
      | globals globals =>
          have isDeclared : declared (.globals globals :: earlier) =
              globals.maps.length + globals.profiles.length + declared earlier := rfl
          rw [isDeclared] at leftRoom rightRoom
          rcases runNodes_ends_globals_iff.mp ends with
            ⟨phase, leftLater, leftMiddle, _, own, later, rfl⟩
          have first : Contents.Extends provisioner.switchId
            (sparing ifindex) left.contents
              leftMiddle.contents := extends_initGlobals plain distinct own
          rcases initGlobals_synced leftStands rightStands synced fits
            (by omega) (by omega) (unclaimed globals List.mem_cons_self) own with
            ⟨ownOutcomes, rightLater, rightMiddle, rightEnd, middleSynced,
              leftNext, rightNext⟩
          rcases induction noPanelLater (leftStands.of_reaches own.reaches)
            (rightStands.of_reaches rightEnd.reaches) first.plain
            first.distinct middleSynced (by omega) (by omega) (fun node member =>
              unclaimed node (List.mem_cons_of_mem _ member)) later with
            ⟨names, others, middle, otherOutcomes, rightLast, rightAfter, restEnd, allEnd,
              middleStands, extended, lastSynced⟩
          exact ⟨names, others, middle, _, rightLast, rightAfter, restEnd,
            rightEnd.bind (allEnd.map fun result => (ownOutcomes ++ result.1, result.2)),
            middleStands, first.trans extended, lastSynced⟩
      | ports interfaceClass node =>
          rcases runNodes_ends_ports_iff.mp ends with
            ⟨_, leftMiddle, _, initialised, later, rfl⟩
          obtain rfl : interfaceClass = .cpu := by
            cases interfaceClass with
            | frontPanel => exact absurd List.mem_cons_self (noPanel node)
            | cpu => rfl
          have isDeclared : declared (.ports .cpu node :: earlier) =
            declared earlier := rfl
          rw [isDeclared] at leftRoom rightRoom
          rcases initPortsOf_synced leftStands apart plain distinct synced
              initialised with
            ⟨first, middleSynced⟩
          rcases induction noPanelLater
            (leftStands.of_reaches initialised.reaches) rightStands
            first.plain first.distinct middleSynced (by rw [first.nextId]; exact leftRoom)
            rightRoom unclaimed later with
            ⟨names, others, middle, outcomes, rightLast, rightAfter, restEnd,
              allEnd, middleStands, extended, lastSynced⟩
          exact ⟨names, others, middle, outcomes, rightLast, rightAfter, restEnd, allEnd,
            middleStands, first.extends.trans extended, lastSynced⟩

end Synced

end Provisioner

/-! ## The port in its turn -/

theorem Port.firsts_of_nodup {ports : List Port} (apart : (ports.map (·.ifindex)).Nodup) :
    firsts ports = ports := by
  induction ports with
  | nil => rfl
  | cons port rest induction =>
      rcases List.nodup_cons.mp apart with ⟨portApart, restApart⟩
      rw [firsts, induction restApart, List.filter_eq_self.mpr fun other member => ?_]
      exact decide_eq_true fun same => portApart (List.mem_map.mpr ⟨other, member, same⟩)

section Turn

variable {provisioner : Provisioner} {listing : InterfaceClass → List Port}
  {interfaceClass : InterfaceClass} {names : Names} {node : PortNode}
  {before after : Memory} {phases : List PhaseReport}

theorem Memory.Stands.stopsAt_one (stands : before.Stands listing)
    (some : listing interfaceClass ≠ [])
    (ofClass : ∀ port ∈ listing interfaceClass, port.isOf interfaceClass = true) :
    StopsAt interfaceClass (fun count =>
      .ok ((before.script interfaceClass).reply count)) 1 ∧
      heard interfaceClass (fun count =>
        .ok ((before.script interfaceClass).reply count)) 1 =
        listing interfaceClass := by
  have pending := stands.listings interfaceClass
  constructor
  · rcases List.exists_mem_of_ne_nil _ some with ⟨port, member⟩
    rcases @ListingScript.exists_stopsAt (before.script interfaceClass) interfaceClass
      ⟨_, pending ▸ List.mem_singleton_self _, port, member, ofClass port member⟩ with
      ⟨stop, early, stops⟩
    rw [pending, List.length_singleton] at early
    rcases Nat.le_one_iff_eq_zero_or_eq_one.mp early with rfl | rfl
    · exact absurd rfl stops.1.begun
    · exact stops
  · have first : (before.script interfaceClass).reply 0 = listing interfaceClass :=
      ListingScript.reply_eq (by rw [pending]; rfl)
    rw [heard_succ, first, portsOf, List.filter_eq_self.mpr ofClass]
    rfl

namespace Provisioner

theorem exists_initEach_of_stopsAt {stop : Nat}
    (stops : StopsAt interfaceClass
      (fun count => .ok ((before.script interfaceClass).reply count)) stop)
    (ends : (provisioner.initPortsOf names interfaceClass node).Ends
      Memory.responder before phases after) :
    ∃ own, (provisioner.initEach names node (Port.firsts (heard interfaceClass
        (fun count => .ok ((before.script interfaceClass).reply count)) stop))).Ends
        Memory.responder before phases own ∧ after.contents = own.contents := by
  have sameRun :=
    @Memory.run_listing before interfaceClass (before.script interfaceClass) _
    (provisioner.initPortsOf names interfaceClass node) 0
  rw [ListingScript.after, Memory.withScript_script, ends] at sameRun
  by_cases enough : stop < provisioner.polls
  · rcases @initPortsOf_ends _ Memory.responder provisioner names node _ _ _ stops
      enough before with
      ⟨others, own, ended, each⟩
    rw [ended] at sameRun
    simp only [Prod.mk.injEq, Option.some.injEq] at sameRun
    rcases sameRun with ⟨rfl, rfl⟩
    exact ⟨own, each, by cases interfaceClass <;> rfl⟩
  · have stalled :=
      @initListed_stalls _ provisioner names node Memory.responder interfaceClass
      (fun count => .ok ((before.script interfaceClass).reply count)) { interfaceClass }
      provisioner.polls 0 before (follows_start _ _) fun later _ within =>
        stops.2 later (by omega)
    rw [← initPortsOf] at stalled
    rcases ended : (provisioner.initPortsOf names interfaceClass node).run
      (Memory.responder.listing interfaceClass fun count =>
        .ok ((before.script interfaceClass).reply count)) (before, 0) with
          ⟨result, own, later⟩
    rw [ended] at sameRun stalled
    cases stalled
    cases sameRun

theorem exists_initEach_of_initPortsOf (stands : before.Stands listing)
    (some : listing interfaceClass ≠ [])
    (ofClass : ∀ port ∈ listing interfaceClass, port.isOf interfaceClass = true)
    (apart : ((listing interfaceClass).map (·.ifindex)).Nodup)
    (ends : (provisioner.initPortsOf names interfaceClass node).Ends
      Memory.responder before phases after) :
    ∃ own, (provisioner.initEach names node (listing interfaceClass)).Ends
      Memory.responder before phases own ∧ after.contents = own.contents := by
  rcases stands.stopsAt_one some ofClass with ⟨stops, heardOnce⟩
  have each := exists_initEach_of_stopsAt stops ends
  rwa [heardOnce, Port.firsts_of_nodup apart] at each

/-- Among the ports of a class one has its tree built, when what comes before has spared
its groups and queues, and what comes after spares them as well. -/
theorem exists_applyTree_of_initEach {ahead behind : List Port} {port : Port}
    {tree : SchedulerTree} (stands : before.Stands listing)
    (apart : ((ahead ++ port :: behind).map (·.ifindex)).Nodup)
    (plain : ∀ stored ∈ before.contents.objects, stored.IsPlain)
    (distinct : Contents.Distinct before.contents.objects)
    (declares : node.tree = some tree)
    (ends : (provisioner.initEach names node (ahead ++ port :: behind)).Ends
      Memory.responder before phases after) :
    ∃ start outcomes built, start.Stands listing ∧
      (provisioner.scheduler.applyTree names port tree).Ends Memory.responder start
        outcomes built ∧
      Contents.Binds provisioner.switchId (sparing port.ifindex) before.contents
        start.contents ∧
      Contents.Binds provisioner.switchId (sparing port.ifindex) built.contents
        after.contents := by
  have otherIndex : ∀ other ∈ ahead ++ behind, other.ifindex ≠ port.ifindex := by
    intro other member same
    rw [List.map_append, List.map_cons, List.nodup_middle, List.nodup_cons] at apart
    refine apart.1 ?_
    rw [← List.map_append]
    exact List.mem_map.mpr ⟨other, member, same⟩
  rcases initEach_ends_append_iff.mp ends with ⟨_, middle, _, aheadEnd, onward, rfl⟩
  rcases initEach_ends_cons_iff.mp onward with
    ⟨report, left, _, initialised, behindEnd, rfl⟩
  have first := binds_initEach plain distinct (fun other member objectClass =>
    PortNode.bindable_subset_sparing
      (.inr (otherIndex other (List.mem_append_left _ member))))
    aheadEnd
  have whole :=
    @binds_initPort provisioner names node (fun _ _ => Set.univ) middle left port report
    first.plain first.distinct (fun _ => Set.subset_univ _) initialised
  have rest := binds_initEach whole.plain whole.distinct (fun other member objectClass =>
    PortNode.bindable_subset_sparing
      (.inr (otherIndex other (List.mem_append_right _ member))))
    behindEnd
  rcases ends_bind_iff.mp initialised with ⟨maps, start, bound, initialised⟩
  rcases ends_bind_iff.mp initialised with ⟨outcomes, _, built, done⟩
  rcases ends_done_iff.mp done with ⟨-, rfl⟩
  rw [declares] at built
  have second :=
    @binds_bindPortMaps names node (sparing port.ifindex) _ start provisioner.switchId
    port maps first.plain first.distinct (fun direction attr _ => by
      rintro ⟨ofTree, -⟩
      cases direction <;> cases ofTree) bound
  refine ⟨start, outcomes, _, ?_, built, first.trans second, rest⟩
  exact (stands.of_reaches aheadEnd.reaches).of_reaches bound.reaches

end Provisioner

end Turn

/-! ## The tree on both stores -/

def Footprint.ofTree (switchId ifindex : Nat) (left right : Contents) : Footprint where
  switchId := switchId
  port := ifindex
  groups := ∅
  maps := fun _ _ => ∅
  Renames := left.SameProfile right
  fits same := .inr ⟨same.1, same.2.1⟩

/-- The stores look alike on a port, and know the profiles of a tree under
the same names. -/
structure BuildsAlike (listing : InterfaceClass → List Port) (ifindex : Nat)
    (tree : SchedulerTree) (left right : Memory)
    (leftNames rightNames : Names) : Prop where
  leftStands : left.Stands listing
  rightStands : right.Stands listing
  leftPlain : ∀ stored ∈ left.contents.objects, stored.IsPlain
  rightPlain : ∀ stored ∈ right.contents.objects, stored.IsPlain
  leftDistinct : Contents.Distinct left.contents.objects
  rightDistinct : Contents.Distinct right.contents.objects
  parts : List.Forall₂ (StoreObject.BoundAlike (left.contents.SameProfile right.contents))
    (left.contents.part (some ifindex)) (right.contents.part (some ifindex))
  names : ∀ name ∈ tree.profiles, Option.Rel (left.contents.SameProfile right.contents)
    (leftNames.profiles.get? name) (rightNames.profiles.get? name)

namespace Provisioner

variable {provisioner : Provisioner} {listing : InterfaceClass → List Port}
  {left right : Memory} {leftNames rightNames : Names}

/-- The tree is built alike, and in the end the profiles are the same still. -/
theorem applyTree_alike {port : Port} {tree : SchedulerTree}
    (builds : BuildsAlike listing port.ifindex tree left right leftNames rightNames) :
    ∃ outcomes leftAfter rightAfter,
      (provisioner.scheduler.applyTree leftNames port tree).Ends
        Memory.responder left outcomes leftAfter ∧
      (provisioner.scheduler.applyTree rightNames port tree).Ends
        Memory.responder right outcomes rightAfter ∧
      (∀ stored ∈ rightAfter.contents.objects, stored.IsPlain) ∧
      List.Forall₂ (StoreObject.BoundAlike
          (leftAfter.contents.SameProfile rightAfter.contents))
        (leftAfter.contents.part (some port.ifindex))
        (rightAfter.contents.part (some port.ifindex)) := by
  let footprint :=
    Footprint.ofTree provisioner.switchId port.ifindex left.contents right.contents
  have start : footprint.Agrees (StoreObject.BoundAlike footprint.Renames) left right :=
    { leftWithin := ⟨builds.leftPlain, builds.leftDistinct, fun _ => False.elim⟩
      rightWithin := ⟨builds.rightPlain, builds.rightDistinct, fun _ => False.elim⟩
      leftAvailable := builds.leftStands.available
      rightAvailable := builds.rightStands.available
      parts := builds.parts
      rules :=
      fun _ => by rw [builds.leftStands.unruled, builds.rightStands.unruled]; rfl }
  rcases @Footprint.Agrees.applyTree footprint _ left right provisioner.scheduler
    port tree leftNames rightNames rfl rfl start
    (fun groups => (footprint.withGroups groups).twins_boundAlike)
    builds.names with ⟨outcomes, leftAfter, rightAfter, groups, leftEnds, rightEnds, last⟩
  have kept {names : Names} {before after : Memory}
      (plain : ∀ stored ∈ before.contents.objects, stored.IsPlain)
      (distinct : Contents.Distinct before.contents.objects)
      (ends : (provisioner.scheduler.applyTree names port tree).Ends
        Memory.responder before outcomes after) :
      after.contents.ofClass .schedulerProfile =
        before.contents.ofClass .schedulerProfile :=
    (@binds_applyTree provisioner names { tree := some tree }
      (fun _ _ => Set.univ) _ _ _ _ _ plain
      distinct rfl (fun _ => Set.subset_univ _) ends).ofClass rfl
  refine ⟨outcomes, leftAfter, rightAfter, leftEnds, rightEnds, last.rightWithin.plain,
    last.parts.imp ?_⟩
  refine fun _ _ alike => alike.mono fun _ _ same => same.mono ?_ ?_
  · rw [kept builds.leftPlain builds.leftDistinct leftEnds]
    exact List.Subset.refl _
  · rw [kept builds.rightPlain builds.rightDistinct rightEnds]
    exact List.Subset.refl _

end Provisioner

end SwitchQos
