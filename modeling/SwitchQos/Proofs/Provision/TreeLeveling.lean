import SwitchQos.Proofs.Provision.LogAgreement
import SwitchQos.Proofs.Store.TreeIds

namespace SwitchQos

/-! The levels of a tree in a store. What is declared right after a level is taken
for the next level, whatever its number, so children lie deeper as far as the levels
are declared so. -/

open Exchange

/-! ## Levels -/

/-- Where a group of a level declares children, the level that follows is a
leaf or is deeper. -/
def SchedulerTree.Leveled (tree : SchedulerTree) : Prop :=
  ∀ level ∈ tree.levels, level.leaf = false →
    (∃ group ∈ level.groups, ∃ children ∈ group.children, children ≠ []) →
      ∀ next ∈ tree.next? level.level, next.leaf = true ∨ level.level < next.level

instance (tree : SchedulerTree) : Decidable tree.Leveled :=
  inferInstanceAs (Decidable (∀ level ∈ tree.levels, _ → _ → _))

/-- A tree that declares its levels in order, each once, is leveled. -/
theorem SchedulerTree.leveled_of_ascending {tree : SchedulerTree}
    (ascending : tree.levels.Pairwise fun earlier later => earlier.level < later.level) :
    tree.Leveled := by
  rcases tree with ⟨levels⟩
  rintro level - - - next isNext
  refine .inr ?_
  dsimp only [Option.mem_def, next?] at ascending isNext
  induction levels with
  | nil => cases isNext
  | cons first rest induction =>
      rw [List.pairwise_cons] at ascending
      by_cases here : first.level = level.level
      · rw [List.dropWhile_cons_of_neg (by simpa using here)] at isNext
        exact here ▸ ascending.1 next (List.mem_of_mem_head? isNext)
      · rw [List.dropWhile_cons_of_pos (by simpa using here)] at isNext
        exact induction ascending.2 isNext

def SchedulerTree.Precedes (tree : SchedulerTree) (level next : SchedulerLevel) : Prop :=
  ∃ earlier later, tree.levels = earlier ++ level :: next :: later

theorem SchedulerTree.precedes_of_next? {tree : SchedulerTree}
    {level next : SchedulerLevel} (apart : (tree.levels.map SchedulerLevel.level).Nodup)
    (isLevel : level ∈ tree.levels) (isNext : tree.next? level.level = some next) :
    tree.Precedes level next := by
  rcases tree with ⟨levels⟩
  rcases List.append_of_mem isLevel with ⟨earlier, rest, rfl⟩
  have before : ∀ other ∈ earlier, decide (other.level ≠ level.level) = true := by
    rw [List.map_append, List.map_cons, List.nodup_append] at apart
    intro other member
    exact decide_eq_true (apart.2.2 _ (List.mem_map_of_mem member) _ List.mem_cons_self)
  rw [next?, List.dropWhile_append_of_pos before, List.dropWhile_cons_of_neg (by simp),
    List.drop_one, List.tail_cons] at isNext
  rcases List.head?_eq_some_iff.mp isNext with ⟨later, rfl⟩
  exact ⟨earlier, later, rfl⟩

def Contents.HasGroup (contents : Contents) (port level id : Nat) : Prop :=
  ∃ stored ∈ contents.objects, stored.IsGroup port level id

def SchedulerLevel.HasQueue (level : SchedulerLevel) (contents : Contents)
    (port id : Nat) : Prop :=
  ∃ queue ∈ level.queues, ∃ stored ∈ contents.objects,
    stored.IsQueue ⟨port, queue.queueType, queue.number⟩ ∧
      ObjectClass.queue.number? "id" stored = some id

namespace Operation

/-- If the operation gives children to a group, it is one of the port, and they are
children for the level that it is on. -/
def GivesChildren (contents : Contents) (port : Nat) (Child : Nat → Nat → Prop)
    (operation : Operation) : Prop :=
  ∀ value, operation.object.get?
    (ObjectClass.schedulerGroup.pathOf "child-list") = some value →
    operation.object.classPath = ObjectClass.schedulerGroup.path ∧
    ∃ (group : Nat) (ids : List Nat),
      value = .list (ids.map fun id : Nat => Storage.uint64.write id) ∧
      operation.object.get? (ObjectClass.schedulerGroup.pathOf "id") =
        some (Storage.uint64.word group) ∧
      (∃ level, contents.HasGroup port level group) ∧
      ∀ onPort level, contents.HasGroup onPort level group → ∀ id ∈ ids, Child level id

/-- The children are queues declared in a leaf or groups of the port on a deeper level,
and none of them is a group on the level or above. -/
def KeepsLevels (tree : SchedulerTree) (contents : Contents) (port : Nat) :
    Operation → Prop :=
  GivesChildren contents port fun level id =>
    ((∃ leaf ∈ tree.levels, leaf.leaf = true ∧ leaf.HasQueue contents port id) ∨
      ∃ deeper > level, contents.HasGroup port deeper id) ∧
    ∀ other deeper, contents.HasGroup other deeper id → level < deeper

/-- The children are on the level that is declared right after: queues declared there if
it is a leaf, else groups of the port. -/
def FollowsOrder (tree : SchedulerTree) (contents : Contents) (port : Nat) :
    Operation → Prop :=
  GivesChildren contents port fun number id =>
    ∃ level next, tree.Precedes level next ∧ level.level = number ∧
      if next.leaf then next.HasQueue contents port id
        else contents.HasGroup port next.level id

end Operation

/-! ## Ids -/

theorem SchedulerLevel.HasQueue.lt {level : SchedulerLevel}
    {contents : Contents} {port id : Nat} (has : level.HasQueue contents port id) :
    id < countOfBits 64 := by
  have found : ObjectClass.queue.spec? "id" = some (.scalar .uint64) := rfl
  rcases has with ⟨_, -, _, -, -, hasId⟩
  exact ((ObjectClass.number?_eq_some_iff found ⟨rfl, rfl⟩).mp hasId).1

namespace Contents

variable {contents : Contents} {port other level otherLevel id : Nat}

theorem HasGroup.exists_treeId (has : contents.HasGroup port level id) :
    ∃ stored ∈ contents.objects, stored.treeId? = some id ∧
    stored.IsGroup port level id := by
  rcases has with ⟨stored, member, isGroup⟩
  exact ⟨stored, member, (StoreObject.treeId?_eq isGroup.1).trans isGroup.2.2.2, isGroup⟩

theorem HasGroup.lt (has : contents.HasGroup port level id) : id < countOfBits 64 := by
  have found : ObjectClass.schedulerGroup.spec? "id" = some (.scalar .uint64) := rfl
  rcases has with ⟨_, -, isGroup⟩
  exact ((ObjectClass.number?_eq_some_iff found ⟨rfl, rfl⟩).mp isGroup.2.2.2).1

theorem HasGroup.unique (apart : contents.treeIds.Nodup)
    (has : contents.HasGroup port level id)
    (hasToo : contents.HasGroup other otherLevel id) : other = port ∧
    otherLevel = level := by
  rcases has.exists_treeId with ⟨left, isLeft, leftId, isGroup⟩
  rcases hasToo.exists_treeId with ⟨right, isRight, rightId, isGroupToo⟩
  cases unique_of_treeIds apart isLeft isRight leftId rightId
  exact ⟨Option.some.inj (isGroupToo.2.1.symm.trans isGroup.2.1),
    Option.some.inj (isGroupToo.2.2.1.symm.trans isGroup.2.2.1)⟩

theorem HasGroup.not_hasQueue (apart : contents.treeIds.Nodup)
    (has : contents.HasGroup port level id) (leaf : SchedulerLevel) :
    ¬leaf.HasQueue contents other id := by
  rintro ⟨_, -, stored, member, ⟨isOf, -⟩, hasId⟩
  rcases has.exists_treeId with ⟨group, isStored, groupId, isGroup⟩
  have queueId : stored.treeId? = some id := (StoreObject.treeId?_eq isOf).trans hasId
  cases unique_of_treeIds apart isStored member groupId queueId
  cases ObjectClass.path_injective (isGroup.1.symm.trans isOf)

end Contents

/-! ## Errands -/

namespace Scheduler

variable {scheduler : Scheduler} {names : Names} {start : Contents} {port : Port}
  {tree : SchedulerTree} {level : SchedulerLevel} {errand : Errand}
  {operation : Operation} {value : StoreValue}

theorem children_of_treeErrands {found : Except ProvisionError GroupIndex}
    (leads : errand.plan.Leads (.applied operation))
    (written : operation.object.get?
      (ObjectClass.schedulerGroup.pathOf "child-list") = some value)
    (member : errand ∈ scheduler.treeErrands names start port tree found) :
    ∃ index, found = .ok index ∧ ∃ level ∈ tree.levels, level.leaf = false ∧
      ∃ group ∈ level.groups, ∃ children ∈ group.children, ∃ id ids,
        index.get? level.level group.number = some id ∧
        List.Forall₂ (tree.HasChild start port.ifindex index level.level) children ids ∧
        operation = ⟨.set, scheduler.groupChildren id ids⟩ := by
  rcases applies_of_treeErrands leads member with ⟨object, rfl, applies⟩
  generalize errand.target = target at applies
  cases applies with
  | groupChildren isLevel noLeaf isGroup isFound discovered declared resolved =>
      exact ⟨_, isFound, _, isLevel, noLeaf, _, isGroup, _, declared, _, _,
        discovered, resolved, rfl⟩
  | groupProfile =>
      rw [groupProfile, get?_groupObject (by decide) (by simp; decide)] at written
      cases written
  | queueProfile =>
      rcases ObjectClass.mem_of_get?_assemble written with ⟨row, isRow, same, -⟩
      refine absurd same ?_
      clear same
      revert row
      simp only [QueueKey.attrs, List.forall_mem_cons]
      decide

/-- Each child that is written has been resolved for the level of the group, in a store
where each id has a single owner. -/
theorem givesChildren_of_settles {found : Except ProvisionError GroupIndex}
    {entry : Entry} {Child : Nat → Nat → Prop} (apart : start.treeIds.Nodup)
    (stored : ∀ index, found = .ok index → index.StoredIn start port.ifindex)
    (each : ∀ index, index.StoredIn start port.ifindex →
      ∀ level ∈ tree.levels, level.leaf = false →
      ∀ group ∈ level.groups, ∀ children ∈ group.children, ∀ ordinal ∈ children, ∀ id,
        tree.HasChild start port.ifindex index level.level ordinal id →
        Child level.level id)
    (member : errand ∈ scheduler.treeErrands names start port tree found)
    (settles : errand.Settles entry) (made : operation ∈ entry.operations) :
    operation.GivesChildren start port.ifindex Child := by
  have leads := Entry.applied_of_mem_operations made ▸ settles.leads
  intro value written
  rcases children_of_treeErrands leads written member with
    ⟨index, isFound, level, isLevel, noLeaf, group, isGroup, children, declared, id,
      ids, discovered, resolved, rfl⟩
  have inStore := stored index isFound
  have own : start.HasGroup port.ifindex level.level id := inStore _ _ _ discovered
  have hasAll : ∀ row ∈ [("child_count", Storage.uint32.word ids.length),
      ("child-list", StoreValue.list (ids.map fun id : Nat => Storage.uint64.write id))],
      ObjectClass.schedulerGroup.Has row.1 := by
    simp
    decide
  rw [groupChildren, get?_groupObject (by decide) hasAll] at written
  refine ⟨ObjectClass.classPath_assemble, id, ids, (Option.some.inj written).symm,
    get?_groupObject (by decide) hasAll, ⟨_, own⟩,
    fun onPort other has child isChild => ?_⟩
  rcases own.unique apart has with ⟨-, rfl⟩
  rcases Results.exists_left resolved isChild with ⟨ordinal, isOrdinal, located⟩
  exact each index inStore level isLevel noLeaf group isGroup children declared
    ordinal isOrdinal child located

theorem exists_next_of_hasChild {index : GroupIndex} {number ordinal id : Nat}
    (inStore : index.StoredIn start port.ifindex)
    (located : tree.HasChild start port.ifindex index number ordinal id) :
    ∃ next, tree.next? number = some next ∧
      if next.leaf then next.HasQueue start port.ifindex id
      else start.HasGroup port.ifindex next.level id := by
  rcases located with ⟨next, isNext, located⟩
  refine ⟨next, isNext, ?_⟩
  split at located
  · rename_i isLeaf
    rcases located with ⟨queue, isQueue, found, isStored, isOne, hasId⟩
    rw [if_pos isLeaf]
    exact ⟨queue, List.mem_of_getElem? isQueue, found, isStored, isOne, hasId⟩
  · rename_i noLeaf
    rw [if_neg noLeaf]
    exact inStore _ _ _ located

theorem not_keepsLevels_of_hasGroup {onPort level group other child : Nat}
    (above : other ≤ level) (has : start.HasGroup onPort level group)
    (hasChild : start.HasGroup onPort other child) :
    ¬Operation.KeepsLevels tree start onPort
      ⟨.set, scheduler.groupChildren group [child]⟩ := by
  have hasAll : ∀ row ∈ [("child_count", Storage.uint32.word [child].length),
      ("child-list", StoreValue.list
        ([child].map fun id : Nat => Storage.uint64.write id))],
      ObjectClass.schedulerGroup.Has row.1 := by
    simp
    decide
  intro keeps
  rcases keeps _ (get?_groupObject (by decide) hasAll) with
    ⟨-, parent, ids, same, hasId, ⟨_, hasParent⟩, deeper⟩
  have sameGroup : Storage.uint64.word group = Storage.uint64.word parent :=
    Option.some.inj ((get?_groupObject (by decide) hasAll).symm.trans hasId)
  cases @Storage.word_injective .uint64 rfl _ _ has.lt hasParent.lt sameGroup
  rcases List.map_eq_singleton_iff.mp (StoreValue.list.inj same).symm with
    ⟨id, rfl, sameId⟩
  rcases deeper onPort level has id List.mem_cons_self with ⟨listed, below⟩
  have fits : id < countOfBits 64 := by
    rcases listed with ⟨_, -, -, isQueue⟩ | ⟨_, -, isGroup⟩
    · exact isQueue.lt
    · exact isGroup.lt
  cases @Storage.word_injective .uint64 rfl _ _ fits hasChild.lt
    (congrArg StoreValue.bytes sameId)
  exact absurd (below onPort other hasChild) (Nat.not_lt.mpr above)

/-- On a store that was seeded from a topology, whatever it refuses, a leveled tree keeps
the groups leveled. If no level is declared twice, leveled or not, the children of a level
are those of the level that is declared right after. -/
theorem applyTree_keeps_levels {switchId : Nat} {topology : Topology}
    {seeded memory : Memory} (built : Memory.ofTopology switchId topology = .ok seeded)
    (same : memory.contents = seeded.contents) :
    ∃ outcomes after operations,
      (scheduler.applyTree names port tree).Ends Memory.responder memory outcomes after ∧
      after.log = memory.log ++ operations ∧
      ∀ operation ∈ operations,
        (tree.Leveled → operation.KeepsLevels tree memory.contents port.ifindex) ∧
        ((tree.levels.map SchedulerLevel.level).Nodup →
          operation.FollowsOrder tree memory.contents port.ifindex) := by
  have handsOut := Memory.handsOut_of_ofTopology built
  have plain : ∀ stored ∈ memory.contents.objects, stored.IsPlain := same ▸ handsOut.plain
  have apart : memory.contents.treeIds.Nodup := same ▸ handsOut.apart
  rcases (@Footprint.parallel_applyTree names {} port scheduler tree).exists_ends
    Memory.responder memory with ⟨outcomes, after, ends⟩
  rcases exists_applyTree_accounts (Contents.descendsFrom_self plain)
      (includes_self _ _) ends with
    ⟨found, ledger, -, stored, accounts, -, -⟩
  refine ⟨outcomes, after, _, ends, accounts.log, fun operation member => ?_⟩
  rcases List.mem_flatMap.mp member with ⟨entry, isEntry, made⟩
  rcases Results.exists_left accounts.settled isEntry with ⟨errand, isErrand, settles⟩
  refine ⟨fun leveled => ?_, fun distinct => ?_⟩
  · refine givesChildren_of_settles apart stored ?_ isErrand settles made
    intro index inStore level isLevel noLeaf group isGroup children declared
      ordinal isOrdinal id located
    rcases exists_next_of_hasChild inStore located with ⟨next, isNext, isChild⟩
    have below := leveled level isLevel noLeaf ⟨group, isGroup, children, declared,
      List.ne_nil_of_mem isOrdinal⟩ next isNext
    -- An id has one owner, so a child that is a queue is no group, and a
    -- group has one level.
    split at isChild
    · rename_i isLeaf
      exact ⟨.inl ⟨next, SchedulerTree.mem_levels_of_next? isNext, isLeaf, isChild⟩,
        fun _ _ isGroup => absurd isChild (isGroup.not_hasQueue apart next)⟩
    · rename_i isInterior
      have deeper := below.resolve_left isInterior
      refine ⟨.inr ⟨next.level, deeper, isChild⟩, fun _ _ isGroup => ?_⟩
      rcases isChild.unique apart isGroup with ⟨-, rfl⟩
      exact deeper
  · refine givesChildren_of_settles apart stored ?_ isErrand settles made
    intro index inStore level isLevel _ _ _ _ _ _ _ id located
    rcases exists_next_of_hasChild inStore located with ⟨next, isNext, isChild⟩
    exact ⟨level, next, SchedulerTree.precedes_of_next? distinct isLevel
      isNext, rfl, isChild⟩

def threeGroups : TopologyPort :=
  { name := "Ethernet0", ifindex := 1, schedulerGroups := [2, 1] }

def switchWithGroups : Memory :=
  (Memory.ofTopology 0 ⟨[threeGroups]⟩).toOption.getD (.new 0)

theorem applyTree_keeps_levels_ascending :
    let tree : SchedulerTree :=
  ⟨[{ level := 0, groups := [{ number := 1, children := some [0] }] },
      { level := 1, groups := [{ number := 0 }] }]⟩
    Memory.ofTopology 0 ⟨[threeGroups]⟩ = .ok switchWithGroups ∧ tree.Leveled ∧
      ∃ outcomes after operations,
        (applyTree ⟨0⟩ {} threeGroups.listed tree).Ends Memory.responder
          switchWithGroups outcomes after ∧
        after.log = switchWithGroups.log ++ operations ∧ after.log.length = 1 ∧
        ∀ operation ∈ operations, operation.KeepsLevels tree switchWithGroups.contents 1 ∧
          operation.FollowsOrder tree switchWithGroups.contents 1 := by
  intro tree
  have built : Memory.ofTopology 0 ⟨[threeGroups]⟩ = .ok switchWithGroups :=
    @Results.eq_ok_getD _ _ (Memory.ofTopology 0 ⟨[threeGroups]⟩)
      (by decide +kernel) (.new 0)
  have leveled : tree.Leveled := by decide
  have counted : ((applyTree ⟨0⟩ {} threeGroups.listed tree).run Memory.responder
      switchWithGroups).2.log.length = 1 := by
    decide +kernel
  rcases @applyTree_keeps_levels ⟨0⟩ {} threeGroups.listed tree 0 ⟨[threeGroups]⟩ _
      _ built rfl with
    ⟨outcomes, after, operations, ends, log, keeps⟩
  rw [show (applyTree ⟨0⟩ {} threeGroups.listed tree).run Memory.responder
    switchWithGroups = (some outcomes, after) from ends] at counted
  exact ⟨built, leveled, outcomes, after, operations, ends, log, counted,
      fun operation member =>
    ⟨(keeps operation member).1 leveled, (keeps operation member).2 (by decide)⟩⟩

def descendingLevels : SchedulerTree :=
  ⟨[{ level := 1, groups := [{ number := 0, children := some [0] }] },
    { level := 0, groups := [{ number := 0 }] }]⟩

def repeatedLevel : SchedulerTree :=
  ⟨[{ level := 0, groups := [{ number := 0 }] },
    { level := 0, platformMayOmit := true,
      groups := [{ number := 1, children := some [0] }] },
    { level := 1, groups := [{ number := 0 }] }]⟩

def LiftsChild (tree : SchedulerTree) (group child : Nat) : Prop :=
  (Config.mk [.ports .frontPanel { tree := some tree }]).fault? = none ∧
    ∃ outcomes after,
      (applyTree ⟨0⟩ {} threeGroups.listed tree).Ends Memory.responder
        switchWithGroups outcomes after ∧
      after.log = [⟨.set, groupChildren ⟨0⟩ group [child]⟩] ∧
      ¬Operation.KeepsLevels tree switchWithGroups.contents 1
        ⟨.set, groupChildren ⟨0⟩ group [child]⟩

theorem liftsChild_of_run {tree : SchedulerTree} {level group other child : Nat}
    (accepted : (Config.mk [.ports .frontPanel { tree := some tree }]).fault? = none)
    (ran : ((applyTree ⟨0⟩ {} threeGroups.listed tree).run Memory.responder
        switchWithGroups).1.isSome ∧
      ((applyTree ⟨0⟩ {} threeGroups.listed tree).run Memory.responder
        switchWithGroups).2.log = [⟨.set, groupChildren ⟨0⟩ group [child]⟩])
    (above : other ≤ level) (has : switchWithGroups.contents.HasGroup 1 level group)
    (hasChild : switchWithGroups.contents.HasGroup 1 other child) :
    LiftsChild tree group child := by
  rcases isRun : (applyTree ⟨0⟩ {} threeGroups.listed tree).run Memory.responder
    switchWithGroups with ⟨_ | outcomes, after⟩
  · rw [isRun] at ran
    cases ran.1
  · rw [isRun] at ran
    exact ⟨accepted, outcomes, after, isRun, ran.2,
      not_keepsLevels_of_hasGroup above has hasChild⟩

/-- A group of the first level becomes the child of a deeper one, and of another one
of its own level. -/
theorem applyTree_keeps_levels_refuted :
    Memory.ofTopology 0 ⟨[threeGroups]⟩ = .ok switchWithGroups ∧
      LiftsChild descendingLevels 4098 4096 ∧ LiftsChild repeatedLevel 4097 4096 := by
  have built : Memory.ofTopology 0 ⟨[threeGroups]⟩ = .ok switchWithGroups :=
    @Results.eq_ok_getD _ _ (Memory.ofTopology 0 ⟨[threeGroups]⟩)
      (by decide +kernel) (.new 0)
  have groups : switchWithGroups.contents.HasGroup 1 0 4096 ∧
      switchWithGroups.contents.HasGroup 1 0 4097 ∧
      switchWithGroups.contents.HasGroup 1 1 4098 := by
    unfold Contents.HasGroup
    decide +kernel
  have ran : ∀ made ∈ [(descendingLevels, 4098), (repeatedLevel, 4097)],
      ((applyTree ⟨0⟩ {} threeGroups.listed made.1).run Memory.responder
          switchWithGroups).1.isSome ∧
        ((applyTree ⟨0⟩ {} threeGroups.listed made.1).run Memory.responder
          switchWithGroups).2.log = [⟨.set, groupChildren ⟨0⟩ made.2 [4096]⟩] := by
    decide +kernel
  simp only [List.forall_mem_cons] at ran
  exact ⟨built, liftsChild_of_run rfl ran.1 (Nat.zero_le 1) groups.2.2 groups.1,
    liftsChild_of_run rfl ran.2.1 (Nat.le_refl 0) groups.2.1 groups.1⟩

end Scheduler

end SwitchQos
