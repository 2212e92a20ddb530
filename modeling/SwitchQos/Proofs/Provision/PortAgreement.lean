import SwitchQos.Proofs.Provision.Confinement

namespace SwitchQos

/-! Provisioning a port on two stores at once. As long as the objects of the port look
alike on both, the same is found and the same is refused, and what is set keeps them
alike. So both runs report the same. -/

namespace Footprint

variable {footprint : Footprint} {groups : Set Nat}
  {object other stored template : StoreObject} {contents : Contents}
  {Twin : StoreObject → StoreObject → Prop} {left right : Memory}

/-! ## The other way round -/

def swap (footprint : Footprint) : Footprint :=
  { footprint with
    Renames := fun left right => footprint.Renames right left
    fits := fun renamed => (footprint.fits renamed).imp Eq.symm And.symm }

theorem Sets.swap (sets : footprint.Sets object other) :
    footprint.swap.Sets other object := by
  cases sets with
  | groupProfile isGroup renamed =>
      exact @Sets.groupProfile footprint.swap _ _ _ isGroup renamed
  | groupChildren isGroup => exact @Sets.groupChildren footprint.swap _ _ _ isGroup
  | queueProfile onPort portFits renamed =>
      exact @Sets.queueProfile footprint.swap _ _ _ _ onPort portFits renamed
  | portMap bound has portFits =>
      exact @Sets.portMap footprint.swap _ _ _ bound has portFits

theorem within_swap_iff : footprint.swap.Within contents ↔ footprint.Within contents :=
  ⟨fun within => ⟨within.plain, within.distinct, within.groups⟩,
    fun within => ⟨within.plain, within.distinct, within.groups⟩⟩

/-! ## Questions -/

theorem Asks.belongs (asks : footprint.Asks template) :
    ∃ objectClass : ObjectClass, (∀ mapType, objectClass ≠ .mapTable mapType) ∧
      template.classPath = objectClass.path ∧
      ∀ stored : StoreObject, stored.IsPlain → stored.classPath = objectClass.path →
        stored.agreesWith template = true → stored.port? = some footprint.port := by
  cases asks with
  | groups built =>
      rcases portSchedulerGroups_eq_ok_iff.mp built with ⟨switchFits, portFits, rfl⟩
      refine ⟨.schedulerGroup, by simp, ObjectClass.classPath_assemble,
        fun stored plain isOf hit => ?_⟩
      rw [StoreObject.port?_eq isOf]
      exact ((Scheduler.agreesWith_portGroups_iff plain switchFits portFits).mp hit).1
  | @queue key _ onPort built =>
      rcases queueObject_eq_ok_iff.mp built with
        ⟨-, portFits, numberFits, code, encoded, rfl⟩
      refine ⟨.queue, by simp, ObjectClass.classPath_assemble,
        fun stored plain isOf hit => ?_⟩
      have isEntity := ((StoreObject.agreesWith_queue_iff plain isOf).mp hit).1
      have isQueue :=
        StoreObject.isQueue_iff.mpr ⟨portFits, numberFits, code, encoded, isEntity⟩
      rw [StoreObject.port?_eq isOf, ← onPort]
      exact isQueue.2.1

/-! ## Agreement -/

/-- Stored objects that look alike to all that may be asked, and still do so when each has
been set to its own. -/
structure Twins (footprint : Footprint)
    (Twin : StoreObject → StoreObject → Prop) : Prop where
  plain : ∀ {left right}, Twin left right → left.IsPlain ∧ right.IsPlain
  classPath : ∀ {left right}, Twin left right → right.classPath = left.classPath
  entity : ∀ {left right}, Twin left right → right.entity? = left.entity?
  shows : ∀ {groups template left right}, (footprint.withGroups groups).Asks template →
    Twin left right → left.classPath = template.classPath → left.ShowsSame right
  agrees : ∀ {groups template left right}, (footprint.withGroups groups).Asks template →
    Twin left right → left.classPath = template.classPath →
      right.agreesWith template = left.agreesWith template
  updated : ∀ {groups object other left right},
    (footprint.withGroups groups).Sets object other →
    Twin left right → Twin (object.updatedBy left) (other.updatedBy right)

structure Agrees (footprint : Footprint) (Twin : StoreObject → StoreObject → Prop)
    (left right : Memory) : Prop where
  leftWithin : footprint.Within left.contents
  rightWithin : footprint.Within right.contents
  leftAvailable : left.unavailable = 0
  rightAvailable : right.unavailable = 0
  parts : List.Forall₂ Twin (left.contents.part (some footprint.port))
    (right.contents.part (some footprint.port))
  rules : ∀ {groups object other}, (footprint.withGroups groups).Sets object other →
    (right.rules.any fun rule => rule.applies ⟨.set, other⟩) =
      left.rules.any fun rule => rule.applies ⟨.set, object⟩

theorem Sets.any_part (sets : footprint.Sets object other)
    (within : footprint.Within contents) :
    ((contents.part (some footprint.port)).any fun stored => object.SameEntity stored) =
      contents.objects.any fun stored => object.SameEntity stored := by
  rw [Contents.part, List.any_filter, Bool.eq_iff_iff]
  simp only [List.any_eq_true, Bool.and_eq_true, decide_eq_true_eq]
  exact exists_congr fun stored => and_congr_right fun member =>
    and_iff_right_of_imp (sets.addresses within member)

theorem Agrees.refusal? (agrees : footprint.Agrees Twin left right)
    (twins : footprint.Twins Twin) (sets : footprint.Sets object other) :
    right.contents.refusal? right.rules other =
      left.contents.refusal? left.rules object := by
  rcases sets.isOf with ⟨objectClass, isOf, otherOf⟩
  have sameInParts : ((right.contents.part (some footprint.port)).any fun stored =>
      other.SameEntity stored) =
      (left.contents.part (some footprint.port)).any fun stored =>
        object.SameEntity stored := by
    have related := agrees.parts
    generalize left.contents.part (some footprint.port) = olds at related
    generalize right.contents.part (some footprint.port) = news at related
    induction related with
    | nil => rfl
    | @cons old new _ _ first _ induction =>
        have sameHit : other.SameEntity new ↔ object.SameEntity old := by
          rw [StoreObject.sameEntity_iff, StoreObject.sameEntity_iff, sets.entity?,
            twins.entity first]
        rw [List.any_cons, List.any_cons, induction, decide_eq_decide.mpr sameHit]
  have sameHits :=
    (sets.swap.any_part (within_swap_iff.mpr agrees.rightWithin)).symm.trans
    (sameInParts.trans (sets.any_part agrees.leftWithin))
  have sameRules := @Agrees.rules _ _ _ _ agrees footprint.groups object other sets
  rw [Contents.refusal?, Contents.refusal?, sameRules, sameHits, isOf, otherOf]

theorem Agrees.query (agrees : footprint.Agrees Twin left right)
    (twins : footprint.Twins Twin) (asks : footprint.Asks template) :
    Replied (List.Forall₂ StoreObject.ShowsSame)
      (left.query template).1 (right.query template).1 ∧
      footprint.Agrees Twin (left.query template).2 (right.query template).2 := by
  rcases asks.belongs with ⟨objectClass, noTable, isOf, belongs⟩
  have answered {memory : Memory} (within : footprint.Within memory.contents)
      (available : memory.unavailable = 0) :
      memory.query template = (.ok (((memory.contents.part (some footprint.port)).filter
        fun stored => stored.agreesWith template &&
        stored.classPath = objectClass.path).map
          (StoreObject.answer objectClass)), memory) := by
    rw [Memory.query_eq template available isOf noTable, Contents.ofClass,
      List.filter_filter, Contents.filter_part fun stored member hit => ?_]
    have both := Bool.and_eq_true_iff.mp hit
    exact belongs stored (within.plain stored member) (of_decide_eq_true both.2) both.1
  rw [answered agrees.leftWithin agrees.leftAvailable,
    answered agrees.rightWithin agrees.rightAvailable]
  have isHit {old : StoreObject} (isOld : old.classPath = objectClass.path) :
      old.classPath = template.classPath := isOld.trans isOf.symm
  refine ⟨.ok (Results.forall₂_map_filter agrees.parts (fun old new twin => ?_)
    fun old new twin hit => ?_), agrees⟩
  · rw [twins.classPath twin]
    by_cases isOld : old.classPath = objectClass.path
    · rw [@Twins.agrees _ _ twins footprint.groups template old new asks
        twin (isHit isOld)]
    · simp [isOld]
  · have isOld := of_decide_eq_true (Bool.and_eq_true_iff.mp hit).2
    have shows :=
      @Twins.shows _ _ twins footprint.groups template old new asks twin (isHit isOld)
    rcases twins.plain twin with ⟨wasPlain, plain⟩
    refine ⟨shows.1, fun other otherOf attr isRead => ?_⟩
    have same := shows.2 other otherOf attr isRead
    rwa [plain.lookup, wasPlain.lookup, ← StoreObject.lookup_answer objectClass,
      ← StoreObject.lookup_answer objectClass] at same

theorem Agrees.set (agrees : footprint.Agrees Twin left right)
    (twins : footprint.Twins Twin) (sets : footprint.Sets object other) :
    Replied (fun _ _ => True) (left.transact [⟨.set, object⟩]).1
        (right.transact [⟨.set, other⟩]).1 ∧
      footprint.Agrees Twin (left.transact [⟨.set, object⟩]).2
        (right.transact [⟨.set, other⟩]).2 := by
  rcases sets.isOf with ⟨objectClass, isOf, otherOf⟩
  have decided := agrees.refusal? twins sets
  rcases Memory.transact_set_cases agrees.leftWithin.distinct isOf with
    ⟨reason, refused, leftEq⟩ | ⟨accepted, answers, leftAfter, leftEq,
      leftRules, leftAvailable, leftContents⟩
  · rw [refused] at decided
    rw [leftEq, Memory.transact_of_refusal otherOf decided]
    exact ⟨.error _, agrees⟩
  · rw [accepted] at decided
    rcases Memory.transact_of_accepted agrees.rightWithin.distinct otherOf decided with
      ⟨others, rightAfter, rightEq, rightRules, rightAvailable, rightContents⟩
    have rightWithin := within_swap_iff.mpr agrees.rightWithin
    rw [leftEq, rightEq]
    refine ⟨.ok trivial, ?_, ?_, leftAvailable.trans agrees.leftAvailable,
      rightAvailable.trans agrees.rightAvailable, ?_, ?_⟩
    · rw [leftContents]
      exact sets.within_rewritten agrees.leftWithin
    · rw [rightContents]
      exact within_swap_iff.mp (sets.swap.within_rewritten rightWithin)
    · rw [leftContents, rightContents,
        Contents.part_rewritten fun _ => sets.port?_updatedBy agrees.leftWithin,
        Contents.part_rewritten fun _ => sets.swap.port?_updatedBy rightWithin,
        List.forall₂_map_left_iff, List.forall₂_map_right_iff]
      exact agrees.parts.imp fun old new twin =>
        @Twins.updated _ _ twins footprint.groups _ _ _ _ sets twin
    · intro groups object other sets
      rw [leftRules, rightRules]
      exact agrees.rules sets

theorem Twins.simulates (twins : footprint.Twins Twin) :
    footprint.conduct.Simulates Memory.responder Memory.responder
      (footprint.Agrees Twin) :=
  ⟨fun asks agrees => agrees.query twins asks, fun sets agrees => agrees.set twins sets⟩

/-! ## Trees -/

section Trees

variable {scheduler : Scheduler} {port : Port} {tree : SchedulerTree}
  {leftNames rightNames : Names} (onSwitch : footprint.switchId = scheduler.switchId)
  (onPort : footprint.port = port.ifindex)

include onSwitch onPort

theorem Agrees.discovered (agrees : footprint.Agrees Twin left right)
    (twins : footprint.Twins Twin) :
    scheduler.discovered right.contents port =
      scheduler.discovered left.contents port := by
  rcases (parallel_readGroups onSwitch onPort).ends twins.simulates agrees with
    ⟨found, _, _, leftEnds, rightEnds, -⟩
  have leftFinds := @Scheduler.readGroups_discovers scheduler port _ agrees.leftAvailable
    agrees.leftWithin.plain
  have rightFinds :=
    @Scheduler.readGroups_discovers scheduler port _ agrees.rightAvailable
    agrees.rightWithin.plain
  exact (rightEnds.unique rightFinds).1.trans (leftEnds.unique leftFinds).1.symm

/-- A tree is built alike on both stores, if the names of its profiles correspond. -/
theorem Agrees.applyTree (agrees : footprint.Agrees Twin left right)
    (twins : ∀ groups, (footprint.withGroups groups).Twins Twin)
    (renamed : ∀ name ∈ tree.profiles, Option.Rel footprint.Renames
      (leftNames.profiles.get? name) (rightNames.profiles.get? name)) :
    ∃ outcomes leftAfter rightAfter groups,
      (scheduler.applyTree leftNames port tree).Ends Memory.responder left
        outcomes leftAfter ∧
      (scheduler.applyTree rightNames port tree).Ends Memory.responder right
        outcomes rightAfter ∧
      (footprint.withGroups groups).Agrees Twin leftAfter rightAfter := by
  have same := agrees.discovered onSwitch onPort (twins footprint.groups)
  have leftFinds := @Scheduler.readGroups_discovers scheduler port _ agrees.leftAvailable
    agrees.leftWithin.plain
  have rightFinds :=
    @Scheduler.readGroups_discovers scheduler port _ agrees.rightAvailable
    agrees.rightWithin.plain
  rw [same] at rightFinds
  have rightWithin := @Within.discovered _ _ scheduler port onPort agrees.rightWithin
  rw [same] at rightWithin
  let groups := listed (scheduler.discovered left.contents port)
  have found : (footprint.withGroups groups).Agrees Twin left right :=
    { agrees with leftWithin := agrees.leftWithin.discovered onPort, rightWithin }
  have bindings :=
    @parallel_treeBindings (footprint.withGroups groups) scheduler port leftNames
    rightNames tree _ onSwitch onPort
    (fun index isIndex level ordinal id isListed =>
      ⟨index, level, ordinal, isIndex, isListed⟩)
    renamed
  rcases bindings.ends (twins groups).simulates found with
    ⟨outcomes, leftAfter, rightAfter, leftEnds, rightEnds, last⟩
  refine ⟨outcomes, leftAfter, rightAfter, groups, ?_, ?_, last⟩
  · rw [Scheduler.applyTree_eq]
    exact leftFinds.bind leftEnds
  · rw [Scheduler.applyTree_eq]
    exact rightFinds.bind rightEnds

end Trees

end Footprint

end SwitchQos
