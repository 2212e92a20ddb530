import SwitchQos.Proofs.Provision.GroupDiscovery

namespace SwitchQos

/-! What is found out about the groups of a port depends on nothing but the set of groups
that the store reports. Ids are put in their place one after the other, so every level
lists the reported ids in ascending order, each once; and as no level is listed without an
id, the lists determine the index. -/

/-! ## Ascending lists -/

private theorem mem_take_iff_lt {ids : List Nat} (ascending : ids.Pairwise (· < ·))
    {position : Nat} (inside : position < ids.length) {other : Nat} :
    other ∈ ids.take position ↔ other ∈ ids ∧ other < ids[position] := by
  have lower := List.pairwise_iff_getElem.mp ascending
  rw [List.mem_take_iff_getElem, List.mem_iff_getElem]
  constructor
  · rintro ⟨place, before, rfl⟩
    exact ⟨⟨place, by omega, rfl⟩, lower place position (by omega) inside (by omega)⟩
  · rintro ⟨⟨place, inList, rfl⟩, less⟩
    refine ⟨place, ?_, rfl⟩
    by_contra notBefore
    rcases Nat.lt_or_eq_of_le (by omega : position ≤ place) with after | same
    · exact Nat.lt_asymm less (lower position place inside inList after)
    · subst same
      exact Nat.lt_irrefl _ less

private theorem getElem?_eq_some_iff_smaller {ids : List Nat}
    (ascending : ids.Pairwise (· < ·)) {ordinal id : Nat} :
    ids[ordinal]? = some id ↔
      id ∈ ids ∧ ∃ smaller : List Nat, smaller.Nodup ∧
        (∀ other, other ∈ smaller ↔ other ∈ ids ∧ other < id) ∧
        smaller.length = ordinal := by
  have distinct : ids.Nodup := ascending.imp fun less => Nat.ne_of_lt less
  have distinctFront (position : Nat) : (ids.take position).Nodup :=
    distinct.sublist (List.take_sublist position ids)
  constructor
  · intro found
    rcases List.getElem?_eq_some_iff.mp found with ⟨inside, rfl⟩
    refine ⟨List.getElem_mem inside, ids.take ordinal, distinctFront ordinal,
      fun other => mem_take_iff_lt ascending inside, ?_⟩
    rw [List.length_take, Nat.min_eq_left (Nat.le_of_lt inside)]
  · rintro ⟨member, smaller, distinctSmaller, members, rfl⟩
    rcases List.mem_iff_getElem.mp member with ⟨position, inside, rfl⟩
    have same : smaller.Perm (ids.take position) := by
      rw [List.perm_ext_iff_of_nodup distinctSmaller (distinctFront position)]
      exact fun other => (members other).trans (mem_take_iff_lt ascending inside).symm
    rw [same.length_eq, List.length_take, Nat.min_eq_left (Nat.le_of_lt inside)]
    exact List.getElem?_eq_getElem inside

namespace GroupIndex

variable {index left right : GroupIndex} {level id : Nat}

structure Tidy (index : GroupIndex) : Prop where
  ordered : index.levels.Ordered
  inhabited : ∀ level, index.levels.get? level ≠ some []

theorem tidy_empty : ({} : GroupIndex).Tidy :=
  ⟨.nil, fun _ impossible => by cases impossible⟩

theorem insertId_ne_nil {ids : List Nat} : insertId id ids ≠ [] := by
  intro empty
  have member : id ∈ insertId id ids := mem_insertId.mpr (.inl rfl)
  rw [empty] at member
  cases member

theorem Tidy.insert (tidy : index.Tidy) (level id : Nat) :
    (index.insert level id).Tidy := by
  refine ⟨tidy.ordered.insert level _, fun other => ?_⟩
  rw [GroupIndex.insert, Directory.get?_insert]
  split
  · exact fun empty => insertId_ne_nil (Option.some.inj empty)
  · exact tidy.inhabited other

theorem Tidy.foldl_insert (tidy : index.Tidy) (positions : List (Nat × Nat)) :
    (positions.foldl (fun index position => index.insert position.1 position.2)
      index).Tidy := by
  induction positions generalizing index with
  | nil => exact tidy
  | cons position rest induction => exact induction (tidy.insert position.1 position.2)

theorem Tidy.get?_eq (tidy : index.Tidy) (level : Nat) :
    index.levels.get? level = if index.level level = [] then none
      else some (index.level level) := by
  rw [GroupIndex.level]
  cases kept : index.levels.get? level with
  | none => rfl
  | some ids =>
      have present : ids ≠ [] := by
        rintro rfl
        exact tidy.inhabited level kept
      rw [Option.getD_some, if_neg present]

/-- Tidy indices that list the same ids on every level are the same. -/
theorem Tidy.ext (leftTidy : left.Tidy) (rightTidy : right.Tidy)
    (same : ∀ level, left.level level = right.level level) : left = right := by
  have levels : left.levels = right.levels := by
    apply leftTidy.ordered.ext rightTidy.ordered
    intro level
    rw [leftTidy.get?_eq, rightTidy.get?_eq, same]
  exact congrArg GroupIndex.mk levels

def ofPositions (positions : List (Nat × Nat)) : GroupIndex :=
  positions.foldl (fun index position => index.insert position.1 position.2) {}

variable {positions : List (Nat × Nat)}

theorem tidy_ofPositions : (ofPositions positions).Tidy :=
  tidy_empty.foldl_insert positions

theorem pairwise_level_ofPositions :
    ((ofPositions positions).level level).Pairwise (· < ·) :=
  (level_foldl_insert positions .nil).1

theorem mem_level_ofPositions : id ∈ (ofPositions positions).level level ↔
    (level, id) ∈ positions :=
  ((level_foldl_insert positions .nil).2 id).trans (or_iff_right List.not_mem_nil)

/-- The order in which groups are found makes no difference, nor does finding one
again. -/
theorem ofPositions_congr {others : List (Nat × Nat)}
    (same : ∀ position, position ∈ others ↔ position ∈ positions) :
    ofPositions others = ofPositions positions := by
  refine tidy_ofPositions.ext tidy_ofPositions fun level => ?_
  apply List.Pairwise.eq_of_mem_iff pairwise_level_ofPositions pairwise_level_ofPositions
  intro id
  rw [mem_level_ofPositions, mem_level_ofPositions, same]

end GroupIndex

/-! ## Replies -/

def StoreObject.Reports (level id : Nat) (object : StoreObject) : Prop :=
  ∃ record value, Record.wrap object = .ok record ∧
    record.attr "level" = .ok (some value) ∧ value.asNat? = some level ∧
    record.id = .ok (some id)

namespace Scheduler

open Exchange

variable {scheduler : Scheduler} {port : Port} {portName : String}
  {reply otherReply : List StoreObject}

theorem groupPosition_eq_ok_iff {object : StoreObject} {level id : Nat} :
    groupPosition portName object = .ok (level, id) ↔ object.Reports level id := by
  simp only [groupPosition, Results.bind_eq_ok_iff, Results.mapError_eq_ok_iff]
  constructor
  · rintro ⟨record, wrapped, shown, read, located⟩
    split at located
    · cases located
    · rename_i found
      rcases Option.bind_eq_some_iff.mp found with ⟨value, rfl, number⟩
      rcases Results.bind_eq_ok_iff.mp located with ⟨given, identified, same⟩
      split at same
      · cases same
      · cases same
        exact ⟨record, value, wrapped, read, number,
          Results.mapError_eq_ok_iff.mp identified⟩
  · rintro ⟨record, value, wrapped, read, number, identified⟩
    refine ⟨record, wrapped, some value, read, ?_⟩
    rw [Option.bind_some, number, identified]
    rfl

def replyIndex (portName : String) (reply : List StoreObject) :
    Except ProvisionError GroupIndex :=
  (reply.mapM (groupPosition portName)).map GroupIndex.ofPositions

theorem readGroups_ends_reply {State : Type} {responder : Responder State}
    {template : Authored}
    (asks : portSchedulerGroups scheduler.switchId port.ifindex = .ok template)
    {before after : State}
    (answers : responder.query template.data before = (.ok reply, after)) :
    (scheduler.readGroups port).run.Ends responder before
      (replyIndex port.name reply) after := by
  refine Task.ends_bind (Task.ends_bind (Task.ends_ofCodec asks)
    (Task.ends_query answers)) ?_
  rw [replyIndex]
  cases reply.mapM (groupPosition port.name) with
  | ok positions => exact Task.ends_bind (Task.ends_done rfl) (Task.ends_pure _)
  | error fault => rfl

private theorem mem_positions_iff {positions : List (Nat × Nat)}
    (read : reply.mapM (groupPosition portName) = .ok positions) {level id : Nat} :
    (level, id) ∈ positions ↔ ∃ object ∈ reply, object.Reports level id := by
  have related := Results.mapM_eq_ok_iff.mp read
  constructor
  · intro member
    rcases Results.exists_left related member with ⟨object, isReported, located⟩
    exact ⟨object, isReported, groupPosition_eq_ok_iff.mp located⟩
  · rintro ⟨object, isReported, reports⟩
    rcases Results.exists_right related isReported with ⟨position, member, located⟩
    cases (groupPosition_eq_ok_iff.mpr reports).symm.trans located
    exact member

theorem exists_replyIndex_iff :
    (∃ index, replyIndex portName reply = .ok index) ↔
      ∀ object ∈ reply, ∃ level id, object.Reports level id := by
  constructor
  · rintro ⟨index, indexed⟩ object isReported
    rcases Results.map_eq_ok_iff.mp indexed with ⟨positions, read, -⟩
    rcases Results.exists_right (Results.mapM_eq_ok_iff.mp read) isReported with
      ⟨position, -, located⟩
    exact ⟨position.1, position.2, groupPosition_eq_ok_iff.mp located⟩
  · intro reports
    have each : ∀ object ∈ reply, ∃ position, groupPosition portName object =
        .ok position := by
      intro object isReported
      rcases reports object isReported with ⟨level, id, isGroup⟩
      exact ⟨(level, id), groupPosition_eq_ok_iff.mpr isGroup⟩
    rcases Results.exists_mapM each with ⟨positions, read, -⟩
    exact ⟨_, Results.map_eq_ok_iff.mpr ⟨positions, read, rfl⟩⟩

theorem level_of_replyIndex {index : GroupIndex}
    (indexed : replyIndex portName reply = .ok index)
    (level : Nat) :
    (index.level level).Pairwise (· < ·) ∧
      ∀ id, id ∈ index.level level ↔ ∃ object ∈ reply, object.Reports level id := by
  rcases Results.map_eq_ok_iff.mp indexed with ⟨positions, read, rfl⟩
  refine ⟨GroupIndex.pairwise_level_ofPositions, fun id => ?_⟩
  rw [GroupIndex.mem_level_ofPositions, mem_positions_iff read]

theorem replyIndex_congr (same : ∀ object, object ∈ otherReply ↔ object ∈ reply)
    {index : GroupIndex} (indexed : replyIndex portName reply = .ok index) :
    replyIndex portName otherReply = .ok index := by
  have reports := exists_replyIndex_iff.mp ⟨index, indexed⟩
  have otherReports : ∀ object ∈ otherReply, ∃ level id, object.Reports level id :=
    fun object member => reports object ((same object).mp member)
  rcases exists_replyIndex_iff.mpr otherReports with ⟨other, otherIndexed⟩
  rw [otherIndexed, Except.ok.injEq]
  rcases Results.map_eq_ok_iff.mp indexed with ⟨positions, read, rfl⟩
  rcases Results.map_eq_ok_iff.mp otherIndexed with ⟨others, otherRead, rfl⟩
  refine GroupIndex.ofPositions_congr fun position => ?_
  simp only [mem_positions_iff read, mem_positions_iff otherRead, same]

/-- Whatever the store replies to the question for the groups of a port: if every object
of the reply reports a level and an id, every level lists exactly the ids that are
reported for it, in ascending order, and a group is found by the number of smaller ids on
its level. A reply with the same objects, in whatever order and however often each of them
comes, gives the same index, or none if there is none. -/
theorem readGroups_depends_on_set {State Other : Type} {responder : Responder State}
    {other : Responder Other} {template : Authored}
    (asks : portSchedulerGroups scheduler.switchId port.ifindex = .ok template)
    {before after : State}
    (answers : responder.query template.data before = (.ok reply, after)) :
    ((∀ object ∈ reply, ∃ level id, object.Reports level id) →
      ∃ index, (scheduler.readGroups port).run.Ends responder before (.ok index) after ∧
        ∀ level, (index.level level).Pairwise (· < ·) ∧
          (∀ id, id ∈ index.level level ↔ ∃ object ∈ reply, object.Reports level id) ∧
          ∀ ordinal id, index.get? level ordinal = some id ↔
            (∃ object ∈ reply, object.Reports level id) ∧
            ∃ smaller : List Nat, smaller.Nodup ∧
              (∀ lower, lower ∈ smaller ↔
                (∃ object ∈ reply, object.Reports level lower) ∧ lower < id) ∧
              smaller.length = ordinal) ∧
    ∀ (otherReply : List StoreObject) (otherBefore otherAfter : Other),
      other.query template.data otherBefore = (.ok otherReply, otherAfter) →
      (∀ object, object ∈ otherReply ↔ object ∈ reply) →
      ∃ result otherResult,
        (scheduler.readGroups port).run.Ends responder before result after ∧
        (scheduler.readGroups port).run.Ends other otherBefore otherResult otherAfter ∧
        ∀ index, result = .ok index ↔ otherResult = .ok index := by
  have ends := readGroups_ends_reply asks answers
  refine ⟨fun reports =>
    ?_, fun otherReply otherBefore otherAfter otherAnswers same => ?_⟩
  · rcases exists_replyIndex_iff.mpr reports with ⟨index, indexed⟩
    refine ⟨index, indexed ▸ ends, fun level => ?_⟩
    rcases level_of_replyIndex indexed level with ⟨ascending, members⟩
    refine ⟨ascending, members, fun ordinal id => ?_⟩
    rw [GroupIndex.get?, getElem?_eq_some_iff_smaller ascending]
    simp only [members]
  · refine ⟨_, _, ends, readGroups_ends_reply asks otherAnswers, fun index => ?_⟩
    exact ⟨replyIndex_congr same, replyIndex_congr fun object => (same object).symm⟩

/-- A store that replies with two groups in descending order, and with one of them
again. -/
theorem readGroups_depends_on_set_repeated :
    let group (id : Nat) := ObjectClass.schedulerGroup.assemble
      [("level", Storage.uint32.word 2), ("id", Storage.uint64.word id)]
    let replies (reply : List StoreObject) : Responder Unit :=
      ⟨fun _ state => (.ok reply, state), fun _ state => (.ok [], state),
        fun _ state => (.ok [], state)⟩
    let task := (Scheduler.readGroups ⟨7⟩ ⟨"Ethernet0", 1, "physical"⟩).run
    ∃ index, task.Ends (replies [group 30, group 10, group 30]) () (.ok index) () ∧
      task.Ends (replies [group 10, group 30]) () (.ok index) () ∧
      index.level 2 = [10, 30] := by
  intro group replies task
  have asks := portSchedulerGroups_eq_ok_iff.mpr
    ⟨(by decide : 7 < countOfBits 32), (by decide : 1 < countOfBits 32), rfl⟩
  have position : ∀ id ∈ [10, 30], groupPosition "" (group id) =
    .ok (2, id) := by decide +kernel
  have reports (id : Nat) (member : id ∈ [10, 30]) : (group id).Reports 2 id :=
    groupPosition_eq_ok_iff.mp (position id member)
  have shown : ∀ object ∈ [group 30, group 10, group 30], ∃ id ∈ [10, 30],
      object = group id := by
    simp
  have reported : ∀ id, (∃ object ∈ [group 30, group 10, group 30], object.Reports 2 id) ↔
      id ∈ [10, 30] := by
    intro id
    constructor
    · rintro ⟨object, member, isGroup⟩
      rcases shown object member with ⟨own, isOwn, rfl⟩
      cases (position own isOwn).symm.trans (groupPosition_eq_ok_iff.mpr isGroup)
      exact isOwn
    · intro member
      refine ⟨group id, ?_, reports id member⟩
      rcases List.mem_pair.mp member with rfl | rfl <;> simp
  rcases @readGroups_depends_on_set ⟨7⟩ ⟨"Ethernet0", 1, "physical"⟩
    [group 30, group 10, group 30] Unit Unit (replies [group 30, group 10, group 30])
    (replies [group 10, group 30]) _ asks () ()
    rfl with ⟨reads, congruent⟩
  have each : ∀ object ∈ [group 30, group 10, group 30], ∃ level id,
      object.Reports level id := by
    intro object member
    rcases shown object member with ⟨id, isId, rfl⟩
    exact ⟨2, id, reports id isId⟩
  rcases reads each with ⟨index, ends, levels⟩
  rcases congruent [group 10, group 30] () () rfl (by simp [or_comm]) with
    ⟨result, otherResult, endsToo, otherEnds, same⟩
  cases (ends.unique endsToo).1
  cases (same index).mp rfl
  refine ⟨index, ends, otherEnds, ?_⟩
  apply List.Pairwise.eq_of_mem_iff (levels 2).1 (by decide)
  exact fun id => ((levels 2).2.1 id).trans (reported id)

end Scheduler

end SwitchQos
