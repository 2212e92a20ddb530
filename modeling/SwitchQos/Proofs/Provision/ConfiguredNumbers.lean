import SwitchQos.Proofs.Config.Numbers
import SwitchQos.Proofs.MapEntry.ReadBack
import SwitchQos.Proofs.Provision.MapCreation

namespace SwitchQos

/-! The numbers of global nodes reach the store unaltered or not at all. A node whose
creation is recorded as applied has all its numbers in the store, where they are read as
they were configured. A number for which its attribute has no form makes the creation
fail, and then the store has no profile, or no entry, of the node. -/

open Exchange

/-! ## Values of a node -/

namespace EntryNode

variable {entry : EntryNode} {mapType : MapType} {field : String}

def value? (entry : EntryNode) (mapType : MapType) (field : String) :
    Option ConfigValue :=
  match entry with
  | .positional values => values[mapType.fields.idxOf field]?
  | .named values => values.get? field

theorem text?_authored :
    entry.authored.text? mapType field =
      (entry.value? mapType field).map ConfigValue.toText := by
  cases entry with
  | positional values => exact List.getElem?_map
  | named values => exact Directory.findRow_map ConfigValue.toText field values.rows

end EntryNode

namespace ProfileNode

variable {node : ProfileNode} {attr : String}

/-- The value that is given for an attribute. Of several values the last one counts. -/
def value? (node : ProfileNode) (attr : String) : Option ConfigValue :=
  Directory.findRow attr node.attrs.rows.reverse

theorem text?_eq : node.text? attr = (node.value? attr).map ConfigValue.toText := by
  rw [text?, value?, attrTexts, Directory.map, ← List.map_reverse]
  exact Directory.findRow_map ConfigValue.toText attr _

end ProfileNode

/-! ## Entries -/

/-- What is stored for an entry of a map node: an object for each entry that it stands
for, and all of them have the numbers that it gives. If one of these does not fit,
nothing is stored. -/
structure EntryNumbers (address : TableAddress) (range : Option IntRange)
    (entry : EntryNode) (objects : List StoreObject) : Prop where
  entries : ∃ expanded, entry.authored.expand address.mapType range .full = .ok expanded ∧
    List.Forall₂ address.IsEntry expanded objects
  reads : ∀ object ∈ objects, ∀ field spec numbers,
    address.entryClass.Assigns (entry.value? address.mapType) field spec numbers →
      address.entryClass.Reads field spec.kind object numbers
  refused : address.entryClass.Overflows (entry.value? address.mapType) → objects = []

section Entries

variable {address : TableAddress} {range : Option IntRange} {entry : EntryNode}
  {objects : List StoreObject}

private theorem numbers_of_isEntry {expanded : List EntryFields}
    (expands : entry.authored.expand address.mapType range .full = .ok expanded)
    {fields : EntryFields} (member : fields ∈ expanded) {object : StoreObject}
    (isEntry : address.IsEntry fields object) {field : String} {spec : AttrSpec}
    {numbers : List Int}
    (assigns : address.entryClass.Assigns (entry.value? address.mapType)
      field spec numbers) :
    (∀ number ∈ numbers, spec.storage.Holds number) ∧
      address.entryClass.Reads field spec.kind object numbers := by
  rcases assigns with ⟨found, value, isGiven, given⟩
  have text : entry.authored.text? address.mapType field = some value.toText := by
    rw [EntryNode.text?_authored, isGiven]
    rfl
  have plain : value.toText ≠ wildcard := by
    rw [ConfigValue.toText_eq_numbersText given]
    exact numbersText_ne_wildcard numbers
  have inFields := AuthoredEntry.mem_of_expand expands text plain fields member
  rcases isEntry.stored _ inFields with ⟨stored, encoded⟩
  have kept : object.lookup (address.entryClass.pathOf field) = some stored := by
    rw [isEntry.plain.lookup]
    exact (isEntry.attributes _ _).mpr ⟨field, rfl, .given inFields encoded⟩
  exact ObjectClass.reads_of_encodeText found given encoded kept

theorem entryNumbers_of_built
    (built : address.entryObjects entry.authored range .full = .ok objects) :
    EntryNumbers address range entry objects := by
  rcases TableAddress.exists_isEntry built with ⟨expanded, expands, -, entries⟩
  refine ⟨⟨expanded, expands, entries⟩,
    fun object member field spec numbers assigns => ?_, ?_⟩
  · rcases Results.exists_left entries member with ⟨fields, isOne, isEntry⟩
    exact (numbers_of_isEntry expands isOne isEntry assigns).2
  · rintro ⟨field, spec, numbers, assigns, number, isNumber, unfit⟩
    apply List.eq_nil_iff_forall_not_mem.mpr
    intro object member
    rcases Results.exists_left entries member with ⟨fields, isOne, isEntry⟩
    exact unfit ((numbers_of_isEntry expands isOne isEntry assigns).1 number isNumber)

/-- Where an entry stands for something, all its numbers fit. -/
theorem EntryNumbers.vanishes_of_overflows
    (numbers : EntryNumbers address range entry objects)
    (overflows : address.entryClass.Overflows (entry.value? address.mapType)) :
    entry.authored.Vanishes address.mapType range := by
  rcases numbers.entries with ⟨expanded, expands, entries⟩
  rw [numbers.refused overflows, List.forall₂_nil_right_iff] at entries
  exact (AuthoredEntry.eq_nil_iff_of_expand expands).mp entries

end Entries

/-! ## Profiles -/

private theorem numbers_of_profile {switchId : Nat} {node : ProfileNode}
    {profile : Authored} {contents : Contents} {stored : StoreObject}
    (built : schedulerProfile switchId node.attrTexts = .ok profile)
    (completed : contents.completed? .schedulerProfile profile.data = some stored)
    {attr : String} {spec : AttrSpec} {numbers : List Int}
    (assigns : ObjectClass.schedulerProfile.Assigns node.value? attr spec numbers) :
    (∀ number ∈ numbers, spec.storage.Holds number) ∧
      ObjectClass.schedulerProfile.Reads attr spec.kind stored numbers := by
  rcases assigns with ⟨found, value, isGiven, given⟩
  have text : node.text? attr = some value.toText := by
    rw [ProfileNode.text?_eq, isGiven]
    rfl
  rcases ProfileNode.exists_encoded built text with ⟨encoding, encoded⟩
  have written : node.written? attr = some encoding := by
    rw [ProfileNode.written?, text, Option.bind_some, encoded]
    rfl
  have own : profile.data.get? (ObjectClass.schedulerProfile.pathOf attr) =
      some encoding := by
    rw [ProfileNode.get?_of_built built (.of_spec? found), written, Option.some_or]
  have plain := Contents.isPlain_of_completed? (plain_schedulerProfile built).1 completed
  have kept := Contents.get?_of_completed? completed own
  rw [← plain.lookup] at kept
  exact ObjectClass.reads_of_encodeText found given encoded kept

/-! ## Nodes -/

/-- What the creation of a map node makes of the numbers of its entries. An entry that
stands for nothing has no number that could fail. -/
structure MapNumbers (switchId : Nat) (node : MapNode) (creation : Creation) : Prop where
  kept : creation.outcome.status = .applied → ∃ id groups,
    creation.added = (node.table switchId id).object :: groups.flatten ∧
    List.Forall₂ (EntryNumbers (node.table switchId id).address node.range)
      node.entries groups
  refused : node.mapType.isProvisionable = true →
    (∃ entry ∈ node.entries, ¬entry.authored.Vanishes node.mapType node.range ∧
      (ObjectClass.mapEntry node.mapType).Overflows (entry.value? node.mapType)) →
    (∃ error, creation.outcome = .failed node.target error) ∧
      ∀ object ∈ creation.added, object.classPath ≠
        (ObjectClass.mapEntry node.mapType).path

structure ProfileNumbers (node : ProfileNode) (creation : Creation) : Prop where
  kept : creation.outcome.status = .applied → ∃ stored, creation.added = [stored] ∧
    stored.classPath = ObjectClass.schedulerProfile.path ∧
    ∀ attr spec numbers, ObjectClass.schedulerProfile.Assigns node.value?
      attr spec numbers →
      ObjectClass.schedulerProfile.Reads attr spec.kind stored numbers
  refused : ObjectClass.schedulerProfile.Overflows node.value? →
    (∃ error, creation.outcome = .failed ("scheduler profile " ++ node.tag) error) ∧
      creation.added = []

namespace Provisioner

variable {provisioner : Provisioner} {names : Names}

/-- A map node that fails leaves a table at most, so none of its numbers is stored. -/
private theorem mapNumbers_of_failed {switchId : Nat} {node : MapNode}
    {error : ProvisionError} {added : List StoreObject}
    (tables : ∀ object ∈ added, object.classPath =
      (ObjectClass.mapTable node.mapType).path) :
    MapNumbers switchId node ⟨node.tag, .failed node.target error, none, added⟩ where
  kept := fun applied => nomatch applied
  refused := by
    refine fun _ _ => ⟨⟨error, rfl⟩, fun object member isEntry => ?_⟩
    cases ObjectClass.path_injective ((tables object member).symm.trans isEntry)

theorem createMap_numbers (memory : Memory) (node : MapNode) :
    ∃ result after creation,
      (provisioner.createMap node).run.Ends Memory.responder memory result after ∧
      MapNumbers provisioner.switchId node creation ∧
      after.contents.objects = memory.contents.objects ++ creation.added ∧
      creation.Records node.tag node.target result := by
  rcases createMap_cases provisioner node memory with
    ⟨error, failed⟩ | ⟨-, ⟨error, failed⟩ | ⟨lists, built, applied⟩⟩
  · refine ⟨_, _, _, failed, mapNumbers_of_failed ?_, (List.append_nil _).symm,
      ⟨rfl, rfl, rfl⟩⟩
    exact fun _ impossible => nomatch impossible
  · refine ⟨_, _, ⟨node.tag, .failed node.target error, none,
      [(provisioner.nextTable node memory).object]⟩, failed, mapNumbers_of_failed ?_,
      List.append_nil _, ⟨rfl, rfl, rfl⟩⟩
    intro object member
    rw [List.mem_singleton.mp member]
    exact MapTable.classPath_object
  · have each := Results.mapM_eq_ok_iff.mp built
    refine ⟨_, _, ⟨node.tag, .applied node.target, some memory.contents.nextId,
      (provisioner.nextTable node memory).object :: lists.flatten⟩, applied, ⟨?_, ?_⟩,
      List.append_assoc _ _ _, ⟨rfl, rfl, rfl⟩⟩
    · exact fun _ => ⟨_, lists, rfl, each.imp fun _ _ => entryNumbers_of_built⟩
    · rintro - ⟨entry, member, stands, overflows⟩
      rcases Results.exists_right each member with ⟨objects, -, entryBuilt⟩
      exact absurd ((entryNumbers_of_built entryBuilt).vanishes_of_overflows
        overflows) stands

theorem createMaps_numbers (memory : Memory) (nodes : List MapNode) :
    ∃ creations later after,
      (provisioner.createMaps nodes names).Ends Memory.responder memory
        (creations.map Creation.outcome, later) after ∧
      List.Forall₂ (MapNumbers provisioner.switchId) nodes creations ∧
      after.contents.objects = memory.contents.objects ++
        creations.flatMap Creation.added := by
  induction nodes generalizing memory names with
  | nil => exact ⟨[], names, memory, rfl, .nil, (List.append_nil _).symm⟩
  | cons node rest induction =>
      cases provisionable : node.mapType.isProvisionable with
      | true =>
          rcases @createMap_numbers provisioner memory node with
            ⟨result, middle, creation, first, numbers, added, records⟩
          rcases @induction (names.afterMap node.tag result) middle with
            ⟨creations, later, after, others, allNumbers, allAdded⟩
          have ends := createMaps_ends_cons provisionable first others
          rw [← records.outcome] at ends
          refine ⟨creation :: creations, later, after, ends, .cons numbers allNumbers, ?_⟩
          rw [allAdded, added, List.flatMap_cons, List.append_assoc]
      | false =>
          rcases @induction names memory with
            ⟨creations, later, after, others, numbers, added⟩
          refine ⟨⟨node.tag, .skipped node.target notProvisioned, none, []⟩ ::
            creations, later, after, createMaps_ends_skip provisionable others,
            .cons ⟨?_, ?_⟩ numbers, added⟩
          · exact fun applied => nomatch applied
          · intro isProvisionable
            cases provisionable.symm.trans isProvisionable

theorem createProfile_numbers (memory : Memory) (node : ProfileNode) :
    ∃ result after creation,
      (provisioner.scheduler.createProfile node.tag node.attrTexts).run.Ends
        Memory.responder memory result after ∧
      ProfileNumbers node creation ∧
      memory.contents.GrowsBy creation.added after.contents ∧
      creation.Records node.tag ("scheduler profile " ++ node.tag) result := by
  rcases createProfile_cases provisioner.scheduler node memory with
    ⟨error, failed⟩ | ⟨profile, stored, id, after, built, completed,
      renders, added, created⟩
  · refine ⟨_, _, ⟨node.tag, .failed ("scheduler profile " ++ node.tag) error,
      none, []⟩, failed,
      ⟨?_, ?_⟩, Contents.growsBy_self _, ⟨rfl, rfl, rfl⟩⟩
    · exact fun applied => nomatch applied
    · exact fun _ => ⟨⟨error, rfl⟩, rfl⟩
  · refine ⟨_, _, ⟨node.tag, .applied ("scheduler profile " ++ node.tag),
      some id, [stored]⟩,
      created, ⟨?_, ?_⟩, growsBy_of_renders renders added, ⟨rfl, rfl, rfl⟩⟩
    · exact fun _ => ⟨stored, rfl, renders.classPath, fun _ _ _ assigns =>
        (numbers_of_profile built completed assigns).2⟩
    · rintro ⟨attr, spec, numbers, assigns, number, member, unfit⟩
      exact absurd ((numbers_of_profile built completed assigns).1 number member) unfit

/-- To create the maps and profiles of a global node always comes to an end, with one
record for each of them, and only adds to the store. Where a map or a profile was applied,
each number that it gives is read from the store as it was configured; where it gives a
number that does not fit, it has failed, and nothing that could hold the number was added
for it. The numbers of an entry that stands for nothing, over a range with crossed bounds,
are neither stored nor refused. -/
theorem initGlobals_keeps_numbers (provisioner : Provisioner)
    (memory : Memory) (names : Names) (node : GlobalsNode) :
    ∃ maps profiles later after,
      (provisioner.initGlobals names node).Ends Memory.responder memory
        (⟨"switch globals", maps.map Creation.outcome ++
          profiles.map Creation.outcome⟩, later) after ∧
      List.Forall₂ (MapNumbers provisioner.switchId) node.maps maps ∧
      List.Forall₂ ProfileNumbers node.profiles profiles ∧
      after.contents.objects = memory.contents.objects ++
        (maps.flatMap Creation.added ++ profiles.flatMap Creation.added) := by
  rcases @createMaps_numbers provisioner names memory node.maps with
    ⟨maps, mapped, middle, mapsEnd, mapNumbers, mapsAdded⟩
  rcases @createProfiles_each provisioner mapped _ createProfile_numbers middle
      node.profiles with
    ⟨profiles, later, after, profilesEnd, profileNumbers, grows, -⟩
  refine ⟨maps, profiles, later, after, mapsEnd.bind (profilesEnd.bind rfl), mapNumbers,
    profileNumbers, ?_⟩
  rw [grows.objects, mapsAdded, List.append_assoc]

def groupMap (tag : String) (group : Int) : MapNode :=
  { mapType := .tcToPriorityGroup, tag, entries := [.positional [.int 255, .int group]] }

def extremeNumbers : GlobalsNode :=
  { maps := [groupMap "outermost" (-128), groupMap "outside" (-129)],
    profiles := [
      { tag := "outermost",
        attrs := ⟨[("max-rate", .uint 18446744073709551615),
          ("npu-id-list", .list [4294967295, 0, 7])]⟩ },
      { tag := "outside", attrs := ⟨[("max-rate", .int (-1))]⟩ }] }

/-- The outermost numbers are read as they are, and those outside are refused. -/
theorem initGlobals_keeps_numbers_extreme :
    let entryClass := ObjectClass.mapEntry .tcToPriorityGroup
    let profileClass := ObjectClass.schedulerProfile
    ∃ outcomes later after table entry profile emptied,
      (initGlobals ⟨0, 0⟩ {} extremeNumbers).Ends Memory.responder (Memory.new 0)
        (⟨"switch globals", outcomes⟩, later) after ∧
      outcomes.map (fun outcome => decide (outcome.status = .applied)) =
        [true, false, true, false] ∧
      after.contents.objects = [table, entry] ++ emptied ++ [profile] ∧
      (∀ object ∈ emptied, object.classPath ≠ entryClass.path) ∧
      entryClass.Reads "tc" .scalar entry [255] ∧
      entryClass.Reads "priority-group" .scalar entry [-128] ∧
      profileClass.Reads "max-rate" .scalar profile [18446744073709551615] ∧
      profileClass.Reads "npu-id-list" .list profile [4294967295, 0, 7] := by
  intro entryClass profileClass
  rcases initGlobals_keeps_numbers ⟨0, 0⟩ (Memory.new 0) {} extremeNumbers with
    ⟨maps, profiles, later, after, ends, mapNumbers, profileNumbers, added⟩
  have ran : ((initGlobals ⟨0, 0⟩ {} extremeNumbers).run Memory.responder
    (Memory.new 0)).1.map
      (fun result => result.1.outcomes.map fun outcome =>
        decide (outcome.status = .applied)) =
        some [true, false, true, false] := by decide +kernel
  rw [ends] at ran
  have statuses := Option.some.inj ran
  rcases List.forall₂_cons_left_iff.mp mapNumbers with ⟨least, _, leastMap, others, rfl⟩
  rcases List.forall₂_cons_left_iff.mp others with ⟨below, _, belowMap, none, rfl⟩
  cases none
  rcases List.forall₂_cons_left_iff.mp profileNumbers with
    ⟨full, _, fullProfile, others, rfl⟩
  rcases List.forall₂_cons_left_iff.mp others with
    ⟨negative, _, negativeProfile, none, rfl⟩
  cases none
  simp only [List.map_cons, List.map_nil, List.cons_append, List.nil_append,
    List.cons.injEq, decide_eq_true_eq] at statuses
  rcases leastMap.kept statuses.1 with ⟨id, groups, leastAdded, entryNumbers⟩
  rcases List.forall₂_cons_left_iff.mp entryNumbers with ⟨group, _, numbers, none, rfl⟩
  cases none
  have expanded : (EntryNode.positional [.int 255, .int (-128)]).authored.expand
      .tcToPriorityGroup none .full =
      .ok [[("tc", "255"), ("priority-group", "-128")]] := by
    decide +kernel
  rcases numbers.entries with ⟨_, expands, entries⟩
  cases expands.symm.trans expanded
  rcases List.forall₂_cons_left_iff.mp entries with ⟨entry, _, -, none, rfl⟩
  cases none
  rcases fullProfile.kept statuses.2.2.1 with ⟨profile, fullAdded, -, profileReads⟩
  have tooLow : entryClass.Overflows
      ((EntryNode.positional [.int 255, .int (-129)]).value? .tcToPriorityGroup) :=
    ⟨"priority-group", .scalar .int8, [-129], ⟨rfl, .int (-129), rfl, rfl⟩, -129,
      List.mem_singleton_self _, by decide⟩
  have negativeRate : profileClass.Overflows (ProfileNode.value?
      { tag := "outside", attrs := ⟨[("max-rate", .int (-1))]⟩ }) :=
    ⟨"max-rate", .scalar .uint64, [-1], ⟨rfl, .int (-1), rfl, rfl⟩, -1,
      List.mem_singleton_self _, by decide⟩
  have noEntries := (belowMap.refused rfl
    ⟨_, List.mem_singleton_self _, fun vanishes => vanishes.1 rfl, tooLow⟩).2
  have noProfile := (negativeProfile.refused negativeRate).2
  have reads := numbers.reads entry (List.mem_singleton_self entry)
  refine ⟨_, later, after,
    ((groupMap "outermost" (-128)).table 0 id).object, entry, profile,
    below.added, ends, Option.some.inj ran, ?_, noEntries,
    reads "tc" (.scalar .uint8) _ ⟨rfl, .int 255, rfl, rfl⟩,
    reads "priority-group" (.scalar .int8) _ ⟨rfl, .int (-128), rfl, rfl⟩,
    profileReads "max-rate" (.scalar .uint64) _
      ⟨rfl, .uint 18446744073709551615, rfl, rfl⟩,
    profileReads "npu-id-list" (.list .uint32) _
      ⟨rfl, .list [4294967295, 0, 7], rfl, rfl⟩⟩
  rw [added]
  simp [Memory.new, leastAdded, fullAdded, noProfile]

def crossedNumbers : GlobalsNode :=
  { maps := [
      { mapType := .dot1pToTc, tag := "crossed", least := some 1, greatest := some 0,
        entries := [.positional [.text "all", .int 999]] }] }

/-- The map is applied all the same, without an entry. -/
theorem initGlobals_keeps_numbers_refuted :
    (∃ map ∈ crossedNumbers.maps, map.mapType.isProvisionable = true ∧
      ∃ entry ∈ map.entries,
      (ObjectClass.mapEntry map.mapType).Overflows (entry.value? map.mapType)) ∧
    ((initGlobals ⟨0, 0⟩ {} crossedNumbers).run Memory.responder (Memory.new 0)).1.map
      (fun result => result.1.outcomes.map Outcome.status) = some [.applied] ∧
    ∀ object ∈
      ((initGlobals ⟨0, 0⟩ {} crossedNumbers).run Memory.responder
        (Memory.new 0)).2.contents.objects,
      object.classPath ≠ (ObjectClass.mapEntry .dot1pToTc).path := by
  refine ⟨⟨_, List.mem_singleton_self _, rfl, _, List.mem_singleton_self _, ?_⟩, ?_, ?_⟩
  · exact ⟨"tc", .scalar .uint8, [999], ⟨rfl, .int 999, rfl, rfl⟩, 999,
      List.mem_singleton_self _, by decide⟩
  · decide +kernel
  · decide +kernel

end Provisioner

end SwitchQos
