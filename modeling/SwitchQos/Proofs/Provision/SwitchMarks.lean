import SwitchQos.Proofs.Provision.ProfileTexts

namespace SwitchQos

/-! Which switch the objects name that a run submits. All but those of the maps that are
no legacy name the switch that is provisioned, unless a profile is declared with a text
for its switch: that comes later than the switch that is given, and takes its place. -/

open Exchange

/-! ## Objects of a switch -/

namespace ObjectClass

def namesSwitch : ObjectClass → Bool
  | .mapTable mapType | .mapEntry mapType => mapType.isLegacy
  | _ => true

end ObjectClass

/-- The object names the switch, or none if it is of a class that names none. -/
def StoreObject.OfSwitch (switchId : Nat) (object : StoreObject) : Prop :=
  ∃ objectClass : ObjectClass, object.classPath = objectClass.path ∧
    objectClass.decode "switch-id" object =
      .ok (if objectClass.namesSwitch then some (.uint switchId) else none)

def OfSwitch (switchId : Nat) (batch : List Operation) : Prop :=
  ∀ operation ∈ batch, operation.object.OfSwitch switchId

def OthersOfSwitch (switchId : Nat) (batch : List Operation) : Prop :=
  ∀ operation ∈ batch, operation.object.classPath ≠ ObjectClass.schedulerProfile.path →
    operation.object.OfSwitch switchId

section OfSwitch

variable {switchId : Nat} {objectClass : ObjectClass} {object : StoreObject}
  {values : List (String × StoreValue)} {verb : Verb}

theorem StoreObject.OfSwitch.decode_eq (ofSwitch : object.OfSwitch switchId)
    (isOf : object.classPath = objectClass.path) :
    objectClass.decode "switch-id" object =
      .ok (if objectClass.namesSwitch then some (.uint switchId) else none) := by
  rcases ofSwitch with ⟨otherClass, otherOf, decoded⟩
  cases ObjectClass.path_injective (isOf.symm.trans otherOf)
  exact decoded

theorem ofSwitch_singleton : OfSwitch switchId [⟨verb, object⟩] ↔
    object.OfSwitch switchId := by
  simp [OfSwitch]

variable (fits : switchId < countOfBits 32)

include fits

theorem ofSwitch_iff (plain : object.IsPlain) (isOf : object.classPath = objectClass.path)
    (names : objectClass.namesSwitch = true) :
    object.OfSwitch switchId ↔ object.get? (objectClass.pathOf "switch-id") =
      some (Storage.uint32.word switchId) := by
  rcases objectClass.spec?_switchId with ⟨scope, found⟩
  have decoded :=
    @ObjectClass.decode_uint_iff objectClass "switch-id" _ object found ⟨rfl, rfl⟩
    switchId
  rw [plain.lookup] at decoded
  constructor
  · intro ofSwitch
    have read := ofSwitch.decode_eq isOf
    rw [if_pos names] at read
    exact (decoded.mp read).2
  · intro kept
    refine ⟨objectClass, isOf, ?_⟩
    rw [if_pos names]
    exact decoded.mpr ⟨fits, kept⟩

theorem ofSwitch_assemble (hasAll : ∀ row ∈ values, objectClass.Has row.1)
    (named : Directory.findRow "switch-id" values =
      if objectClass.namesSwitch then some (Storage.uint32.word switchId) else none) :
    (objectClass.assemble values).OfSwitch switchId := by
  rcases objectClass.spec?_switchId with ⟨scope, found⟩
  have has := ObjectClass.Has.of_spec? found
  have plain : (objectClass.assemble values).IsPlain := ObjectClass.keyData_assemble
  have kept := ObjectClass.get?_assemble has hasAll
  rw [named] at kept
  by_cases names : objectClass.namesSwitch = true
  · rw [if_pos names] at kept
    exact (ofSwitch_iff fits plain ObjectClass.classPath_assemble names).mpr kept
  · refine ⟨objectClass, ObjectClass.classPath_assemble, ?_⟩
    rw [if_neg names] at kept ⊢
    rw [ObjectClass.decode, ObjectClass.attrPath_of_has has, Results.ok_bind,
      plain.lookup, kept]

end OfSwitch

/-! ## Maps -/

namespace TableAddress

variable {address : TableAddress}

theorem findRow_base {objectClass : ObjectClass}
    (sameNames : objectClass.namesSwitch = address.mapType.isLegacy) :
    Directory.findRow "switch-id" address.base =
      if objectClass.namesSwitch then
        some (Storage.uint32.word address.switchId) else none := by
  rw [base, sameNames]
  split <;> rfl

theorem has_base {objectClass : ObjectClass} :
    ∀ row ∈ address.base, objectClass.Has row.1 := by
  intro row member
  rcases objectClass.spec?_switchId with ⟨scope, found⟩
  exact mem_base member ▸ .of_spec? found

theorem ofSwitch_tableObject {object : StoreObject}
    (fits : address.switchId < countOfBits 32)
    (built : address.tableObject = .ok object) : object.OfSwitch address.switchId := by
  rcases tableObject_eq_ok_iff.mp built with ⟨-, -, rfl⟩
  have named := @findRow_base address address.tableClass rfl
  cases address.id with
  | none => exact ofSwitch_assemble fits has_base named
  | some id =>
      exact ofSwitch_assemble fits (List.forall_mem_cons.mpr ⟨rfl, has_base⟩) named

/-- No field of an entry takes the place of its switch. -/
theorem ofSwitch_entryObject {object : StoreObject} {fields : EntryFields} {id : Nat}
    (fits : address.switchId < countOfBits 32) (hasId : address.id = some id)
    (names : fields.map (·.1) = address.mapType.fields)
    (built : address.entryObject fields = .ok object) :
    object.OfSwitch address.switchId := by
  rcases (entryObject_eq_ok_iff hasId).mp built with ⟨-, -, rows, related, rfl⟩
  have origin {row : String × StoreValue} (member : row ∈ rows.reverse) :
      row.1 ∈ address.mapType.fields ∧ address.entryClass.Has row.1 := by
    rcases Results.exists_left related (List.mem_reverse.mp member) with
      ⟨text, isField, same, encoded⟩
    rcases ObjectClass.encodeText_eq_ok_iff.mp encoded with ⟨value, parsed, -⟩
    rw [same]
    exact ⟨names ▸ List.mem_map_of_mem isField, ObjectClass.has_of_parseText parsed⟩
  have unnamed : Directory.findRow "switch-id" rows.reverse = none := by
    refine Directory.findRow_eq_none_iff.mpr fun member => ?_
    rcases List.mem_map.mp member with ⟨row, isRow, same⟩
    exact address.mapType.switchId_not_mem_fields (same ▸ (origin isRow).1)
  refine ofSwitch_assemble fits (fun row member => ?_) ?_
  · rcases List.mem_append.mp member with own | shared
    · exact (origin own).2
    · rcases List.mem_cons.mp shared with rfl | inBase
      · rfl
      · exact has_base row inBase
  · rw [Directory.findRow_append, unnamed]
    exact @findRow_base address address.entryClass rfl

end TableAddress

namespace MapTable

open SwitchQos.Task

variable {table : MapTable} {switchId : Nat}

structure OnSwitch (switchId : Nat) (table : MapTable) : Prop where
  creates : table.CreatesEntries
  same : table.switchId = switchId
  entries : ∀ object ∈ table.created, object.OfSwitch switchId

theorem OnSwitch.add {entry : AuthoredEntry} {range : Option IntRange} {count : Nat}
    {result : MapTable} (fits : switchId < countOfBits 32)
    (onSwitch : table.OnSwitch switchId)
    (added : table.add entry range = .ok (count, result)) : result.OnSwitch switchId := by
  have creates := onSwitch.creates.add added
  rcases onSwitch with ⟨-, rfl, staged⟩
  rcases Results.bind_eq_ok_iff.mp added with ⟨objects, built, same⟩
  cases same
  rw [Results.mapError_eq_ok_iff, TableAddress.entryObjects,
    Results.bind_eq_ok_iff] at built
  rcases built with ⟨entries, expanded, built⟩
  refine ⟨creates, rfl, fun object member => ?_⟩
  rcases List.mem_append.mp member with old | new
  · exact staged object old
  · rcases Results.exists_of_mem_mapM built object new with ⟨fields, isEntry, entryBuilt⟩
    have names := AuthoredEntry.names_of_expand expanded fields isEntry
    exact @TableAddress.ofSwitch_entryObject table.address object fields
      table.id fits rfl names entryBuilt

theorem OnSwitch.submits_commit (onSwitch : table.OnSwitch switchId) :
    table.commit.run.Submits (OfSwitch switchId) := by
  rw [commit]
  split
  · trivial
  · refine submits_bind (submits_transact ?_) fun _ => trivial
    rw [batch, onSwitch.creates.unmodified, onSwitch.creates.undeleted, List.map_nil,
      List.map_nil, List.append_nil, List.append_nil]
    exact List.forall_mem_map.mpr onSwitch.entries

theorem gives_create_onSwitch {mapType : MapType} :
    (MapTable.create mapType switchId).Gives (OnSwitch switchId) :=
  gives_bind fun _ => gives_bind fun _ => gives_bind fun _ => gives_bind fun _ =>
    gives_bind fun _ => gives_bind fun _ => gives_pure ⟨⟨by simp, rfl, rfl⟩, rfl, by simp⟩

theorem submits_create_ofSwitch {mapType : MapType} (fits : switchId < countOfBits 32) :
    (MapTable.create mapType switchId).run.Submits (OfSwitch switchId) := by
  refine submits_ofCodec_bind fun request built =>
    submits_bind (submits_transact ?_) fun _ => ?_
  · exact ofSwitch_singleton.mpr (TableAddress.ofSwitch_tableObject fits built)
  · exact submits_require_bind fun _ => submits_ofCodec_bind fun _ _ =>
      submits_ofCodec_bind fun _ _ => submits_require_bind fun _ => trivial

end MapTable

/-! ## Ports -/

theorem Footprint.Sets.ofSwitch {footprint : Footprint} {object other : StoreObject}
    (fits : footprint.switchId < countOfBits 32) (sets : footprint.Sets object other) :
    object.OfSwitch footprint.switchId := by
  cases sets with
  | groupProfile | groupChildren => exact ofSwitch_assemble fits (by simp; decide) rfl
  | queueProfile => exact ofSwitch_assemble fits (by simp [QueueKey.attrs]; decide) rfl
  | @portMap direction mapType id _ has _ =>
      have others : direction.objectClass.Has "port-id" ∧
          direction.objectClass.Has "switch-id" := by
        cases direction <;> decide
      refine ofSwitch_assemble fits (by simpa using ⟨has, others⟩) ?_
      cases direction <;> cases mapType <;> rfl

theorem Footprint.submits_ofSwitch {Result : Type} {footprint : Footprint}
    {exchange other : Exchange Result} (fits : footprint.switchId < countOfBits 32)
    (parallel : exchange.Parallel footprint.conduct other) :
    exchange.Submits (OfSwitch footprint.switchId) := by
  refine parallel.submits.mono ?_
  rintro batch ⟨object, other, sets, rfl⟩
  exact ofSwitch_singleton.mpr (sets.ofSwitch fits)

/-! ## Profiles -/

/-- If the profile names a switch in its texts, it is the one that it is built for. -/
def ProfileNode.StaysOn (switchId : Nat) (node : ProfileNode) : Prop :=
  ∀ profile, schedulerProfile switchId node.attrTexts = .ok profile →
    ∀ text, node.text? "switch-id" = some text →
      ObjectClass.schedulerProfile.parseText "switch-id" text = .ok (.uint switchId)

section Profiles

variable {switchId : Nat} {node : ProfileNode}

theorem ProfileNode.staysOn_iff (fits : switchId < countOfBits 32) :
    node.StaysOn switchId ↔
      ∀ profile, schedulerProfile switchId node.attrTexts = .ok profile →
        profile.data.OfSwitch switchId := by
  have found : ObjectClass.schedulerProfile.spec? "switch-id" =
    some (.scalar .uint32) := rfl
  refine forall₂_congr fun profile built => ?_
  rcases plain_schedulerProfile built with ⟨plain, isOf⟩
  rw [ofSwitch_iff fits plain isOf rfl, get?_of_built built (.of_spec? found),
    if_pos rfl, written?]
  cases given : node.text? "switch-id" with
  | none => simp
  | some text =>
      rcases exists_encoded built given with ⟨stored, encoded⟩
      rcases (ObjectClass.encodeText_natural found ⟨rfl, rfl⟩).mp encoded with
        ⟨number, parsed, numberFits, rfl⟩
      simp only [Option.some.injEq, forall_eq', parsed, encoded, Option.bind_some,
        Except.toOption, Option.some_or, Except.ok.injEq, AttrValue.uint.injEq]
      exact ⟨fun same => by rw [same]; rfl, Storage.word_injective rfl numberFits fits⟩

theorem Scheduler.submits_createProfile_iff {scheduler : Scheduler}
    (fits : scheduler.switchId < countOfBits 32) :
    (scheduler.createProfile node.tag node.attrTexts).run.Submits
      (OfSwitch scheduler.switchId) ↔
      node.StaysOn scheduler.switchId := by
  rw [ProfileNode.staysOn_iff fits, createProfile]
  cases schedulerProfile scheduler.switchId node.attrTexts with
  | error cause =>
      refine ⟨?_, fun _ => trivial⟩
      rintro - profile ⟨⟩
  | ok profile =>
      rw [run_createObject]
      simp only [Except.ok.injEq, forall_eq', Submits, ofSwitch_singleton,
        implies_true, and_true]

end Profiles

namespace Exchange

variable {Result Other State : Type} {responder : Responder State}
  {allowed : List Operation → Prop} {exchange : Exchange Result}
  {next : Result → Exchange Other}

theorem Submits.of_bind (submits : (exchange.bind next).Submits allowed) :
    exchange.Submits allowed := by
  induction exchange with
  | done | stalled => trivial
  | query _ _ induction | listPorts _ _ induction =>
      exact fun reply => induction _ (submits reply)
  | transact _ _ induction => exact ⟨submits.1, fun reply =>
      induction _ (submits.2 reply)⟩

theorem Submits.rest {before after : State} {value : Result}
    (submits : (exchange.bind next).Submits allowed)
    (ends : exchange.Ends responder before value after) : (next value).Submits allowed :=
  submits.of_reaches (ends.reaches.bind next)

end Exchange

namespace Provisioner

variable {provisioner : Provisioner} {names : Names}

section Runs

variable (fits : provisioner.switchId < countOfBits 32)

include fits

theorem submits_createMap_ofSwitch {node : MapNode} :
    (provisioner.createMap node).run.Submits (OfSwitch provisioner.switchId) :=
  Task.submits_bind_of_gives (MapTable.submits_create_ofSwitch fits)
    MapTable.gives_create_onSwitch
    fun _ onSwitch => MapTable.submits_fill fun _ staged => (MapTable.keeps_foldlM_add
      (fun kept added => kept.add fits added) staged onSwitch).submits_commit

theorem submits_initPort_ofSwitch {node : PortNode} {port : Port} :
    (provisioner.initPort names node port).Submits (OfSwitch provisioner.switchId) :=
  Footprint.submits_ofSwitch fits
    (Footprint.parallel_initPort provisioner names node port)

theorem submits_initInterface_ofSwitch {tree : Option SchedulerTree} {port : Port} :
    (provisioner.initInterface names tree port).Submits
      (OfSwitch provisioner.switchId) := by
  cases tree with
  | none => trivial
  | some tree =>
      have submits :=
        Footprint.submits_ofSwitch fits (@Footprint.parallel_applyTree names {} port
        provisioner.scheduler tree)
      exact submits.bind fun _ => trivial

theorem submits_createProfiles_iff {nodes : List ProfileNode} :
    (provisioner.createProfiles nodes names).Submits (OfSwitch provisioner.switchId) ↔
      ∀ node ∈ nodes, node.StaysOn provisioner.switchId := by
  have one (node : ProfileNode) :=
    @Scheduler.submits_createProfile_iff node provisioner.scheduler fits
  refine ⟨fun submits => ?_, fun stay => submits_each_createProfile fun node member =>
    (one node).mpr (stay node member)⟩
  induction nodes generalizing names with
  | nil => simp
  | cons node rest induction =>
      -- The rest is known to be submitted after a result only, so some store
      -- has to give one.
      rcases @Scheduler.createProfile_ends provisioner.scheduler node.tag
        node.attrTexts (.new 0)
        rfl with ⟨result, after, ends, -⟩
      rw [createProfiles_cons] at submits
      exact List.forall_mem_cons.mpr ⟨(one node).mp submits.of_bind,
        induction (submits.rest ends).of_bind⟩

theorem submits_createAllProfiles_iff {nodes : List GlobalsNode} :
    (provisioner.createAllProfiles nodes names).Submits (OfSwitch provisioner.switchId) ↔
      ∀ node ∈ nodes, ∀ profile ∈ node.profiles,
      profile.StaysOn provisioner.switchId := by
  constructor
  · intro submits
    induction nodes generalizing names with
    | nil => simp
    | cons node rest induction =>
        let memory := ((Memory.new 0).setPorts .frontPanel []).setPorts .cpu []
        have stands : memory.Stands fun _ => [] := ⟨rfl, rfl, by rintro (_ | _) <;> rfl⟩
        rcases @exists_createProfiles provisioner memory names _ node.profiles stands with
          ⟨outcomes, last, after, ends, -⟩
        exact List.forall_mem_cons.mpr
          ⟨(submits_createProfiles_iff fits).mp submits.of_bind,
          induction (submits.rest ends).of_bind⟩
  · exact fun stay => submits_all_createProfile fun node member profile isProfile =>
      (@Scheduler.submits_createProfile_iff profile provisioner.scheduler fits).mpr
        (stay node member profile isProfile)

/-- Where the profiles may be submitted, a run and a rerun submit nothing else but
objects of the switch. -/
theorem submits_of_profiles {allowed : List Operation → Prop} {config : Config}
    (own : ∀ batch, OfSwitch provisioner.switchId batch → allowed batch)
    (profiles : ∀ node ∈ config.globals, ∀ profile ∈ node.profiles,
      (provisioner.scheduler.createProfile profile.tag profile.attrTexts).run.Submits
        allowed) :
    (provisioner.run config).Submits allowed ∧
      ∀ interfaces,
      (provisioner.initInterfaces config interfaces).run.Submits allowed := by
  constructor
  · refine Submits.bind (submits_runNodes (fun names node member => ?_)
      fun names node port => ?_) fun _ => trivial
    · have isGlobal : node ∈ config.globals := List.mem_filterMap.mpr ⟨_, member, rfl⟩
      exact (submits_each_createMap fun _ =>
        (submits_createMap_ofSwitch fits).mono own).bind
        fun _ =>
          (submits_each_createProfile (profiles node isGlobal)).bind fun _ => trivial
    · exact (submits_initPort_ofSwitch fits).mono own
  · intro interfaces
    refine Task.submits_bind submits_resolveAll fun ports =>
      Submits.bind ?_ fun _ => trivial
    refine (submits_all_createProfile profiles).bind fun created =>
      Submits.bind ?_ fun _ => trivial
    refine submits_collect fun port _ => ?_
    exact ((submits_initInterface_ofSwitch fits).mono own).bind fun _ => trivial

end Runs

/-- All that a run or a rerun submits belongs to the switch, whatever the store replies
and whatever ports are listed, apart from profiles: those belong to it just if none of
them names another switch in its text. -/
theorem submits_ofSwitch_iff {switchId : Nat} {config : Config}
    (fits : switchId < countOfBits 32) :
    (∀ polls, (run ⟨switchId, polls⟩ config).Submits (OthersOfSwitch switchId) ∧
      ∀ interfaces, (initInterfaces ⟨switchId, polls⟩ config interfaces).run.Submits
        (OthersOfSwitch switchId)) ∧
    ((∀ polls, (run ⟨switchId, polls⟩ config).Submits (OfSwitch switchId) ∧
      ∀ interfaces, (initInterfaces ⟨switchId, polls⟩ config interfaces).run.Submits
        (OfSwitch switchId)) ↔
      ∀ node ∈ config.globals, ∀ profile ∈ node.profiles, profile.StaysOn switchId) := by
  refine ⟨fun polls => ?_, fun submits => ?_, fun stay polls => ?_⟩
  · refine @submits_of_profiles ⟨switchId, polls⟩ fits (OthersOfSwitch switchId) config
      (fun batch own operation member _ => own operation member) fun _ _ profile _ => ?_
    refine Scheduler.submits_createProfile.mono
      fun batch adding operation member other => ?_
    rcases adding operation member with ⟨-, -, _, rfl, isOf⟩
    exact absurd isOf other
  · have resolved : (resolveAll []).run.Ends Memory.responder (.new 0)
      (.ok []) (.new 0) := rfl
    have rest := ((submits 0).2 []).rest resolved
    exact (@submits_createAllProfiles_iff ⟨switchId, 0⟩ {} fits config.globals).mp
      rest.of_bind.of_bind
  · refine @submits_of_profiles ⟨switchId, polls⟩ fits (OfSwitch switchId) config
      (fun _ own => own) ?_
    exact fun node member profile isProfile =>
      (@Scheduler.submits_createProfile_iff profile ⟨switchId⟩ fits).mpr
        (stay node member profile isProfile)

def switchNamed (switchId : Int) : Config :=
  let profile : ProfileNode :=
    { tag := "fair", attrs := ⟨[("switch-id", .int switchId)]⟩ }
  ⟨[.globals
    { maps := [{ mapType := .dot1pToTc, tag := "trust" }], profiles := [profile] }]⟩

theorem submits_ofSwitch_iff_named :
    0 < countOfBits 32 ∧ (run ⟨0, 3⟩ (switchNamed 0)).Submits (OfSwitch 0) := by
  have fits : 0 < countOfBits 32 := by decide
  have stay : ∀ node ∈ (switchNamed 0).globals, ∀ profile ∈ node.profiles,
      profile.StaysOn 0 := by
    simp only [switchNamed, Config.globals, List.filterMap_cons, List.filterMap_nil,
      List.forall_mem_singleton]
    rintro profile - text given
    cases given
    decide +kernel
  exact ⟨fits, ((submits_ofSwitch_iff fits).2.mpr stay 3).1⟩

/-- The profile that is submitted for switch 0 belongs to switch 7. -/
theorem submits_ofSwitch_refuted :
    (switchNamed 7).fault? = none ∧
      ¬(run ⟨0, 3⟩ (switchNamed 7)).Submits (OfSwitch 0) ∧
      ∃ state object, (run ⟨0, 3⟩ (switchNamed 7)).SubmitsAt Memory.responder (.new 0)
          [⟨.create, object⟩] state ∧
        object.classPath = ObjectClass.schedulerProfile.path ∧
        ObjectClass.schedulerProfile.decode "switch-id" object =
          .ok (some (.uint 7)) := by
  let object := ObjectClass.schedulerProfile.assemble
    [("switch-id", Storage.uint32.word 7), ("switch-id", Storage.uint32.word 0)]
  obtain ⟨state, submitted⟩ : ∃ state,
    (run ⟨0, 3⟩ (switchNamed 7)).SubmitsAt Memory.responder
      (.new 0) [⟨.create, object⟩] state := ⟨_, _, .transact .here⟩
  have isOf : object.classPath = ObjectClass.schedulerProfile.path := rfl
  have decoded : ObjectClass.schedulerProfile.decode "switch-id" object =
    .ok (some (.uint 7)) := rfl
  refine ⟨rfl, fun submits => ?_, state, object, submitted, isOf, decoded⟩
  have own := ofSwitch_singleton.mp (submits.allowed_of_submitsAt submitted)
  cases decoded.symm.trans (own.decode_eq isOf)

end Provisioner

end SwitchQos
