import SwitchQos.Proofs.Provision.MapTables
import SwitchQos.Proofs.Provision.Staging

namespace SwitchQos

/-! Entries of one map node may cover the same key, above all when one of them holds
the wildcard. Nothing in a run resolves such an overlap: all entries are created in
one batch, and the store refuses a second entry for a key. So a later entry cannot
take precedence over an earlier one, and the map fails as a whole; without overlap
every key has the one entry that was authored for it. -/

/-- Each covered key is read back once, with the target of the last entry authored
for it. -/
def MapType.Overrides (mapType : MapType) (authored : List (List (String × AttrValue)))
    (entries : List DecodedEntry) : Prop :=
  ∀ covered ∈ authored, ∃ entry last,
    entries.filter (fun entry =>
      mapType.keyOf entry.fields = mapType.keyOf covered) = [entry] ∧
      (authored.filter fun values =>
        mapType.keyOf values = mapType.keyOf covered).getLast? = some last ∧
      mapType.targetOf entry.fields = mapType.targetOf last

/-! ## Staging and submitting -/

namespace MapTable

variable {State : Type} {responder : Responder State} {before after : State}
  {table : MapTable}

theorem foldlM_add {entries : List EntryNode} {range : Option IntRange}
    {lists : List (List StoreObject)}
    (expanded : (entries.mapM fun entry =>
      table.address.entryObjects entry.authored range .full) = .ok lists) :
    entries.foldlM (fun table entry => (table.add entry.authored range).map (·.2)) table =
      .ok { table with created := table.created ++ lists.flatten } := by
  induction entries generalizing table lists with
  | nil =>
      cases expanded
      simp [pure, Except.pure]
  | cons entry rest induction =>
      rw [List.mapM_cons, Results.bind_eq_ok_iff] at expanded
      rcases expanded with ⟨objects, first, expanded⟩
      rcases Results.bind_eq_ok_iff.mp expanded with ⟨others, later, same⟩
      cases same
      have added : (table.add entry.authored range).map (·.2) =
          .ok { table with created := table.created ++ objects } := by
        rw [add, first]
        rfl
      have others := @induction { table with created := table.created ++ objects } _ later
      rw [List.foldlM_cons, added, Results.ok_bind, others, List.flatten_cons,
        List.append_assoc]

theorem foldlM_add_eq_ok {entries : List EntryNode} {range : Option IntRange}
    {staged : MapTable} (added : entries.foldlM
      (fun table entry => (table.add entry.authored range).map (·.2)) table =
      .ok staged) :
    ∃ lists, (entries.mapM fun entry =>
        table.address.entryObjects entry.authored range .full) = .ok lists ∧
      staged = { table with created := table.created ++ lists.flatten } := by
  induction entries generalizing table with
  | nil =>
      cases added
      exact ⟨[], rfl, by simp⟩
  | cons entry rest induction =>
      rw [List.foldlM_cons, Results.bind_eq_ok_iff] at added
      rcases added with ⟨middle, first, others⟩
      rcases Results.map_eq_ok_iff.mp first with ⟨_, extended, rfl⟩
      rcases Results.bind_eq_ok_iff.mp extended with ⟨objects, expanded, same⟩
      cases same
      rcases induction others with ⟨lists, built, rfl⟩
      refine ⟨objects :: lists, Results.mapM_eq_ok_iff.mpr (.cons
        (Results.mapError_eq_ok_iff.mp expanded) (Results.mapM_eq_ok_iff.mp built)), ?_⟩
      simp

theorem batch_of_created (unstaged : table.cleared = table) (entries : List StoreObject) :
    MapTable.batch { table with created := entries } =
      entries.map (Operation.mk .create) := by
  have none : ∀ verb, table.stagedFor verb = [] := fun _ => stagedFor_of_cleared unstaged
  have modified : table.modified = [] := none .set
  have deleted : table.deleted = [] := none .delete
  simp [batch, modified, deleted]

theorem commit_ends {entries answers : List StoreObject}
    (unstaged : table.cleared = table)
    (accepted : responder.transact (entries.map (Operation.mk .create)) before =
      (.ok answers, after)) (nothing : entries = [] → after = before) :
    MapTable.commit { table with created := entries } |>.run.Ends responder
      before (.ok table)
      after := by
  rw [← batch_of_created unstaged] at accepted
  refine commit_accepted unstaged accepted fun none => nothing ?_
  rw [batch_of_created unstaged] at none
  exact List.map_eq_nil_iff.mp none

theorem commit_refused {entries : List StoreObject} {error : StoreError}
    (unstaged : table.cleared = table) (some : entries ≠ [])
    (refused : responder.transact (entries.map (Operation.mk .create)) before =
      (.error error, after)) :
    ∃ fault, (MapTable.commit { table with created := entries }).run.Ends responder before
      (.error fault) after := by
  rw [← batch_of_created unstaged] at refused
  refine ⟨_, commit_rejected ?_ refused⟩
  rw [batch_of_created unstaged]
  exact fun none => some (List.map_eq_nil_iff.mp none)

end MapTable

/-! ## The phase of one map -/

namespace Provisioner

variable {State : Type} {responder : Responder State} {before after : State}
  {provisioner : Provisioner} {node : MapNode}

theorem initGlobals_single_ends (names : Names)
    (provisionable : node.mapType.isProvisionable = true)
    {result : Except ProvisionError Nat}
    (ends : (provisioner.createMap node).run.Ends responder before result after) :
    ∃ names', (provisioner.initGlobals names { maps := [node] }).Ends responder before
      (⟨"switch globals", [.ofResult (node.mapType.name ++ " " ++ node.tag) result]⟩,
        names') after := by
  simp only [initGlobals, createMaps, if_pos provisionable]
  exact ⟨_, Exchange.Ends.bind (Exchange.Ends.bind ends rfl) rfl⟩

section Creation

variable {memory : Memory} {authored : List (List (String × AttrValue))}
  {entries : List StoreObject}

def nextTable (provisioner : Provisioner) (node : MapNode) (memory : Memory) : MapTable :=
  { mapType := node.mapType, switchId := provisioner.switchId,
    id := memory.contents.nextId }

theorem createMap_ends (unruled : memory.rules = [])
    (fresh : memory.contents.FreshFor node.mapType)
    (legacyFits : node.mapType.isLegacy = true → provisioner.switchId < countOfBits 32)
    (expands : node.authored = .ok authored) (encodes : node.mapType.Encodes authored) :
    ∃ entries, List.Forall₂
        ((provisioner.nextTable node memory).address.Stores memory.contents.nextId)
        authored entries ∧
      ((authored.map node.mapType.keyOf).Nodup →
        (provisioner.createMap node).run.Ends Memory.responder memory
          (.ok memory.contents.nextId)
          (memory.withTable (provisioner.nextTable node memory) entries)) ∧
      (¬(authored.map node.mapType.keyOf).Nodup →
        ∃ fault, (provisioner.createMap node).run.Ends Memory.responder
          memory (.error fault)
          (memory.withTable (provisioner.nextTable node memory) [])) := by
  have isNext : (provisioner.nextTable node memory).id = memory.contents.nextId := rfl
  have unstaged : (provisioner.nextTable node memory).cleared =
    provisioner.nextTable node memory := rfl
  have sameType : (provisioner.nextTable node memory).address.mapType =
    node.mapType := rfl
  rcases TableAddress.exists_nodeObjects sameType rfl fresh.room
    legacyFits expands encodes with ⟨lists, expanded, stores⟩
  have created := Memory.create_ends isNext fresh unruled unstaged legacyFits
  have staged := MapTable.foldlM_add expanded
  rcases Memory.transact_createEntries isNext fresh unruled stores with
    ⟨accepted, refused⟩
  refine ⟨lists.flatten, stores, fun distinct => ?_, fun clash => ?_⟩
  · have accepts : Memory.responder.transact _ _ = _ := accepted distinct
    have committed :=
      MapTable.commit_ends unstaged accepts (by rintro nothing; rw [nothing])
    rw [createMap]
    exact Task.ends_bind created (Task.ends_bind (Task.ends_done staged)
      (Task.ends_bind committed (Task.ends_pure _)))
  · rcases refused clash with ⟨reason, rejected⟩
    have some : lists.flatten ≠ [] := by
      intro nothing
      rw [nothing] at stores
      cases stores
      exact clash .nil
    have rejects : Memory.responder.transact _ _ = _ := rejected
    rcases MapTable.commit_refused unstaged some rejects with ⟨fault, failed⟩
    refine ⟨fault, ?_⟩
    rw [createMap]
    exact Task.ends_bind created (Task.ends_bind (Task.ends_done staged)
      (Task.ends_bind_iff.mpr (.inr ⟨fault, failed, rfl⟩)))

end Creation

end Provisioner

/-! ## Precedence -/

private theorem filter_key_eq_singleton {Item Key : Type} [DecidableEq Key]
    {key : Item → Key} {items : List Item} (distinct : (items.map key).Nodup)
    {item : Item} (member : item ∈ items) :
    (items.filter fun other => key other = key item) = [item] := by
  induction items with
  | nil => cases member
  | cons first rest induction =>
      rw [List.map_cons, List.nodup_cons] at distinct
      rcases List.mem_cons.mp member with rfl | later
      · have others : (rest.filter fun other => key other = key item) = [] := by
          refine List.filter_eq_nil_iff.mpr fun other otherMember same => distinct.1 ?_
          rw [← of_decide_eq_true same]
          exact List.mem_map_of_mem otherMember
        simp [others]
      · have different : ¬key first = key item := by
          intro same
          rw [same] at distinct
          exact distinct.1 (List.mem_map_of_mem later)
        simp [different, induction distinct.2 later]

theorem MapType.overrides_of_nodup {mapType : MapType}
    {authored : List (List (String × AttrValue))}
    (distinct : (authored.map mapType.keyOf).Nodup) (id : Option Nat) :
    mapType.Overrides authored (authored.map fun values => ⟨id, values⟩) := by
  intro covered member
  have single := filter_key_eq_singleton distinct member
  refine ⟨⟨id, covered⟩, covered, ?_, by rw [single]; rfl, rfl⟩
  rw [List.filter_map]
  exact congrArg _ single

namespace Provisioner

/-- An entry for a key that an earlier entry covers does not take precedence: a map
is applied, and every key reads back with its last target, exactly when no two
expanded entries have the same key. Then all of them are read back in order; else
the map fails and its table stays empty. -/
theorem initGlobals_overrides_iff {provisioner : Provisioner}
    {node : MapNode} {names : Names} {memory : Memory}
    {authored : List (List (String × AttrValue))}
    (provisionable : node.mapType.isProvisionable = true)
    (switchFits : provisioner.switchId < countOfBits 32)
    (unruled : memory.rules = []) (available : memory.unavailable = 0)
    (fresh : memory.contents.FreshFor node.mapType)
    (expands : node.authored = .ok authored) (encodes : node.mapType.Encodes authored) :
    ∃ phase names' after entries,
      (provisioner.initGlobals names { maps := [node] }).Ends Memory.responder memory
        (phase, names') after ∧
      (provisioner.nextTable node memory).read.run.Ends Memory.responder
        after (.ok entries) after ∧
      ((phase.outcomes = [.applied (node.mapType.name ++ " " ++ node.tag)] ∧
          node.mapType.Overrides authored entries) ↔
        (authored.map node.mapType.keyOf).Nodup) ∧
      ((authored.map node.mapType.keyOf).Nodup →
        entries = authored.map fun values => ⟨some memory.contents.nextId, values⟩) ∧
      (¬(authored.map node.mapType.keyOf).Nodup →
        ∃ fault, phase.outcomes = [.failed (node.mapType.name ++ " " ++ node.tag) fault] ∧
          entries = []) := by
  have isNext : (provisioner.nextTable node memory).id = memory.contents.nextId := rfl
  rcases createMap_ends unruled fresh (fun _ => switchFits)
    expands encodes with ⟨objects, stores, applies, fails⟩
  by_cases distinct : (authored.map node.mapType.keyOf).Nodup
  · rcases initGlobals_single_ends names provisionable
      (applies distinct) with ⟨names', ends⟩
    have read := Memory.read_ends isNext fresh stores available fun _ => switchFits
    refine ⟨_, names', _, _, ends, read, ?_, fun _ => rfl, fun clash =>
      absurd distinct clash⟩
    exact ⟨fun _ => distinct, fun _ => ⟨rfl, MapType.overrides_of_nodup distinct _⟩⟩
  · rcases fails distinct with ⟨fault, failed⟩
    rcases initGlobals_single_ends names provisionable failed with ⟨names', ends⟩
    have nothing : List.Forall₂ ((provisioner.nextTable node memory).address.Stores
        (provisioner.nextTable node memory).id) [] [] := .nil
    have read := Memory.read_ends isNext fresh nothing available fun _ => switchFits
    refine ⟨_, names', _, _, ends, read, ?_, fun clear => absurd clear distinct,
      fun _ => ⟨fault, rfl, rfl⟩⟩
    refine ⟨fun applied => ?_, fun clear => absurd clear distinct⟩
    have impossible := applied.1
    simp [Outcome.ofResult, Outcome.applied, Outcome.failed] at impossible

def wildcardThenSpecific (greatest : Int) : MapNode :=
  { mapType := .dot1pToTc, tag := "dot1p", least := some 0, greatest := some greatest,
    entries := [.positional [.text "all", .int 0],
      .named ⟨[("dot1p", .int 5), ("tc", .int 5)]⟩] }

/-- A range that ends below the priority that is given a class of its own. -/
theorem initGlobals_overrides_apart :
    let authored : List (List (String × AttrValue)) :=
      [[("dot1p", .uint 0), ("tc", .uint 0)], [("dot1p", .uint 1), ("tc", .uint 0)],
       [("dot1p", .uint 5), ("tc", .uint 5)]]
    (wildcardThenSpecific 1).authored = .ok authored ∧
      MapType.dot1pToTc.Encodes authored ∧
      (Memory.new 0).contents.FreshFor .dot1pToTc ∧
      ∃ phase names' after,
        (initGlobals ⟨0, 0⟩ {} { maps := [wildcardThenSpecific 1] }).Ends Memory.responder
          (Memory.new 0) (phase, names') after ∧
        phase.outcomes = [.applied "dot1p-to-tc-map dot1p"] ∧
        (MapTable.read ⟨.dot1pToTc, 0, 4096, [], [], []⟩).run.Ends Memory.responder after
          (.ok (authored.map fun values => ⟨some 4096, values⟩)) after := by
  intro authored
  have expands : (wildcardThenSpecific 1).authored = .ok authored := rfl
  have encodes : MapType.dot1pToTc.Encodes authored := by
    intro values member value inValues
    simp only [authored, List.mem_cons, List.not_mem_nil, or_false] at member
    rcases member with rfl | rfl | rfl <;>
      simp only [List.mem_cons, List.not_mem_nil, or_false] at inValues <;>
      rcases inValues with rfl | rfl <;> exact ⟨_, rfl⟩
  have fresh : (Memory.new 0).contents.FreshFor .dot1pToTc :=
    ⟨by decide, fun stored member => by cases member⟩
  rcases @initGlobals_overrides_iff ⟨0, 0⟩ _ {} _ _ rfl (by decide) rfl rfl
    fresh expands encodes
      with ⟨phase, names', after, entries, ends, read, appliedIff, inOrder, -⟩
  have distinct : (authored.map MapType.dot1pToTc.keyOf).Nodup := by decide
  rw [inOrder distinct] at read
  exact ⟨expands, encodes, fresh, phase, names', after, ends,
    (appliedIff.mpr distinct).1, read⟩

/-- A range that contains the priority: the second entry for it is refused. -/
theorem initGlobals_overrides_refuted :
    ((initGlobals ⟨0, 0⟩ {} { maps := [wildcardThenSpecific 7] }).run Memory.responder
        (Memory.new 0)).1.map (fun result => result.1.outcomes) =
      some [.failed "dot1p-to-tc-map dot1p" (.transactionFailed "dot1p-to-tc-map 0x1000"
        "transaction rejected: base-qos/dot1p-to-tc-map/entry already exists")] := by
  decide +kernel

end Provisioner

end SwitchQos
