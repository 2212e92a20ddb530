import SwitchQos.Proofs.MapEntry.Authoring
import SwitchQos.Proofs.Provision.Tasks
import SwitchQos.Provision.MapTable

namespace SwitchQos

/-! A session on a table stages entries call by call and then commits them as one
batch. What the calls have been given decides, apart from any store, which changes the
batch asks for and in which order: all additions, then all modifications, then all
removals, each in the order of the calls. -/

abbrev EntryValues := List (String × AttrValue)

/-! ## Sessions -/

structure Edit where
  verb : Verb
  entry : AuthoredEntry
  range : Option IntRange := none
  deriving DecidableEq, Repr

namespace Edit

def arity (edit : Edit) : EntryArity :=
  match edit.verb with
  | .create | .set => .full
  | .delete => .keys

def values (edit : Edit) (mapType : MapType) : Except CodecError (List EntryValues) := do
  let entries ← edit.entry.expand mapType edit.range edit.arity
  entries.mapM mapType.authoredValues

theorem mem_required_of_isKey (edit : Edit) {mapType : MapType} {field : String}
    (isKey : field ∈ mapType.keyFields) : field ∈ edit.arity.required mapType := by
  rcases edit with ⟨verb, entry, range⟩
  cases verb with
  | create | set => exact MapType.mem_fields_of_mem_keyFields isKey
  | delete => exact isKey

theorem required_of_ne_delete {edit : Edit} (kept : edit.verb ≠ .delete)
    (mapType : MapType) :
    edit.arity.required mapType = mapType.fields := by
  rcases edit with ⟨verb, entry, range⟩
  cases verb with
  | create | set => rfl
  | delete => exact absurd rfl kept

end Edit

def MapTable.stage (table : MapTable) (edit : Edit) : Except ProvisionError MapTable :=
  match edit.verb with
  | .create => (table.add edit.entry edit.range).map (·.2)
  | .set => (table.modify edit.entry edit.range).map (·.2)
  | .delete => (table.remove edit.entry edit.range).map (·.2)

/-- A change to a single entry. A removal may leave out all fields that are no keys. -/
structure Change where
  verb : Verb
  values : EntryValues
  deriving DecidableEq

namespace MapType

def valuesFor (mapType : MapType) (verb : Verb) (edits : List Edit) :
    Except CodecError (List EntryValues) := do
  let calls := edits.filter fun edit => edit.verb = verb
  let lists ← calls.mapM fun edit => edit.values mapType
  .ok lists.flatten

def changes (mapType : MapType) (edits : List Edit) :
    Except CodecError (List Change) := do
  let added ← mapType.valuesFor .create edits
  let modified ← mapType.valuesFor .set edits
  let removed ← mapType.valuesFor .delete edits
  .ok (added.map (Change.mk .create) ++ modified.map (Change.mk .set) ++
    removed.map (Change.mk .delete))

theorem valuesFor_cons_eq_ok_iff {mapType : MapType} {verb : Verb} {edit : Edit}
    {edits : List Edit} {values : List EntryValues} (own : edit.verb = verb) :
    mapType.valuesFor verb (edit :: edits) = .ok values ↔
      ∃ first others, edit.values mapType = .ok first ∧
        mapType.valuesFor verb edits = .ok others ∧ values = first ++ others := by
  simp only [valuesFor, own, List.filter_cons, decide_true, if_true, List.mapM_cons,
    Results.bind_eq_ok_iff, Except.ok.injEq]
  constructor
  · rintro ⟨_, ⟨first, firstGiven, others, othersGiven, same⟩, rfl⟩
    cases same
    exact ⟨first, _, firstGiven, ⟨others, othersGiven, rfl⟩, rfl⟩
  · rintro ⟨first, _, firstGiven, ⟨others, othersGiven, rfl⟩, rfl⟩
    exact ⟨first :: others, ⟨first, firstGiven, others, othersGiven, rfl⟩, rfl⟩

theorem valuesFor_cons_of_ne {mapType : MapType} {verb : Verb} {edit : Edit}
    {edits : List Edit} (other : edit.verb ≠ verb) :
    mapType.valuesFor verb (edit :: edits) = mapType.valuesFor verb edits := by
  simp [valuesFor, other]

end MapType

/-! ## Staged objects -/

/-- The operation says what is to be changed: its object carries the values, and all of
them unless an entry is removed. -/
structure TableAddress.Expresses (address : TableAddress) (id : Nat) (change : Change)
    (operation : Operation) : Prop where
  verb : operation.verb = change.verb
  carries : address.Carries id change.values operation.object
  full : change.verb ≠ .delete → change.values.map (·.1) = address.mapType.fields

theorem TableAddress.expresses_entryObjects {address : TableAddress} {id : Nat}
    (hasId : address.id = some id) {edit : Edit} {objects : List StoreObject}
    (built : address.entryObjects edit.entry edit.range edit.arity = .ok objects) :
    ∃ values, edit.values address.mapType = .ok values ∧
      List.Forall₂ (fun values object =>
        address.Expresses id ⟨edit.verb, values⟩ ⟨edit.verb, object⟩) values objects := by
  rw [entryObjects, Results.bind_eq_ok_iff] at built
  rcases built with ⟨entries, expanded, built⟩
  have given := AuthoredEntry.fields_of_expand expanded
  rw [Edit.values, expanded, Results.ok_bind]
  have related := Results.mapM_eq_ok_iff.mp built
  clear expanded built
  induction related with
  | nil => exact ⟨[], rfl, .nil⟩
  | @cons fields object _ _ first _ induction =>
      rcases induction fun fields member =>
        given fields (List.mem_cons_of_mem _ member) with
        ⟨others, parsed, related⟩
      rcases given fields List.mem_cons_self with ⟨ordered, required⟩
      rcases carries_of_entryObject hasId ordered
        (fun field isKey => required field (edit.mem_required_of_isKey isKey)) first with
          ⟨values, parses, names, carries⟩
      refine ⟨values :: others, ?_, .cons ⟨rfl, carries, fun kept => ?_⟩ related⟩
      · exact Results.mapM_eq_ok_iff.mpr (.cons parses (Results.mapM_eq_ok_iff.mp parsed))
      · rw [Edit.required_of_ne_delete kept] at required
        exact names.trans (ordered.eq_of_length_le
          (List.Nodup.length_le_of_subset address.mapType.fields_nodup required))

namespace MapTable

variable {table staged : MapTable} {edit : Edit} {edits : List Edit} {verb : Verb}

def stagedFor (table : MapTable) : Verb → List StoreObject
  | .create => table.created
  | .set => table.modified
  | .delete => table.deleted

theorem batch_eq (table : MapTable) :
    table.batch = (table.stagedFor .create).map (Operation.mk .create) ++
      (table.stagedFor .set).map (Operation.mk .set) ++
        (table.stagedFor .delete).map (Operation.mk .delete) := rfl

theorem length_batch (table : MapTable) : table.batch.length = table.staged := by
  simp [batch, MapTable.staged, Nat.add_assoc]

theorem stagedFor_of_cleared (unstaged : table.cleared = table) :
    table.stagedFor verb = [] := by
  rw [← unstaged]
  cases verb <;> rfl

theorem stage_eq_ok (stages : table.stage edit = .ok staged) :
    staged.cleared = table.cleared ∧
      ∃ objects, table.address.entryObjects edit.entry edit.range
        edit.arity = .ok objects ∧
        ∀ verb, staged.stagedFor verb =
          table.stagedFor verb ++ if edit.verb = verb then objects else [] := by
  rcases edit with ⟨own, entry, range⟩
  cases own with
  | create | set | delete =>
      simp only [stage, add, modify, remove, Results.map_eq_ok_iff,
        Results.bind_eq_ok_iff, Results.mapError_eq_ok_iff, Except.ok.injEq] at stages
      rcases stages with ⟨_, ⟨objects, built, rfl⟩, rfl⟩
      refine ⟨rfl, objects, built, fun verb => ?_⟩
      cases verb <;> simp [stagedFor]

theorem address_of_cleared (same : staged.cleared = table.cleared) :
    staged.address = table.address ∧ staged.id = table.id := by
  rcases staged with ⟨mapType, switchId, id, created, modified, deleted⟩
  rcases table with ⟨otherType, otherSwitch, otherId, otherCreated,
    otherModified, otherDeleted⟩
  simp only [cleared, MapTable.mk.injEq, and_true] at same
  rcases same with ⟨rfl, rfl, rfl⟩
  exact ⟨rfl, rfl⟩

/-- After a session every verb has had staged what its calls ask for, in their order. -/
theorem expresses_stagedFor (session : edits.foldlM stage table = .ok staged) :
    staged.cleared = table.cleared ∧
      ∀ verb, ∃ values objects, table.mapType.valuesFor verb edits = .ok values ∧
        List.Forall₂ (fun values object =>
          table.address.Expresses table.id ⟨verb, values⟩ ⟨verb, object⟩) values objects ∧
        staged.stagedFor verb = table.stagedFor verb ++ objects := by
  -- The table changes with every call, but not its address, which the objects depend on.
  induction edits generalizing table with
  | nil =>
      cases session
      exact ⟨rfl, fun verb => ⟨[], [], rfl, .nil, (List.append_nil _).symm⟩⟩
  | cons edit rest induction =>
      rw [List.foldlM_cons, Results.bind_eq_ok_iff] at session
      rcases session with ⟨next, stages, session⟩
      rcases stage_eq_ok stages with ⟨kept, objects, built, appended⟩
      rcases induction session with ⟨keptLater, later⟩
      rcases address_of_cleared kept with ⟨sameAddress, sameId⟩
      have sameType : next.mapType = table.mapType :=
        congrArg TableAddress.mapType sameAddress
      rcases TableAddress.expresses_entryObjects rfl built with ⟨own, given, expressed⟩
      refine ⟨keptLater.trans kept, fun verb => ?_⟩
      rcases later verb with ⟨others, otherObjects, othersGiven,
        othersExpressed, stagedLater⟩
      rw [sameType] at othersGiven
      rw [sameAddress, sameId] at othersExpressed
      rw [stagedLater, appended verb, List.append_assoc]
      by_cases isOwn : edit.verb = verb
      · subst isOwn
        exact ⟨own ++ others, objects ++ otherObjects,
          (MapType.valuesFor_cons_eq_ok_iff rfl).mpr
            ⟨own, others, given, othersGiven, rfl⟩,
          List.rel_append expressed othersExpressed, by simp⟩
      · refine ⟨others, otherObjects, ?_, othersExpressed, by simp [isOwn]⟩
        rw [MapType.valuesFor_cons_of_ne isOwn]
        exact othersGiven

/-- The batch of a session expresses its changes one by one. -/
theorem expresses_batch (unstaged : table.cleared = table)
    (session : edits.foldlM stage table = .ok staged) :
    staged.cleared = table ∧ ∃ changes, table.mapType.changes edits = .ok changes ∧
      List.Forall₂ (table.address.Expresses table.id) changes staged.batch := by
  rcases expresses_stagedFor session with ⟨kept, expressed⟩
  -- For one verb the objects that are staged become operations with this verb.
  have operations : ∀ verb, ∃ values, table.mapType.valuesFor verb edits = .ok values ∧
      List.Forall₂ (table.address.Expresses table.id) (values.map (Change.mk verb))
        ((staged.stagedFor verb).map (Operation.mk verb)) := by
    intro verb
    rcases expressed verb with ⟨values, objects, given, related, same⟩
    rw [stagedFor_of_cleared unstaged, List.nil_append] at same
    rw [same]
    exact ⟨values, given, List.forall₂_map_left_iff.mpr
      (List.forall₂_map_right_iff.mpr related)⟩
  rcases operations .create with ⟨added, addedGiven, additions⟩
  rcases operations .set with ⟨modified, modifiedGiven, modifications⟩
  rcases operations .delete with ⟨removed, removedGiven, removals⟩
  have together : table.mapType.changes edits = .ok (added.map (Change.mk .create) ++
      modified.map (Change.mk .set) ++ removed.map (Change.mk .delete)) := by
    rw [MapType.changes, addedGiven, Results.ok_bind, modifiedGiven,
      Results.ok_bind, removedGiven, Results.ok_bind]
  rw [batch_eq]
  exact ⟨kept.trans unstaged, _, together,
    List.rel_append (List.rel_append additions modifications) removals⟩

/-! ## Committing -/

section Committing

variable {State : Type} {responder : Responder State} {before after : State}

theorem commit_accepted {answers : List StoreObject} (kept : staged.cleared = table)
    (accepted : responder.transact staged.batch before = (.ok answers, after))
    (nothing : staged.batch = [] → after = before) :
    staged.commit.run.Ends responder before (.ok table) after := by
  rw [commit]
  by_cases empty : staged.staged = 0
  · have none : staged.batch = [] :=
      List.eq_nil_of_length_eq_zero (staged.length_batch.trans empty)
    have same : staged.cleared = staged := by
      simp only [batch, List.append_eq_nil_iff, List.map_eq_nil_iff] at none
      rcases none with ⟨⟨noneCreated, noneModified⟩, noneDeleted⟩
      rcases staged with ⟨mapType, switchId, id, created, modified, deleted⟩
      simp only [cleared] at noneCreated noneModified noneDeleted ⊢
      rw [noneCreated, noneModified, noneDeleted]
    rw [if_pos empty, nothing none, ← kept, same]
    exact Task.ends_pure _
  · rw [if_neg empty, ← kept]
    exact Task.ends_bind (Task.ends_transact accepted) (Task.ends_pure _)

theorem commit_rejected {error : StoreError} (some : staged.batch ≠ [])
    (refused : responder.transact staged.batch before = (.error error, after)) :
    staged.commit.run.Ends responder before
      (.error (.transactionFailed staged.name error.message)) after := by
  have isStaged : ¬staged.staged = 0 := by
    rw [← length_batch]
    exact fun none => some (List.eq_nil_of_length_eq_zero none)
  rw [commit, if_neg isStaged]
  exact Task.ends_bind_iff.mpr (.inr ⟨_, Task.ends_transact_refused refused, rfl⟩)

end Committing

end MapTable

end SwitchQos
