import SwitchQos.Proofs.Provision.ProfileCreation

namespace SwitchQos

/-! What a scheduler profile has that is made of configuration text: for each attribute
what its text encodes to, and beside that only the switch and, if the text leaves it out,
an id from the store. -/

namespace ObjectClass

variable {objectClass : ObjectClass} {attr text : String} {stored : StoreValue}
  {spec : AttrSpec}

theorem encodeText_natural (found : objectClass.spec? attr = some spec)
    (natural : spec.IsNatural) :
    objectClass.encodeText attr text = .ok stored ↔ ∃ number,
      objectClass.parseText attr text = .ok (.uint number) ∧
      number < spec.storage.modulus ∧
        stored = spec.storage.word number := by
  rw [encodeText_eq_ok_iff]
  constructor
  · rintro ⟨value, parsed, encoded⟩
    let object :=
      (StoreObject.new objectClass.path).insert (objectClass.pathOf attr) stored
    have kept : object.lookup (objectClass.pathOf attr) = some stored :=
      StoreObject.get?_insert_self _ _ _
    have read := (decode_parsed_iff parsed).mpr ⟨stored, kept, encoded⟩
    rcases decode_natural found natural read with ⟨number, rfl⟩
    rw [encode_eq_ok_iff found, AttrSpec.encode_uint_eq_ok_iff natural] at encoded
    exact ⟨number, parsed, encoded⟩
  · rintro ⟨number, parsed, fits⟩
    refine ⟨_, parsed, ?_⟩
    rwa [encode_eq_ok_iff found, AttrSpec.encode_uint_eq_ok_iff natural]

end ObjectClass

namespace ProfileNode

variable {node : ProfileNode} {switchId : Nat} {profile : Authored} {attr path : String}
  {value : StoreValue}

/-- The text that is given for an attribute. Of several texts the last one counts. -/
def text? (node : ProfileNode) (attr : String) : Option String :=
  Directory.findRow attr node.attrTexts.rows.reverse

def written? (node : ProfileNode) (attr : String) : Option StoreValue :=
  (node.text? attr).bind fun text =>
    (ObjectClass.schedulerProfile.encodeText attr text).toOption

private theorem findRow_of_texts {texts : List (String × String)}
    {rows : List (String × StoreValue)}
    (related : List.Forall₂ (fun text row => row.1 = text.1 ∧
      ObjectClass.schedulerProfile.encodeText text.1 text.2 = .ok row.2) texts rows) :
    Directory.findRow attr rows = (Directory.findRow attr texts).bind fun text =>
      (ObjectClass.schedulerProfile.encodeText attr text).toOption := by
  induction related with
  | nil => rfl
  | @cons text row _ _ encoded _ induction =>
      rcases text with ⟨own, content⟩
      rcases row with ⟨_, stored⟩
      rcases encoded with ⟨rfl, encoded⟩
      rw [Directory.findRow, Directory.findRow]
      split
      · rename_i same
        subst same
        exact (congrArg Except.toOption encoded).symm
      · exact induction

private theorem exists_encoded_of_texts {text : String} {texts : List (String × String)}
    {rows : List (String × StoreValue)}
    (related : List.Forall₂ (fun text row => row.1 = text.1 ∧
      ObjectClass.schedulerProfile.encodeText text.1 text.2 = .ok row.2) texts rows)
    (given : Directory.findRow attr texts = some text) :
    ∃ stored, ObjectClass.schedulerProfile.encodeText attr text = .ok stored := by
  induction related with
  | nil => cases given
  | @cons own row _ _ encoded _ induction =>
      rw [Directory.findRow] at given
      split at given
      · rename_i same
        cases given
        exact ⟨row.2, same ▸ encoded.2⟩
      · exact induction given

theorem exists_encoded (built : schedulerProfile switchId node.attrTexts = .ok profile)
    {text : String} (given : node.text? attr = some text) :
    ∃ stored, ObjectClass.schedulerProfile.encodeText attr text = .ok stored := by
  rcases Results.bind_eq_ok_iff.mp built with ⟨data, started, written⟩
  rcases onSwitch_eq_ok_iff.mp started with ⟨-, rfl⟩
  rcases Authored.setTexts_eq_ok_iff.mp written with ⟨rows, related, -⟩
  exact exists_encoded_of_texts (List.rel_reverse related) given

theorem exists_rows (built : schedulerProfile switchId node.attrTexts = .ok profile) :
    ∃ rows, profile.data = ObjectClass.schedulerProfile.assemble
        (rows ++ [("switch-id", Storage.uint32.word switchId)]) ∧
      switchId < countOfBits 32 ∧ (∀ row ∈ rows, ObjectClass.schedulerProfile.Has row.1) ∧
      ∀ attr, Directory.findRow attr rows = node.written? attr := by
  rcases Results.bind_eq_ok_iff.mp built with ⟨data, started, written⟩
  rcases onSwitch_eq_ok_iff.mp started with ⟨fits, rfl⟩
  rcases Authored.setTexts_eq_ok_iff.mp written with ⟨rows, related, rfl⟩
  refine ⟨rows.reverse, rfl, fits, fun row member => ?_, fun attr =>
    findRow_of_texts (List.rel_reverse related)⟩
  rcases Results.exists_left related (List.mem_reverse.mp member) with
    ⟨text, -, same, encoded⟩
  rcases ObjectClass.encodeText_eq_ok_iff.mp encoded with ⟨value, parsed, -⟩
  exact same ▸ ObjectClass.has_of_parseText parsed

/-- The switch that is named by the text comes before the one that is given. -/
theorem get?_of_built (built : schedulerProfile switchId node.attrTexts = .ok profile)
    (has : ObjectClass.schedulerProfile.Has attr) :
    profile.data.get? (ObjectClass.schedulerProfile.pathOf attr) = (node.written? attr).or
      (if attr = "switch-id" then some (Storage.uint32.word switchId) else none) := by
  rcases exists_rows built with ⟨rows, assembled, -, hasAll, written⟩
  rw [assembled, ObjectClass.get?_assemble has, Directory.findRow_append, written]
  · simp only [Directory.findRow, eq_comm]
  · intro row member
    rcases List.mem_append.mp member with own | shared
    · exact hasAll row own
    · cases List.mem_singleton.mp shared
      rfl

theorem path_of_built (built : schedulerProfile switchId node.attrTexts = .ok profile)
    (kept : profile.data.get? path = some value) :
    ∃ attr, ObjectClass.schedulerProfile.Has attr ∧
      path = ObjectClass.schedulerProfile.pathOf attr := by
  rcases exists_rows built with ⟨rows, assembled, -, hasAll, -⟩
  rw [assembled] at kept
  rcases ObjectClass.mem_of_get?_assemble kept with ⟨row, member, rfl, -⟩
  rcases List.mem_append.mp member with own | shared
  · exact ⟨row.1, hasAll row own, rfl⟩
  · cases List.mem_singleton.mp shared
    exact ⟨"switch-id", rfl, rfl⟩

theorem id_of_built (built : schedulerProfile switchId node.attrTexts = .ok profile)
    (kept : profile.data.get? profileIdPath = some value) :
    ∃ id, id < countOfBits 64 ∧ value = Storage.uint64.word id := by
  have found : ObjectClass.schedulerProfile.spec? "id" = some (.scalar .uint64) := rfl
  rw [profileIdPath, get?_of_built built (.of_spec? found),
    if_neg (by decide), Option.or_none]
    at kept
  rcases Option.bind_eq_some_iff.mp kept with ⟨text, -, encoded⟩
  cases result : ObjectClass.schedulerProfile.encodeText "id" text with
  | error cause => simp [result, Except.toOption] at encoded
  | ok stored =>
      rw [result] at encoded
      cases encoded
      rcases (ObjectClass.encodeText_natural found ⟨rfl, rfl⟩).mp
        result with ⟨id, -, fits⟩
      exact ⟨id, fits⟩

end ProfileNode

structure StoreObject.Renders (switchId : Nat) (node : ProfileNode) (id : Nat)
    (stored : StoreObject) : Prop where
  plain : stored.IsPlain
  classPath : stored.classPath = ObjectClass.schedulerProfile.path
  fits : id < countOfBits 64
  hasId : stored.get? profileIdPath = some (Storage.uint64.word id)
  attrs : ∃ profile, schedulerProfile switchId node.attrTexts = .ok profile ∧
    ∀ path, path ≠ profileIdPath → stored.get? path = profile.data.get? path

section Renders

variable {switchId id : Nat} {node : ProfileNode} {profile : Authored}
  {stored : StoreObject} {contents : Contents}

/-- A profile has as its attributes, switch and id aside, just what its texts encode
to. -/
theorem StoreObject.Renders.get?_eq (renders : stored.Renders switchId node id)
    {attr : String} (has : ObjectClass.schedulerProfile.Has attr)
    (other : attr ≠ "switch-id" ∧ attr ≠ "id") :
    stored.get? (ObjectClass.schedulerProfile.pathOf attr) = node.written? attr := by
  rcases renders.attrs with ⟨profile, built, same⟩
  rw [same _ (ObjectClass.pathOf_ne has (by decide) other.2),
    ProfileNode.get?_of_built built has, if_neg other.1, Option.or_none]

theorem StoreObject.Renders.path (renders : stored.Renders switchId node id)
    {path : String} {value : StoreValue} (kept : stored.get? path = some value) :
    ∃ attr, ObjectClass.schedulerProfile.Has attr ∧
      path = ObjectClass.schedulerProfile.pathOf attr := by
  rcases renders.attrs with ⟨profile, built, same⟩
  by_cases isId : path = profileIdPath
  · exact ⟨"id", by decide, isId⟩
  · exact ProfileNode.path_of_built built (same path isId ▸ kept)

theorem exists_renders (built : schedulerProfile switchId node.attrTexts = .ok profile)
    (completed : contents.completed? .schedulerProfile profile.data = some stored) :
    ∃ id, stored.Renders switchId node id := by
  rcases plain_schedulerProfile built with ⟨plain, isOf⟩
  have storedPlain := Contents.isPlain_of_completed? plain completed
  have storedOf := (Contents.classPath_of_completed? completed).trans isOf
  have hasId := Contents.id_of_completed? rfl completed
  rw [Contents.completed?] at completed
  -- The id comes from the store, or it is that which the texts give.
  split at completed
  · split at completed
    · rename_i room
      cases completed
      refine ⟨contents.nextId, storedPlain, storedOf, room,
        StoreObject.get?_insert_self _ _ _, profile, built, fun path apart =>
          StoreObject.get?_insert_of_ne _ (Ne.symm apart) _⟩
    · cases completed
  · cases completed
    rcases Option.isSome_iff_exists.mp hasId with ⟨value, isValue⟩
    rcases ProfileNode.id_of_built built isValue with ⟨id, fits, rfl⟩
    exact ⟨id, storedPlain, storedOf, fits, isValue, profile, built, fun _ _ => rfl⟩

end Renders

end SwitchQos
