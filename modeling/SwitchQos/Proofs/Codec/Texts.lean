import SwitchQos.Proofs.Codec.Attributes

namespace SwitchQos

/-! Configuration text that was stored reads back as the value it was parsed to. -/

namespace Storage

theorem parse_eq_ok {storage : Storage} {attr text : String} {value : AttrValue}
    (parsed : storage.parse attr text = .ok value) :
    ∃ number, storage.Holds number ∧ value = storage.native number := by
  rw [parse] at parsed
  split at parsed
  · split at parsed
    · cases parsed
    · split at parsed
      · rename_i number _ _ holds
        cases parsed
        exact ⟨number, holds, rfl⟩
      · cases parsed
  · cases parsed

end Storage

namespace AttrSpec

theorem canonical_of_parse {spec : AttrSpec} {attr text : String} {value : AttrValue}
    (parsed : spec.parse attr text = .ok value) : spec.canonical value = value := by
  cases kind : spec.kind with
  | scalar =>
      simp only [AttrSpec.parse, kind] at parsed
      rcases Storage.parse_eq_ok parsed with ⟨number, holds, rfl⟩
      simp only [canonical, kind, Storage.asInt?_native holds]
  | symbol family | list | entries => simp [canonical, kind]

end AttrSpec

namespace ObjectClass

variable {objectClass : ObjectClass} {attr text : String} {stored : StoreValue}

theorem encodeText_eq_ok_iff :
    objectClass.encodeText attr text = .ok stored ↔
      ∃ value, objectClass.parseText attr text = .ok value ∧
        objectClass.encode attr value = .ok stored := by
  rw [encodeText, Results.bind_eq_ok_iff]

theorem has_of_parseText {value : AttrValue}
    (parsed : objectClass.parseText attr text = .ok value) : objectClass.Has attr := by
  rw [parseText, Results.bind_eq_ok_iff] at parsed
  rcases parsed with ⟨spec, found, -⟩
  exact .of_spec? (spec_eq_ok_iff.mp found)

theorem decode_parsed_iff {value : AttrValue}
    (parsed : objectClass.parseText attr text = .ok value) {object : StoreObject} :
    objectClass.decode attr object = .ok (some value) ↔
      ∃ stored, object.lookup (objectClass.pathOf attr) = some stored ∧
        objectClass.encode attr value = .ok stored := by
  rw [parseText, Results.bind_eq_ok_iff] at parsed
  rcases parsed with ⟨spec, specified, parsed⟩
  have found := spec_eq_ok_iff.mp specified
  simp only [decode_eq_some_iff found, AttrSpec.canonical_of_parse parsed, and_true,
    encode_eq_ok_iff found]

end ObjectClass

end SwitchQos
