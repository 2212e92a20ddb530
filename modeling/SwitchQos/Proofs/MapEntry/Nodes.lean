import SwitchQos.Config.Basic
import SwitchQos.Proofs.MapEntry.Authoring

namespace SwitchQos

/-! What the entries of a map node author together: the values of every entry that
their expansion gives, in order. -/

/-- The values of all entries, those a wildcard stands for included. -/
def MapNode.authored (node : MapNode) :
    Except CodecError (List (List (String × AttrValue))) := do
  let expanded ← node.entries.mapM fun entry =>
    entry.authored.expand node.mapType node.range .full
  expanded.flatten.mapM node.mapType.authoredValues

def MapType.Encodes (mapType : MapType)
    (authored : List (List (String × AttrValue))) : Prop :=
  ∀ values ∈ authored, ∀ value ∈ values, ∃ stored,
    (ObjectClass.mapEntry mapType).encode value.1 value.2 = .ok stored

namespace TableAddress

variable {address : TableAddress} {id : Nat}

private theorem exists_objects (hasId : address.id = some id) (room : id < countOfBits 64)
    (legacyFits : address.mapType.isLegacy = true → address.switchId < countOfBits 32)
    {entries : List EntryFields} {authored : List (List (String × AttrValue))}
    (names : ∀ fields ∈ entries, fields.map (·.1) = address.mapType.fields)
    (parses : entries.mapM address.mapType.authoredValues = .ok authored)
    (encodes : address.mapType.Encodes authored) :
    ∃ objects, entries.mapM address.entryObject = .ok objects ∧
      List.Forall₂ (address.Stores id) authored objects := by
  have related := Results.mapM_eq_ok_iff.mp parses
  clear parses
  induction related with
  | nil => exact ⟨[], rfl, .nil⟩
  | @cons fields values _ _ first _ induction =>
      rcases exists_entryObject hasId room legacyFits first
        (encodes values List.mem_cons_self) with ⟨object, built⟩
      rcases stores_of_entryObject hasId
        (names fields List.mem_cons_self) built with ⟨given, parsed, stores⟩
      rw [first] at parsed
      cases parsed
      rcases induction
        (fun fields member => names fields (List.mem_cons_of_mem _ member))
        (fun values member => encodes values (List.mem_cons_of_mem _ member)) with
          ⟨objects, built', each⟩
      refine ⟨object :: objects, ?_, .cons stores each⟩
      exact Results.mapM_eq_ok_iff.mpr (.cons built (Results.mapM_eq_ok_iff.mp built'))

private theorem exists_authored (hasId : address.id = some id)
    {entries : List EntryFields}
    (names : ∀ fields ∈ entries, fields.map (·.1) = address.mapType.fields)
    {objects : List StoreObject}
    (built : entries.mapM address.entryObject = .ok objects) :
    ∃ authored, entries.mapM address.mapType.authoredValues = .ok authored ∧
      List.Forall₂ (address.Stores id) authored objects := by
  have related := Results.mapM_eq_ok_iff.mp built
  clear built
  induction related with
  | nil => exact ⟨[], rfl, .nil⟩
  | @cons fields object _ _ first _ induction =>
      rcases stores_of_entryObject hasId (names fields List.mem_cons_self) first with
        ⟨values, parses, stores⟩
      rcases induction fun fields member =>
        names fields (List.mem_cons_of_mem _ member) with
        ⟨others, otherParses, each⟩
      exact ⟨values :: others, Results.mapM_eq_ok_iff.mpr
        (.cons parses (Results.mapM_eq_ok_iff.mp otherParses)), .cons stores each⟩

theorem exists_nodeObjects {node : MapNode} (sameType : address.mapType = node.mapType)
    (hasId : address.id = some id) (room : id < countOfBits 64)
    (legacyFits : address.mapType.isLegacy = true → address.switchId < countOfBits 32)
    {authored : List (List (String × AttrValue))} (expands : node.authored = .ok authored)
    (encodes : node.mapType.Encodes authored) :
    ∃ lists, (node.entries.mapM fun entry =>
        address.entryObjects entry.authored node.range .full) = .ok lists ∧
      List.Forall₂ (address.Stores id) authored lists.flatten := by
  rw [← sameType] at encodes
  rw [MapNode.authored, Results.bind_eq_ok_iff, ← sameType] at expands
  rcases expands with ⟨expanded, expands, parses⟩
  have related := Results.mapM_eq_ok_iff.mp expands
  clear expands
  generalize node.entries = entries at related ⊢
  induction related generalizing authored with
  | nil =>
      cases parses
      exact ⟨[], rfl, .nil⟩
  | @cons entry fields _ _ first _ induction =>
      rw [List.flatten_cons, List.mapM_append, Results.bind_eq_ok_iff] at parses
      rcases parses with ⟨own, ownParses, parses⟩
      rcases Results.bind_eq_ok_iff.mp parses with ⟨others, otherParses, same⟩
      cases same
      rcases exists_objects hasId room legacyFits
        (AuthoredEntry.names_of_expand first) ownParses
        fun values member => encodes values (List.mem_append_left _ member) with
          ⟨objects, built, stores⟩
      rcases induction
        (fun values member => encodes values (List.mem_append_right _ member))
        otherParses with
          ⟨lists, otherBuilt, otherStores⟩
      refine ⟨objects :: lists, Results.mapM_eq_ok_iff.mpr (.cons ?_
        (Results.mapM_eq_ok_iff.mp otherBuilt)), List.rel_append stores otherStores⟩
      rw [entryObjects, first, Results.ok_bind, built]

theorem stores_nodeObjects {node : MapNode} (sameType : address.mapType = node.mapType)
    (hasId : address.id = some id) {lists : List (List StoreObject)}
    (built : (node.entries.mapM fun entry =>
      address.entryObjects entry.authored node.range .full) = .ok lists) :
    ∃ authored, node.authored = .ok authored ∧
      List.Forall₂ (address.Stores id) authored lists.flatten := by
  have related := Results.mapM_eq_ok_iff.mp built
  clear built
  rw [MapNode.authored, ← sameType]
  generalize node.entries = entries at related ⊢
  induction related with
  | nil => exact ⟨[], rfl, .nil⟩
  | @cons entry objects rest _ first _ induction =>
      rcases induction with ⟨others, parses, stores⟩
      rcases Results.bind_eq_ok_iff.mp parses with ⟨expanded, expands, parses⟩
      rcases Results.bind_eq_ok_iff.mp first with ⟨fields, expand, first⟩
      rcases exists_authored hasId (AuthoredEntry.names_of_expand expand) first with
        ⟨own, ownParses, ownStores⟩
      refine ⟨own ++ others, ?_, List.rel_append ownStores stores⟩
      rw [List.mapM_cons, expand, Results.ok_bind, expands, Results.ok_bind]
      exact (List.mapM_append ..).trans (by rw [ownParses, Results.ok_bind, parses]; rfl)

end TableAddress

end SwitchQos
