import SwitchQos.Proofs.Provision.MapUpdates
import SwitchQos.Proofs.Provision.TableDeletion

namespace SwitchQos

/-! Tables stay finite maps, whatever else is done to the store meanwhile. Where clients
of one switch have made the tables and entries of a type, all entries of a stored table
have their values, and no two of them have the same key. -/

namespace Contents

variable {contents : Contents} {table : MapTable}

section Kept

variable (kept : contents.ClientKept table.mapType table.switchId)

include kept

theorem ClientKept.exists_stores {stored : StoreObject}
    (isEntry : stored ∈ contents.entriesOf table.mapType table.object)
    (room : table.id < countOfBits 64) :
    ∃ values, table.address.Stores table.id values stored := by
  rcases mem_entriesOf_iff.mp isEntry with ⟨member, belongs⟩
  rcases MapTable.belongsTo_object_iff.mp belongs with ⟨isOf, hasId⟩
  have own := mem_mapPart_iff.mpr ⟨member, isOfMap_of_classPath (.inr rfl) isOf⟩
  rcases kept.entries stored own isOf with ⟨id, values, stores⟩
  have sameWord := Option.some.inj (stores.id.symm.trans hasId)
  have sameId := @Storage.word_injective .uint64 rfl _ _ stores.room room sameWord
  subst sameId
  exact ⟨values, stores⟩

theorem ClientKept.pairwise_entriesOf :
    (contents.entriesOf table.mapType table.object).Pairwise fun earlier later =>
      ¬addressed (.mapEntry table.mapType) later earlier = true := by
  refine kept.distinct_entriesOf.imp_of_mem fun {earlier later} _ isLater apart hit => ?_
  rcases kept.key_of_entry isLater with ⟨key, found⟩
  have identified := (StoreObject.entity?_eq_some_iff.mp found).2
  exact apart _ ((addressed_of_identity? identified).mp hit) found

theorem ClientKept.exists_tabulates (has : table.IsStoredIn contents) :
    ∃ rows, contents.Tabulates table rows := by
  rcases kept.isStoredIn_iff.mp has with ⟨template, isStored⟩
  rcases MapTable.template_eq_ok_iff.mp template with ⟨legacyFits, room, -⟩
  choose! rowOf stores using fun stored
    (isEntry : stored ∈ contents.entriesOf table.mapType table.object) =>
      kept.exists_stores isEntry room
  have entries : List.Forall₂ (table.address.Stores table.id)
      ((contents.entriesOf table.mapType table.object).map rowOf)
      (contents.entriesOf table.mapType table.object) := by
    rw [List.forall₂_map_left_iff, List.forall₂_same]
    exact stores
  refine ⟨_, ⟨room, legacyFits,
    ⟨table.object, ?_, MapTable.agreesWith_object_self⟩, entries⟩,
    ?_, fun stored isEntry hasId => ?_⟩
  · exact mem_ofClass_iff.mpr ⟨isStored, MapTable.classPath_object⟩
  · exact (TableAddress.pairwise_addressed_iff entries).mp kept.pairwise_entriesOf
  · rwa [(kept.plain (.inr rfl) isEntry).lookup] at hasId

end Kept

end Contents

/-- Whatever has happened since a table was created, with other tables of its type and
with all other objects, it is a finite map as long as it is stored. -/
theorem Memory.ClientMade.exists_tabulates {memory : Memory} {table : MapTable}
    (made : memory.ClientMade table.mapType table.switchId)
    (has : table.IsStoredIn memory.contents) :
    ∃ rows, memory.contents.Tabulates table rows :=
  made.kept.exists_tabulates has

end SwitchQos
