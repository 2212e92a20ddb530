import Mathlib.Data.List.Basic
import SwitchQos.Proofs.Text.Affixes
import SwitchQos.Schema.Storage
import SwitchQos.Schema.Symbol

namespace SwitchQos

/-! Within its family a symbol and its code determine each other. The colon at the
end of a key prefix keeps the families apart, because no family name has one. -/

namespace SymbolFamily

theorem mem_all (family : SymbolFamily) : family ∈ all := by
  cases family <;> decide

private theorem colon_not_mem_name (family : SymbolFamily) :
    ':' ∉ family.name.toList := by
  cases family <;> simp [name]

private theorem name_injective {left right : SymbolFamily}
    (same : left.name = right.name) :
    left = right := by
  cases left <;> cases right <;> simp_all [name]

private theorem members_nodup (family : SymbolFamily) : family.members.Nodup := by
  cases family <;> simp [members]

private theorem length_members (family : SymbolFamily) : family.members.length ≤ 4 := by
  cases family <;> decide

private theorem split_at_colon {left right leftRest rightRest : List Char}
    (leftClean : ':' ∉ left) (rightClean : ':' ∉ right)
    (same : left ++ ':' :: leftRest = right ++ ':' :: rightRest) :
    left = right ∧ leftRest = rightRest := by
  induction left generalizing right with
  | nil =>
      cases right with
      | nil => simpa using same
      | cons char right =>
          simp only [List.nil_append, List.cons_append, List.cons.injEq] at same
          exact absurd (same.1 ▸ List.mem_cons_self) rightClean
  | cons char left induction =>
      cases right with
      | nil =>
          simp only [List.nil_append, List.cons_append, List.cons.injEq] at same
          exact absurd (same.1 ▸ List.mem_cons_self) leftClean
      | cons other right =>
          simp only [List.cons_append, List.cons.injEq] at same
          have rest := induction (fun member => leftClean (List.mem_cons_of_mem _ member))
            (fun member => rightClean (List.mem_cons_of_mem _ member)) same.2
          exact ⟨by rw [same.1, rest.1], rest.2⟩

/-- A key belongs to one family only. -/
theorem keyPrefix_append_inj {left right : SymbolFamily} {leftName rightName : String}
    (same : left.keyPrefix ++ leftName = right.keyPrefix ++ rightName) :
    left = right ∧ leftName = rightName := by
  have chars := congrArg String.toList same
  simp only [keyPrefix, String.toList_append, List.append_assoc] at chars
  have behindRoot := List.append_cancel_left chars
  have parts := split_at_colon left.colon_not_mem_name right.colon_not_mem_name behindRoot
  exact ⟨name_injective (String.toList_injective parts.1),
    String.toList_injective parts.2⟩

end SymbolFamily

namespace SymbolTable

theorem mem_rows_iff {family : SymbolFamily} {name : String} {code : Nat} :
    (family.keyPrefix ++ name, code) ∈ rows ↔
      ∃ index, family.members[index]? = some name ∧ code = index + 1 := by
  simp only [rows, List.mem_flatMap, List.mem_map, Prod.mk.injEq]
  constructor
  · rintro ⟨owner, -, ⟨member, index⟩, listed, key, rfl⟩
    rcases SymbolFamily.keyPrefix_append_inj key with ⟨rfl, rfl⟩
    exact ⟨index, List.mem_zipIdx_iff_getElem?.mp listed, rfl⟩
  · rintro ⟨index, listed, rfl⟩
    exact ⟨family, family.mem_all, (name, index),
      List.mem_zipIdx_iff_getElem?.mpr listed, rfl, rfl⟩

end SymbolTable

namespace SymbolFamily

open SymbolTable

theorem encode_eq_ok_iff {family : SymbolFamily} {name : String} {code : Nat} :
    family.encode name = .ok code ↔
      ∃ index, family.members[index]? = some name ∧ code = index + 1 := by
  rw [encode, SymbolTable.encode, SymbolTable.code]
  constructor
  · intro found
    split at found
    · rename_i row located
      cases found
      have same : row.1 = family.keyPrefix ++ name := by
        simpa using List.find?_some located
      rw [← mem_rows_iff, ← same]
      exact List.mem_of_find?_eq_some located
    · cases found
  · rintro ⟨index, listed, rfl⟩
    have member := mem_rows_iff.mpr ⟨index, listed, rfl⟩
    split
    · rename_i row located
      have same : row.1 = family.keyPrefix ++ name := by
        simpa using List.find?_some located
      have rowMember := List.mem_of_find?_eq_some located
      rw [show row = (family.keyPrefix ++ name, row.2) from Prod.ext same
        rfl] at rowMember
      rcases mem_rows_iff.mp rowMember with ⟨other, otherListed, code⟩
      have equal := (List.getElem?_inj (List.getElem?_eq_some_iff.mp listed).1
        family.members_nodup).mp (listed.trans otherListed.symm)
      rw [code, equal]
    · rename_i missing
      exact absurd member fun member => by
        simpa using List.find?_eq_none.mp missing _ member

theorem symbol_eq_ok_iff {family : SymbolFamily} {name : String} {code : Nat} :
    family.symbol code = .ok name ↔ family.encode name = .ok code := by
  have located : ∀ found, rows.findSome? (fun row =>
      if row.2 = code then behind? family.keyPrefix row.1 else none) = some found →
      (family.keyPrefix ++ found, code) ∈ rows := by
    intro found hit
    rcases List.exists_of_findSome?_eq_some hit with ⟨row, member, inRow⟩
    split at inRow
    · rename_i same
      rw [← behind?_eq_some_iff.mp inRow, ← same]
      exact member
    · cases inRow
  rw [encode_eq_ok_iff, symbol, SymbolTable.symbol]
  constructor
  · intro found
    split at found
    · rename_i hit
      cases found
      exact mem_rows_iff.mp (located _ hit)
    · cases found
  · rintro ⟨index, listed, rfl⟩
    have member := mem_rows_iff.mpr ⟨index, listed, rfl⟩
    split
    · rename_i found hit
      rcases mem_rows_iff.mp (located found hit) with ⟨other, otherListed, same⟩
      obtain rfl : index = other := by omega
      rw [Option.some.inj (otherListed.symm.trans listed)]
    · rename_i missing
      have hidden := List.findSome?_eq_none_iff.mp missing _ member
      simp [behind?_eq_some_iff.mpr] at hidden

theorem code_lt {family : SymbolFamily} {name : String} {code : Nat}
    (encoded : family.encode name = .ok code) : code < countOfBits 32 := by
  rcases encode_eq_ok_iff.mp encoded with ⟨index, listed, rfl⟩
  have inside := (List.getElem?_eq_some_iff.mp listed).1
  have few := family.length_members
  have room : (5 : Nat) < countOfBits 32 := by decide
  omega

end SymbolFamily

end SwitchQos
