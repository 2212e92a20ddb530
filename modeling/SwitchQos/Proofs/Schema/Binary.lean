import SwitchQos.Schema.Storage

namespace SwitchQos

/-! Writing a number as bytes and reading it back. A storage type has exactly one
form for each number it holds, and every run of bytes of its width is such a
form. -/

/-! ## Bytes -/

theorem countOfBits_pos (bits : Nat) : 0 < countOfBits bits := Nat.pow_pos (by decide)

theorem countOfBits_byte_succ (width : Nat) :
    countOfBits (8 * (width + 1)) = 256 * countOfBits (8 * width) := by
  have shape : 8 * (width + 1) = 8 * width + 8 := by omega
  rw [shape]
  exact (Nat.pow_add 2 (8 * width) 8).trans (Nat.mul_comm _ _)

theorem ofLittleEndian_littleEndian (width number : Nat) :
    ofLittleEndian (littleEndian width number) = number % countOfBits (8 * width) := by
  induction width generalizing number with
  | zero => exact (Nat.mod_one number).symm
  | succ width induction =>
      have lowest : (UInt8.ofNat (number % 256)).toNat = number % 256 := by
        rw [UInt8.toNat_ofNat']
        omega
      rw [littleEndian, ofLittleEndian, induction, lowest, countOfBits_byte_succ,
        Nat.mod_mul]

theorem ofLittleEndian_lt (bytes : List UInt8) :
    ofLittleEndian bytes < countOfBits (8 * bytes.length) := by
  induction bytes with
  | nil => exact countOfBits_pos 0
  | cons byte rest induction =>
      have bounded := byte.toNat_lt
      rw [List.length_cons, countOfBits_byte_succ, ofLittleEndian]
      omega

theorem littleEndian_ofLittleEndian (bytes : List UInt8) :
    littleEndian bytes.length (ofLittleEndian bytes) = bytes := by
  induction bytes with
  | nil => rfl
  | cons byte rest induction =>
      have bounded := byte.toNat_lt
      have lowest : (byte.toNat + 256 * ofLittleEndian rest) % 256 =
        byte.toNat := by omega
      have others : (byte.toNat + 256 * ofLittleEndian rest) / 256 =
          ofLittleEndian rest := by
        omega
      rw [List.length_cons, ofLittleEndian, littleEndian, lowest, others, induction,
        UInt8.ofNat_toNat]

/-! ## Storage types -/

namespace Storage

theorem length_write (storage : Storage) (number : Int) :
    (storage.write number).length = storage.width := length_littleEndian _ _

theorem holds_natCast_iff {storage : Storage} (unsigned : storage.isSigned = false)
    {number : Nat} : storage.Holds number ↔ number < storage.modulus := by
  simp only [Holds, least, greatest, unsigned]
  simp only [Bool.false_eq_true, if_false]
  omega

theorem modulus_even (storage : Storage) :
    2 * (storage.modulus / 2) = storage.modulus := by
  cases storage <;> decide

theorem read?_write {storage : Storage} {number : Int} (holds : storage.Holds number) :
    storage.read? (storage.write number) = some number := by
  have positive := countOfBits_pos (8 * storage.width)
  have unsigned : ofLittleEndian (storage.write number) =
      (number % storage.modulus).toNat := by
    rw [write, ofLittleEndian_littleEndian]
    have below := Int.emod_lt_of_pos number (Int.natCast_pos.mpr positive)
    apply Nat.mod_eq_of_lt
    simp only [modulus]
    omega
  rw [read?, length_write, if_pos rfl]
  simp only [unsigned]
  simp only [Holds, least, greatest] at holds
  cases signed : storage.isSigned with
  | false =>
      simp only [signed, Bool.false_eq_true, if_false, false_and] at holds ⊢
      have inRange : number % storage.modulus = number :=
        Int.emod_eq_of_lt holds.1 (by omega)
      rw [inRange, Int.toNat_of_nonneg holds.1]
  | true =>
      have even := storage.modulus_even
      simp only [signed, if_true, true_and] at holds ⊢
      by_cases negative : number < 0
      · have shifted : number % storage.modulus = number + storage.modulus := by
          rw [← Int.add_emod_right]
          exact Int.emod_eq_of_lt (by omega) (by omega)
        rw [shifted, if_pos (by omega)]
        congr 1
        omega
      · have inRange : number % storage.modulus = number :=
          Int.emod_eq_of_lt (by omega) (by omega)
        rw [inRange, if_neg (by omega)]
        congr 1
        omega

theorem write_of_read? {storage : Storage} {bytes : List UInt8} {number : Int}
    (read : storage.read? bytes = some number) :
    storage.Holds number ∧ storage.write number = bytes := by
  have bounded := ofLittleEndian_lt bytes
  rw [read?] at read
  split at read
  · rename_i width
    rw [width] at bounded
    have below : ofLittleEndian bytes < storage.modulus := bounded
    have written : ∀ value : Int, value % storage.modulus = ofLittleEndian bytes →
        storage.write value = bytes := by
      intro value same
      rw [write, same, ← width, Int.toNat_natCast, littleEndian_ofLittleEndian]
    simp only [Holds, least, greatest]
    cases signed : storage.isSigned with
    | false =>
        simp only [signed, Bool.false_eq_true, false_and, if_false,
          Option.some.injEq] at read
        refine ⟨?_, written number ?_⟩
        · simp only [Bool.false_eq_true, if_false]
          omega
        · rw [← read]
          exact Int.emod_eq_of_lt (by omega) (by omega)
    | true =>
        have even := storage.modulus_even
        simp only [signed, true_and] at read
        split at read
        · simp only [Option.some.injEq] at read
          refine ⟨by simp only [if_true]; omega, written number ?_⟩
          rw [← Int.add_emod_right, ← read, Int.sub_add_cancel]
          exact Int.emod_eq_of_lt (by omega) (by omega)
        · simp only [Option.some.injEq] at read
          refine ⟨by simp only [if_true]; omega, written number ?_⟩
          rw [← read]
          exact Int.emod_eq_of_lt (by omega) (by omega)
  · cases read

theorem write_injective {storage : Storage} {left right : Int}
    (leftHolds : storage.Holds left) (rightHolds : storage.Holds right)
    (same : storage.write left = storage.write right) :
    left = right := by
  have reads := read?_write leftHolds
  rw [same, read?_write rightHolds] at reads
  exact (Option.some.inj reads).symm

end Storage

end SwitchQos
