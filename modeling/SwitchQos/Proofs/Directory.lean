import SwitchQos.Directory

namespace SwitchQos

/-! Laws of directories that concern the list of rows and not only look-ups:
which rows a look-up can find, what is left after rows were dropped, how a new key
changes the rows, and that an ordered directory is known by what it finds. -/

namespace Directory

variable {Key Value : Type}

section Reading

variable [DecidableEq Key]

theorem findRow_eq_none_iff {key : Key} {rows : List (Key × Value)} :
    findRow key rows = none ↔ key ∉ rows.map (·.1) := by
  induction rows with
  | nil => simp [findRow]
  | cons row rest induction =>
      rcases row with ⟨other, kept⟩
      by_cases same : other = key
      · simp [findRow, same]
      · simp [findRow, same, induction, Ne.symm same]

theorem mem_keys_iff {directory : Directory Key Value} {key : Key} :
    key ∈ directory.keys ↔ directory.get? key ≠ none := by
  rw [get?, ne_eq, findRow_eq_none_iff, Decidable.not_not, keys]

theorem findRow_append (key : Key) (left right : List (Key × Value)) :
    findRow key (left ++ right) = (findRow key left).or (findRow key right) := by
  induction left with
  | nil => rfl
  | cons row rest induction =>
      rcases row with ⟨other, kept⟩
      by_cases same : other = key <;> simp [findRow, same, induction]

theorem findRow_of_mem {key : Key} {value : Value} {rows : List (Key × Value)}
    (distinct : (rows.map (·.1)).Nodup) (member : (key, value) ∈ rows) :
    findRow key rows = some value := by
  induction rows with
  | nil => cases member
  | cons row rest induction =>
      rcases row with ⟨other, kept⟩
      rw [List.map_cons, List.nodup_cons] at distinct
      rcases List.mem_cons.mp member with same | later
      · cases same
        simp [findRow]
      · have different : other ≠ key := by
          rintro rfl
          exact distinct.1 (List.mem_map_of_mem (f := (·.1)) later)
        simp [findRow, different, induction distinct.2 later]

theorem findRow_filter (keep : Key → Bool) (key : Key) (rows : List (Key × Value)) :
    findRow key (rows.filter fun row => keep row.1) =
      if keep key then findRow key rows else none := by
  induction rows with
  | nil => simp [findRow]
  | cons row rest induction =>
      rcases row with ⟨other, kept⟩
      by_cases same : other = key
      · subst same
        cases kept : keep other with
        | true => simp [findRow, kept]
        | false => simpa [kept] using induction
      · cases kept : keep other <;> simp [findRow, kept, same, induction]

theorem findRow_map {Other : Type} (transform : Value → Other) (key : Key)
    (rows : List (Key × Value)) :
    findRow key (rows.map fun row => (row.1, transform row.2)) =
      (findRow key rows).map transform := by
  induction rows with
  | nil => rfl
  | cons row rest induction =>
      by_cases same : row.1 = key <;> simp [findRow, same, induction]

end Reading

section Writing

variable [DecidableEq Key] [LT Key] [DecidableLT Key]

theorem insertRow_perm {key : Key} (value : Value) {rows : List (Key × Value)}
    (absent : findRow key rows = none) :
    (insertRow key value rows).Perm ((key, value) :: rows) := by
  induction rows with
  | nil => exact .refl _
  | cons row rest induction =>
      rcases row with ⟨other, kept⟩
      have different : other ≠ key := by
        intro same
        simp [findRow, same] at absent
      have absentBehind : findRow key rest = none := by
        simpa [findRow, different] using absent
      by_cases before : key < other
      · simp [insertRow, different, before]
      · simp only [insertRow, different, before, if_false]
        exact ((induction absentBehind).cons _).trans (.swap _ _ _)

theorem mem_insertRow {key : Key} {value : Value} {row : Key × Value}
    {rows : List (Key × Value)} (member : row ∈ insertRow key value rows) :
    row = (key, value) ∨ row ∈ rows := by
  induction rows with
  | nil => exact .inl (List.mem_singleton.mp member)
  | cons first rest induction =>
      rw [insertRow] at member
      split at member
      · exact (List.mem_cons.mp member).imp_right (List.mem_cons_of_mem _)
      · split at member
        · exact List.mem_cons.mp member
        · rcases List.mem_cons.mp member with rfl | later
          · exact .inr List.mem_cons_self
          · exact (induction later).imp_right (List.mem_cons_of_mem _)

end Writing

/-! ## Order -/

def Ordered [LT Key] (directory : Directory Key Value) : Prop :=
  directory.rows.Pairwise fun left right => left.1 < right.1

instance [LT Key] [DecidableLT Key] (directory : Directory Key Value) :
    Decidable directory.Ordered :=
  inferInstanceAs (Decidable (List.Pairwise _ _))

section Order

variable [DecidableEq Key] [LT Key] [DecidableLT Key] [LE Key] [Std.IsLinearOrder Key]
  [Std.LawfulOrderLT Key]

theorem Ordered.insert {directory : Directory Key Value} (ordered : directory.Ordered)
    (key : Key) (value : Value) : (directory.insert key value).Ordered := by
  rcases directory with ⟨rows⟩
  simp only [Ordered, Directory.insert] at ordered ⊢
  induction ordered with
  | nil => exact List.pairwise_singleton _ _
  | @cons first rest above others induction =>
      rw [insertRow]
      split
      · rename_i same
        rw [same] at above
        exact .cons above others
      · rename_i different
        split
        · rename_i before
          refine .cons (fun row member => ?_) (.cons above others)
          rcases List.mem_cons.mp member with rfl | later
          · exact before
          · exact Std.lt_trans before (above row later)
        · rename_i notBefore
          refine .cons (fun row member => ?_) induction
          rcases mem_insertRow member with rfl | old
          · exact (Std.lt_trichotomy first.1 key).resolve_right
              (not_or.mpr ⟨different, notBefore⟩)
          · exact above row old

theorem Ordered.insertAll {directory : Directory Key Value} (ordered : directory.Ordered)
    (added : Directory Key Value) : (directory.insertAll added).Ordered := by
  rcases added with ⟨rows⟩
  rw [Directory.insertAll]
  induction rows with
  | nil => exact ordered
  | cons row rest induction => exact induction.insert row.1 row.2

end Order

section Extensionality

variable [DecidableEq Key] [LT Key] [LE Key] [Std.IsLinearOrder Key]
  [Std.LawfulOrderLT Key]

omit [Std.IsLinearOrder Key] in
private theorem findRow_of_below {key : Key} {rows : List (Key × Value)}
    (below : ∀ row ∈ rows, key < row.1) : findRow key rows = none := by
  refine findRow_eq_none_iff.mpr fun member => ?_
  rcases List.mem_map.mp member with ⟨row, rowMember, rfl⟩
  exact Std.lt_irrefl (below row rowMember)

private theorem not_lt_first {row first : Key × Value} {rest : List (Key × Value)}
    (above : ∀ later ∈ rest, first.1 < later.1)
    (found : findRow row.1 (first :: rest) = some row.2) : ¬row.1 < first.1 := by
  intro less
  have missed : findRow row.1 (first :: rest) = none := by
    refine findRow_of_below fun later member => ?_
    rcases List.mem_cons.mp member with rfl | behind
    · exact less
    · exact Std.lt_trans less (above later behind)
  rw [missed] at found
  cases found

private theorem rows_eq_of_findRow_eq {left right : List (Key × Value)}
    (leftOrdered : left.Pairwise fun first second => first.1 < second.1)
    (rightOrdered : right.Pairwise fun first second => first.1 < second.1)
    (same : ∀ key, findRow key left = findRow key right) : left = right := by
  have found : ∀ (row : Key × Value) rest, findRow row.1 (row :: rest) = some row.2 :=
    fun row rest => if_pos rfl
  induction leftOrdered generalizing right with
  | nil =>
      cases right with
      | nil => rfl
      | cons other others => cases (same other.1).trans (found other others)
  | @cons first rest above _ induction =>
      cases rightOrdered with
      | nil => cases (same first.1).symm.trans (found first rest)
      | @cons other others otherAbove othersOrdered =>
          have sameKey : first.1 = other.1 := by
            have notBefore :=
              not_lt_first otherAbove ((same first.1).symm.trans (found first rest))
            have notBehind :=
              not_lt_first above ((same other.1).trans (found other others))
            exact ((Std.lt_trichotomy first.1 other.1).resolve_left
              notBefore).resolve_right notBehind
          have sameValue : first.2 = other.2 := by
            have value := (found first rest).symm.trans (same first.1)
            rw [sameKey, found] at value
            exact Option.some.inj value
          have sameRest : rest = others := by
            refine induction othersOrdered fun key => ?_
            by_cases isFirst : first.1 = key
            · subst isFirst
              rw [findRow_of_below above, sameKey, findRow_of_below otherAbove]
            · have isOther : ¬other.1 = key := sameKey ▸ isFirst
              simpa [findRow, isFirst, isOther] using same key
          rw [Prod.ext sameKey sameValue, sameRest]

theorem Ordered.ext {left right : Directory Key Value} (leftOrdered : left.Ordered)
    (rightOrdered : right.Ordered) (same : ∀ key, left.get? key = right.get? key) :
    left = right := by
  rcases left with ⟨leftRows⟩
  rcases right with ⟨rightRows⟩
  exact congrArg _ (rows_eq_of_findRow_eq leftOrdered rightOrdered same)

end Extensionality

/-! ## Writing again -/

section Rewriting

variable [DecidableEq Key] [LT Key] [DecidableLT Key]

def writes (directory : Directory Key Value) (rows : List (Key × Value)) :
    Directory Key Value :=
  rows.foldl (fun written row => written.insert row.1 row.2) directory

theorem insertAll_eq_writes (directory added : Directory Key Value) :
    directory.insertAll added = directory.writes added.rows.reverse := by
  rw [insertAll, writes, List.foldl_reverse]

theorem writes_append (directory : Directory Key Value)
    (first second : List (Key × Value)) :
    directory.writes (first ++ second) = (directory.writes first).writes second :=
  List.foldl_append

theorem get?_writes {rows : List (Key × Value)} (distinct : (rows.map (·.1)).Nodup)
    (directory : Directory Key Value) (key : Key) :
    (directory.writes rows).get? key = (findRow key rows).or (directory.get? key) := by
  induction rows generalizing directory with
  | nil => rfl
  | cons row rest induction =>
      rcases row with ⟨other, value⟩
      rw [List.map_cons, List.nodup_cons] at distinct
      have step : directory.writes ((other, value) :: rest) =
          (directory.insert other value).writes rest := rfl
      rw [step, induction distinct.2, get?_insert, findRow]
      split
      · rename_i same
        subst same
        rw [findRow_eq_none_iff.mpr distinct.1]
        rfl
      · rfl

theorem get?_ofRows {rows : List (Key × Value)}
    (distinct : (rows.map (·.1)).Nodup) (key : Key) :
    (ofRows rows).get? key = findRow key rows :=
  (get?_writes distinct empty key).trans Option.or_none

theorem insertRow_insertRow_self (key : Key) (first second : Value)
    (rows : List (Key × Value)) :
    insertRow key second (insertRow key first rows) = insertRow key second rows := by
  induction rows with
  | nil => simp [insertRow]
  | cons row rest induction =>
      rcases row with ⟨other, kept⟩
      by_cases same : other = key
      · simp [insertRow, same]
      · by_cases before : key < other
        · simp [insertRow, same, before]
        · simp [insertRow, same, before, induction]

variable [LE Key] [Std.IsLinearOrder Key] [Std.LawfulOrderLT Key]

private theorem insertRow_comm_of_lt {left right : Key} (less : left < right)
    (leftValue rightValue : Value) (rows : List (Key × Value)) :
    insertRow left leftValue (insertRow right rightValue rows) =
      insertRow right rightValue (insertRow left leftValue rows) := by
  have notGreater : ¬right < left :=
    fun greater => Std.lt_irrefl (Std.lt_trans less greater)
  have different : left ≠ right := fun same => Std.lt_irrefl (same ▸ less)
  induction rows with
  | nil => simp [insertRow, less, notGreater, different, different.symm]
  | cons row rest induction =>
      rcases row with ⟨other, kept⟩
      by_cases isLeft : other = left
      · subst isLeft
        simp [insertRow, notGreater, different]
      · by_cases isRight : other = right
        · subst isRight
          simp [insertRow, less, notGreater, different, different.symm]
        · -- Both keys come to stand before `other`, behind it, or one on each side.
          by_cases behind : right < other
          · have alsoBehind := Std.lt_trans less behind
            simp [insertRow, isLeft, isRight, behind, alsoBehind, less,
              notGreater, different, different.symm]
          · by_cases between : left < other
            · simp [insertRow, isLeft, isRight, behind, between, notGreater, different]
            · simp [insertRow, isLeft, isRight, behind, between, induction]

theorem insertRow_comm {left right : Key} (different : left ≠ right)
    (leftValue rightValue : Value) (rows : List (Key × Value)) :
    insertRow left leftValue (insertRow right rightValue rows) =
      insertRow right rightValue (insertRow left leftValue rows) := by
  rcases Std.lt_trichotomy left right with less | same | greater
  · exact insertRow_comm_of_lt less leftValue rightValue rows
  · exact absurd same different
  · exact (insertRow_comm_of_lt greater rightValue leftValue rows).symm

theorem writes_insert (directory : Directory Key Value) {key : Key} (value : Value)
    {rows : List (Key × Value)} (covered : key ∈ rows.map (·.1)) :
    (directory.insert key value).writes rows = directory.writes rows := by
  induction rows generalizing directory with
  | nil => cases covered
  | cons row rest induction =>
      rcases row with ⟨other, later⟩
      have step (before : Directory Key Value) :
          before.writes ((other, later) :: rest) =
            (before.insert other later).writes rest := rfl
      rw [step, step]
      by_cases same : other = key
      · subst same
        simp only [insert, insertRow_insertRow_self]
      · have behind : key ∈ rest.map (·.1) :=
          (List.mem_cons.mp covered).resolve_left (Ne.symm same)
        rw [← induction (directory.insert other later) behind]
        simp only [insert, insertRow_comm same]

theorem writes_writes (directory : Directory Key Value)
    {earlier later : List (Key × Value)}
    (covered : ∀ row ∈ earlier, row.1 ∈ later.map (·.1)) :
    (directory.writes earlier).writes later = directory.writes later := by
  induction earlier generalizing directory with
  | nil => rfl
  | cons row rest induction =>
      have others := induction (directory.insert row.1 row.2) fun other member =>
        covered other (List.mem_cons_of_mem _ member)
      exact others.trans (writes_insert directory row.2 (covered row List.mem_cons_self))

end Rewriting

end Directory

end SwitchQos
