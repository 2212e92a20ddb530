namespace SwitchQos

/-! A directory holds one value per key and lists its rows in ascending key
order. Texts compare by code point, which is also the order of their UTF-8
bytes. The operations are total on any list of rows and look-ups find the first
row of a key, so a directory can stand inside a recursive type without carrying
a proof; the laws below hold for every directory, ordered or not. -/

structure Directory (Key Value : Type) where
  rows : List (Key × Value) := []
  deriving DecidableEq, Repr

namespace Directory

variable {Key Value : Type}

def empty : Directory Key Value := ⟨[]⟩

def size (directory : Directory Key Value) : Nat := directory.rows.length

def keys (directory : Directory Key Value) : List Key := directory.rows.map (·.1)

def map {Other : Type} (transform : Value → Other)
    (directory : Directory Key Value) : Directory Key Other :=
  ⟨directory.rows.map fun row => (row.1, transform row.2)⟩

/-! ## Reading -/

section Reading

variable [DecidableEq Key]

def findRow (key : Key) : List (Key × Value) → Option Value
  | [] => none
  | (other, value) :: rest => if other = key then some value else findRow key rest

def get? (directory : Directory Key Value) (key : Key) : Option Value :=
  findRow key directory.rows

def contains (directory : Directory Key Value) (key : Key) : Bool :=
  (directory.get? key).isSome

def erase (directory : Directory Key Value) (key : Key) : Directory Key Value :=
  ⟨directory.rows.filter fun row => row.1 ≠ key⟩

@[simp] theorem get?_empty (key : Key) :
    (empty : Directory Key Value).get? key = none := rfl

end Reading

/-! ## Writing -/

section Writing

variable [DecidableEq Key] [LT Key] [DecidableLT Key]

/-- Replace the row of `key`, or put a new row in front of the first row with a
greater key. -/
def insertRow (key : Key) (value : Value) : List (Key × Value) → List (Key × Value)
  | [] => [(key, value)]
  | (other, kept) :: rest =>
      if other = key then (key, value) :: rest
      else if key < other then (key, value) :: (other, kept) :: rest
      else (other, kept) :: insertRow key value rest

def insert (directory : Directory Key Value) (key : Key) (value : Value) :
    Directory Key Value :=
  ⟨insertRow key value directory.rows⟩

/-- Write every row of `added` over `directory`. Rows are written from the last
to the first, so the row that a look-up in `added` finds is the one that stays. -/
def insertAll (directory added : Directory Key Value) : Directory Key Value :=
  added.rows.foldr (fun row written => written.insert row.1 row.2) directory

def ofRows (rows : List (Key × Value)) : Directory Key Value :=
  rows.foldl (fun written row => written.insert row.1 row.2) empty

theorem findRow_insertRow (key wanted : Key) (value : Value) (rows : List (Key × Value)) :
    findRow wanted (insertRow key value rows) =
      if key = wanted then some value else findRow wanted rows := by
  induction rows with
  | nil => simp [insertRow, findRow]
  | cons row rest induction =>
      obtain ⟨other, kept⟩ := row
      simp only [insertRow]
      split
      · rename_i same
        subst same
        by_cases found : other = wanted <;> simp [findRow, found]
      · split
        · simp [findRow]
        · by_cases found : other = wanted
          · subst found
            rename_i different _
            simp [findRow, Ne.symm different]
          · simp [findRow, found, induction]

theorem get?_insert (directory : Directory Key Value) (key wanted : Key) (value : Value) :
    (directory.insert key value).get? wanted =
      if key = wanted then some value else directory.get? wanted :=
  findRow_insertRow key wanted value directory.rows

@[simp] theorem get?_insert_self (directory : Directory Key Value) (key : Key)
    (value : Value) : (directory.insert key value).get? key = some value := by
  simp [get?_insert]

theorem get?_insert_of_ne (directory : Directory Key Value) {key wanted : Key}
    (different : key ≠ wanted) (value : Value) :
    (directory.insert key value).get? wanted = directory.get? wanted := by
  simp [get?_insert, different]

theorem get?_insertAll (directory added : Directory Key Value) (key : Key) :
    (directory.insertAll added).get? key = (added.get? key).or (directory.get? key) := by
  obtain ⟨rows⟩ := added
  induction rows with
  | nil => rfl
  | cons row rest induction =>
      obtain ⟨other, value⟩ := row
      simp only [insertAll, List.foldr_cons] at induction ⊢
      rw [get?_insert]
      by_cases same : other = key
      · simp [get?, findRow, same]
      · simp only [same, if_false, induction]
        simp [get?, findRow, same]

end Writing

end Directory

end SwitchQos
