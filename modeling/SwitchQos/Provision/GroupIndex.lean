import SwitchQos.Directory

namespace SwitchQos

/-! The scheduler groups found on a port. A store reports them in no particular
order; here the ids of each level ascend, and a group is addressed by the ordinal
of its id on its level. -/

structure GroupIndex where
  levels : Directory Nat (List Nat) := {}
  deriving DecidableEq, Repr

namespace GroupIndex

def insertId (id : Nat) : List Nat → List Nat
  | [] => [id]
  | other :: rest =>
      if id < other then id :: other :: rest
      else if id = other then other :: rest
      else other :: insertId id rest

def level (index : GroupIndex) (level : Nat) : List Nat :=
  (index.levels.get? level).getD []

def insert (index : GroupIndex) (level id : Nat) : GroupIndex :=
  ⟨index.levels.insert level (insertId id (index.level level))⟩

def get? (index : GroupIndex) (level ordinal : Nat) : Option Nat :=
  (index.level level)[ordinal]?

def count (index : GroupIndex) (level : Nat) : Nat := (index.level level).length

def isEmpty (index : GroupIndex) : Bool := index.levels.rows.isEmpty

example : insertId 20 (insertId 10 (insertId 30 (insertId 10 []))) =
    [10, 20, 30] := by decide

end GroupIndex

end SwitchQos
