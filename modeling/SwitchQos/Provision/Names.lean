import SwitchQos.Directory
import SwitchQos.Provision.Error

namespace SwitchQos

/-! The names under which a run has created maps and scheduler profiles, with the
ids the store assigned. A name that is created again stands for the later id. -/

structure Names where
  maps : Directory String Nat := {}
  profiles : Directory String Nat := {}
  deriving DecidableEq, Repr

namespace Names

def addMap (names : Names) (tag : String) (id : Nat) : Names :=
  { names with maps := names.maps.insert tag id }

def addProfile (names : Names) (tag : String) (id : Nat) : Names :=
  { names with profiles := names.profiles.insert tag id }

def mapId (names : Names) (tag : String) : Except ProvisionError Nat :=
  match names.maps.get? tag with
  | some id => .ok id
  | none => .error (.lookupMiss .map tag)

def profileId (names : Names) (tag : String) : Except ProvisionError Nat :=
  match names.profiles.get? tag with
  | some id => .ok id
  | none => .error (.lookupMiss .schedulerProfile tag)

end Names

end SwitchQos
