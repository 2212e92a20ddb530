import SwitchQos.Store.Request

namespace SwitchQos

/-! Ports show up while a run is in progress. A tracker lets each port of its
class through once, by interface index, and tells when listings bring nothing
new any more. -/

structure PortTracker where
  interfaceClass : InterfaceClass
  /-- Interface indices let through, the latest first. -/
  seen : List Nat := []
  deriving DecidableEq, Repr

namespace PortTracker

/-- The ports of a listing that are new, in its order. -/
def accept (tracker : PortTracker) : List Port → List Port × PortTracker
  | [] => ([], tracker)
  | port :: rest =>
      if port.isOf tracker.interfaceClass && !(port.ifindex ∈ tracker.seen : Bool) then
        let (accepted, tracker) :=
          accept { tracker with seen := port.ifindex :: tracker.seen } rest
        (port :: accepted, tracker)
      else
        accept tracker rest

/-- Some port was seen, and the last listing brought `new` others. -/
def converged (tracker : PortTracker) (new : Nat) : Bool :=
  new = 0 && !tracker.seen.isEmpty

end PortTracker

end SwitchQos
