import SwitchQos.Provision.MapTable
import SwitchQos.Provision.PortBinding
import SwitchQos.Provision.PortTracker
import SwitchQos.Provision.TreeBinding

namespace SwitchQos

/-! A provisioning run takes the nodes of a configuration in order. Global nodes
create map tables and scheduler profiles and note their ids; port nodes bind maps
and build the scheduler tree on every port of a class, those included that show
up during the run. -/

structure Provisioner where
  switchId : Nat
  /-- How often a loop asks again before it gives up. -/
  polls : Nat
  deriving DecidableEq, Repr

namespace Provisioner

def scheduler (provisioner : Provisioner) : Scheduler := ⟨provisioner.switchId⟩

/-! ## Waiting for the platform -/

/-- Ask until a front-panel port is listed; the last of the listing is taken. -/
def awaitPort : (polls : Nat) → Exchange Port
  | 0 => .stalled
  | polls + 1 => do
      match ← Exchange.askPorts .frontPanel with
      | .error _ => awaitPort polls
      | .ok listing =>
          match listing.getLast? with
          | some port => return port
          | none => awaitPort polls

/-- Ask for the ingress object of a port until the store answers, with whatever. -/
def awaitAnswer (template : Except CodecError Authored) : (polls : Nat) → Exchange Unit
  | 0 => .stalled
  | polls + 1 =>
      match template with
      | .error _ => awaitAnswer template polls
      | .ok authored => do
          match ← Exchange.askObjects authored.data with
          | .error _ => awaitAnswer template polls
          | .ok _ => return ()

def awaitRegistration (provisioner : Provisioner) : Exchange Port := do
  let port ← awaitPort provisioner.polls
  awaitAnswer (Direction.ingress.portObject provisioner.switchId port.ifindex)
    provisioner.polls
  return port

/-! ## Globals -/

/-- Create a table with its entries. If an entry cannot be staged the table stays
without entries. -/
def createMap (provisioner : Provisioner) (node : MapNode) : Task Nat := do
  let table ← MapTable.create node.mapType provisioner.switchId
  let staged ← ExceptT.mk (.done (node.entries.foldlM
    (fun table entry => (table.add entry.authored node.range).map (·.2)) table))
  let _ ← staged.commit
  return table.id

def createMaps (provisioner : Provisioner) :
    List MapNode → Names → Exchange (List Outcome × Names)
  | [], names => return ([], names)
  | node :: rest, names => do
      let target := node.mapType.name ++ " " ++ node.tag
      if node.mapType.isProvisionable then
        let result ← (provisioner.createMap node).run
        let names := match result with
          | .ok id => names.addMap node.tag id
          | .error _ => names
        let (outcomes, names) ← createMaps provisioner rest names
        return (.ofResult target result :: outcomes, names)
      else
        let (outcomes, names) ← createMaps provisioner rest names
        return (.skipped target notProvisioned :: outcomes, names)

def createProfiles (provisioner : Provisioner) :
    List ProfileNode → Names → Exchange (List Outcome × Names)
  | [], names => return ([], names)
  | node :: rest, names => do
      let result ← (provisioner.scheduler.createProfile node.tag node.attrTexts).run
      let names := match result with
        | .ok id => names.addProfile node.tag id
        | .error _ => names
      let (outcomes, names) ← createProfiles provisioner rest names
      return (.ofResult ("scheduler profile " ++ node.tag) result :: outcomes, names)

def initGlobals (provisioner : Provisioner) (names : Names) (node : GlobalsNode) :
    Exchange (PhaseReport × Names) := do
  let (maps, names) ← provisioner.createMaps node.maps names
  let (profiles, names) ← provisioner.createProfiles node.profiles names
  return (⟨"switch globals", maps ++ profiles⟩, names)

/-! ## Ports -/

def applyTree? (provisioner : Provisioner) (names : Names) (port : Port)
    (tree : Option SchedulerTree) : Exchange (List Outcome) :=
  match tree with
  | some tree => provisioner.scheduler.applyTree names port tree
  | none => return []

def initPort (provisioner : Provisioner) (names : Names) (node : PortNode) (port : Port) :
    Exchange PhaseReport := do
  let maps ← bindPortMaps provisioner.switchId names port node
  let tree ← provisioner.applyTree? names port node.tree
  return ⟨"port " ++ port.name, maps ++ tree⟩

/-- Initialise the ports a tracker lets through until a listing brings no new one.
A failed listing and an empty start are asked for again. -/
def initListed (provisioner : Provisioner) (names : Names) (node : PortNode) :
    (polls : Nat) → PortTracker → Exchange (List PhaseReport)
  | 0, _ => .stalled
  | polls + 1, tracker => do
      match ← Exchange.askPorts tracker.interfaceClass with
      | .error _ => initListed provisioner names node polls tracker
      | .ok listing =>
          let (new, tracker) := tracker.accept listing
          if tracker.converged new.length then
            return []
          else
            let phases ← Exchange.collect new fun port => do
              return [← provisioner.initPort names node port]
            let others ← initListed provisioner names node polls tracker
            return phases ++ others

def initPortsOf (provisioner : Provisioner) (names : Names)
    (interfaceClass : InterfaceClass) (node : PortNode) : Exchange (List PhaseReport) :=
  provisioner.initListed names node provisioner.polls { interfaceClass }

/-! ## Whole runs -/

/-- The phases of the nodes in order; names of earlier nodes count for later ones. -/
def runNodes (provisioner : Provisioner) : List ConfigNode → Names →
    Exchange (List PhaseReport)
  | [], _ => return []
  | .globals node :: rest, names => do
      let (phase, names) ← provisioner.initGlobals names node
      let others ← runNodes provisioner rest names
      return phase :: others
  | .ports interfaceClass node :: rest, names => do
      let phases ← provisioner.initPortsOf names interfaceClass node
      let others ← runNodes provisioner rest names
      return phases ++ others

def run (provisioner : Provisioner) (config : Config) : Exchange RunReport := do
  let phases ← provisioner.runNodes config.nodes {}
  return ⟨phases⟩

/-! ## Single interfaces -/

def resolve (object name : String) : Task (Option Port) :=
  ExceptT.mk do
    let found ← Exchange.findPort name
    return found.mapError fun cause => .queryFailed object cause.message

def resolveAll (names : List String) : Task (List Port) :=
  names.mapM fun name => do
    let port ← resolve ("interface " ++ name) name
    Task.require port (.portUnavailable name)

def createAllProfiles (provisioner : Provisioner) :
    List GlobalsNode → Names → Exchange (List Outcome × Names)
  | [], names => return ([], names)
  | node :: rest, names => do
      let (outcomes, names) ← provisioner.createProfiles node.profiles names
      let (others, names) ← createAllProfiles provisioner rest names
      return (outcomes ++ others, names)

def initInterface (provisioner : Provisioner) (names : Names)
    (tree : Option SchedulerTree) (port : Port) : Exchange PhaseReport := do
  let outcomes ← match tree with
    | some tree => provisioner.scheduler.applyTree names port tree
    | none => return ⟨"interface " ++ port.name,
        [.skipped port.name "no front-panel scheduler tree configured"]⟩
  return ⟨"interface " ++ port.name, outcomes⟩

/-- Build the front-panel tree again on some interfaces. All names are resolved
before anything is asked of the store. -/
def initInterfaces (provisioner : Provisioner) (config : Config) (names : List String) :
    Task RunReport := do
  let ports ← resolveAll names
  ExceptT.lift do
    let (outcomes, created) ← provisioner.createAllProfiles config.globals {}
    let tree := (config.portNode? .frontPanel).bind PortNode.tree
    let phases ← Exchange.collect ports fun port => do
      return [← provisioner.initInterface created tree port]
    return ⟨⟨"scheduler profiles", outcomes⟩ :: phases⟩

end Provisioner

end SwitchQos
