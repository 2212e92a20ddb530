import SwitchQos.CommandLine
import SwitchQos.Provision.Run
import SwitchQos.Store.TopologyDocument

namespace SwitchQos

/-! The program: provision a simulated switch and say how that went. -/

def prepare (options : Options) (config topology : Source) :
    Except String (Config × Memory) := do
  let config ← (Config.ofSource config).mapError fun error =>
    "loading " ++ options.config ++ ": " ++ error.message
  let topology ← (Topology.ofSource topology).mapError DocumentError.message
  let memory ← (Memory.ofTopology options.switchId topology).mapError CodecError.message
  return (config, memory)

def simulate (options : Options) (config : Config) (memory : Memory) (polls : Nat) :
    Option (Except ProvisionError RunReport) :=
  let provisioner : Provisioner := ⟨options.switchId, polls⟩
  let exchange : Exchange (Except ProvisionError RunReport) :=
    if options.interfaces.isEmpty then do
      let _ ← provisioner.awaitRegistration
      return .ok (← provisioner.run config)
    else
      (provisioner.initInterfaces config options.interfaces).run
  (exchange.run Memory.responder memory).1

def present : Except ProvisionError RunReport → IO UInt32
  | .ok report => do
      for line in report.lines do
        IO.println line
      return if report.succeeded then 0 else 1
  | .error error => do
      IO.eprintln error.message
      return 1

/-- The program itself never gives up. A run that has stalled is made again,
with more polls. -/
def simulateToEnd (options : Options) (config : Config)
    (memory : Memory) : IO UInt32 := do
  let mut polls := 1
  let mut exitCode : UInt32 := 0
  repeat
    if let some outcome := simulate options config memory polls then
      exitCode ← present outcome
      break
    IO.sleep (.ofNatClamp options.pollInterval)
    polls := 2 * polls
  return exitCode

def readSource (path : String) : IO Source := do
  try
    return .file (← IO.FS.readBinFile path)
  catch
    | .noFileOrDirectory _ _ _ => return .missing
    | .inappropriateType _ _ _ => return .directory
    | error => throw error

def runProgram (options : Options) : IO UInt32 := do
  match options.topology with
  | none =>
      IO.eprintln "no object store is available; run with --simulate <topology.json>"
      return 1
  | some topology =>
      match prepare options (← readSource options.config) (← readSource topology) with
      | .ok (config, memory) => simulateToEnd options config memory
      | .error message =>
          IO.eprintln message
          return 1

end SwitchQos

def main (arguments : List String) : IO UInt32 := do
  let config := (← IO.getEnv "QOS_CFG_PATH").getD SwitchQos.defaultConfigPath
  match SwitchQos.Options.read { config } arguments with
  | .ok options => SwitchQos.runProgram options
  | .error fault =>
      IO.eprintln fault.message
      return 2
