import SwitchQos.Provision.Report
import SwitchQos.Text.Number

namespace SwitchQos

/-! The arguments of the program. An option is written with its value behind it,
or long options with an equals sign in between; of two values the later counts. -/

structure Options where
  config : String
  switchId : Nat := 0
  pollInterval : Nat := 1000
  /-- Only these interfaces get their scheduler tree again; none stands for all. -/
  interfaces : List String := []
  logLevel : String := "info"
  topology : Option String := none
  deriving DecidableEq, Repr

def defaultConfigPath : String := "/etc/sonic/base_qos_init.json"

inductive ArgumentFault where
  | unknownOption (name : String)
  | valueMissing (name : String)
  | valueInvalid (name value : String)
  deriving DecidableEq, Repr

def ArgumentFault.message : ArgumentFault → String
  | .unknownOption name => "unexpected argument '" ++ name ++ "'"
  | .valueMissing name => "a value is required for '" ++ name ++ "'"
  | .valueInvalid name value => "invalid value '" ++ value ++ "' for '" ++ name ++ "'"

namespace Options

def readNumber (bits : Nat) (name value : String) : Except ArgumentFault Nat :=
  match readNatural value.toList with
  | some number =>
      if number < countOfBits bits then .ok number else .error (.valueInvalid name value)
  | none => .error (.valueInvalid name value)

def withValue (options : Options) (name value : String) : Except ArgumentFault Options :=
  match name with
  | "-c" | "--config" => .ok { options with config := value }
  | "--switch-id" => do
      let switchId ← readNumber 32 name value
      .ok { options with switchId }
  | "--poll-interval-ms" => do
      let pollInterval ← readNumber 64 name value
      .ok { options with pollInterval }
  | "-i" | "--interfaces" =>
      let names := (value.toList.splitOn ',').map String.ofList
      .ok { options with interfaces := options.interfaces ++ names }
  | "-l" | "--log-level" => .ok { options with logLevel := value }
  | "--simulate" => .ok { options with topology := some value }
  | _ => .error (.unknownOption name)

def isOption (name : String) : Bool :=
  name ∈ ["-c", "--config", "--switch-id", "--poll-interval-ms", "-i",
    "--interfaces", "-l", "--log-level", "--simulate"]

def splitAssignment (argument : String) : Option (String × String) :=
  let name := argument.toList.takeWhile fun char => char ≠ '='
  match argument.toList.dropWhile fun char => char ≠ '=' with
  | '=' :: value => some (String.ofList name, String.ofList value)
  | _ => none

def read (options : Options) : List String → Except ArgumentFault Options
  | [] => .ok options
  | argument :: rest =>
      if isOption argument then
        match rest with
        | value :: rest => do (← options.withValue argument value).read rest
        | [] => .error (.valueMissing argument)
      else
        match splitAssignment argument with
        | some (name, value) => do (← options.withValue name value).read rest
        | none => .error (.unknownOption argument)

end Options

def RunReport.lines (run : RunReport) : List String :=
  (run.phases.flatMap fun phase => phase.outcomes.filterMap fun outcome =>
    match outcome.status with
    | .failed error =>
        some (phase.name ++ ": " ++ outcome.target ++ ": " ++ error.message)
    | _ => none) ++ [run.text]

end SwitchQos
