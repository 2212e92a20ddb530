import SwitchQos.Provision.Error

namespace SwitchQos

/-! A phase of provisioning records what became of each of its items, in order. A
failed item does not stop the phase, and a run fails if any item of it failed. -/

inductive Status where
  | applied
  | skipped (reason : String)
  | failed (error : ProvisionError)
  deriving DecidableEq, Repr

structure Outcome where
  target : String
  status : Status
  deriving DecidableEq, Repr

namespace Outcome

def isFailure (outcome : Outcome) : Bool :=
  match outcome.status with
  | .failed _ => true
  | _ => false

def applied (target : String) : Outcome := ⟨target, .applied⟩

def skipped (target reason : String) : Outcome := ⟨target, .skipped reason⟩

def failed (target : String) (error : ProvisionError) : Outcome := ⟨target, .failed error⟩

def ofResult {Result : Type} (target : String) : Except ProvisionError Result → Outcome
  | .ok _ => applied target
  | .error error => failed target error

end Outcome

def Task.record {Result : Type} (task : Task Result) (target : String) :
    Exchange Outcome := do
  let result ← task.run
  return .ofResult target result

/-! ## Phases and runs -/

structure PhaseReport where
  name : String
  outcomes : List Outcome := []
  deriving DecidableEq, Repr

namespace PhaseReport

def add (phase : PhaseReport) (outcome : Outcome) : PhaseReport :=
  { phase with outcomes := phase.outcomes ++ [outcome] }

def failures (phase : PhaseReport) : List Outcome :=
  phase.outcomes.filter Outcome.isFailure

def applied (phase : PhaseReport) : List Outcome :=
  phase.outcomes.filter fun outcome => outcome.status = .applied

def appliedCount (phase : PhaseReport) : Nat := phase.applied.length

def succeeded (phase : PhaseReport) : Bool := phase.failures.isEmpty

def status? (phase : PhaseReport) (target : String) : Option Status :=
  (phase.outcomes.find? fun outcome => outcome.target = target).map (·.status)

end PhaseReport

structure RunReport where
  phases : List PhaseReport := []
  deriving DecidableEq, Repr

namespace RunReport

def add (run : RunReport) (phase : PhaseReport) : RunReport :=
  { run with phases := run.phases ++ [phase] }

def succeeded (run : RunReport) : Bool := run.phases.all PhaseReport.succeeded

def failureCount (run : RunReport) : Nat :=
  (run.phases.flatMap PhaseReport.failures).length

def appliedCount (run : RunReport) : Nat :=
  (run.phases.flatMap PhaseReport.applied).length

def phase? (run : RunReport) (name : String) : Option PhaseReport :=
  run.phases.find? fun phase => phase.name = name

def text (run : RunReport) : String :=
  toString run.phases.length ++ " phases, " ++
    toString run.appliedCount ++ " applied, " ++ toString run.failureCount ++ " failed"

end RunReport

end SwitchQos
