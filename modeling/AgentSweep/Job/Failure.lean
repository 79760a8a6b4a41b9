import AgentSweep.Machine.Fault

/-!
# Why a job fails

A job fails because of a fault in running code, because it was halted, or because there was no
agent to evaluate a reporter for.
-/

namespace AgentSweep

/-- **Why a job came to no result.** -/
inductive JobFailure where
  /-- A fault, with the procedure, the agent and the address at which it arose. -/
  | fault (procedure agent : String) (address : Nat) (cause : Fault)
  /-- The run was called off between two agents. -/
  | halted
  /-- There is nobody to evaluate a reporter for. -/
  | emptySet
deriving DecidableEq, Repr

namespace JobFailure

/-- **The text of a failure.** -/
def message : JobFailure → String
  | fault procedure agent address cause =>
    s!"runtime error in {procedure} for {agent} at instruction {address}: {cause.message}"
  | halted => "job halted"
  | emptySet => "cannot evaluate a reporter against an empty agent set"

end JobFailure

end AgentSweep
