import AgentSweep.Job.Failure
import AgentSweep.Machine.Run

/-!
# Events and the log

While a job runs it leaves a sequence of events. Most of them have a place in the log, as a
message of some level with named fields. A step has one only if it came to an instruction:
reaching the end of a body, or being refused before, is not logged.
-/

namespace AgentSweep

/-- **What happened in the course of a job.** -/
inductive Event where
  | started (owner procedure : String) (agents : Nat)
  /-- An agent's run is about to begin. -/
  | visiting (agent : String)
  | step (record : StepRecord)
  | finished (owner : String) (executed skipped : Nat)
  | halted (owner : String) (executed : Nat)
  | aborted (owner : String) (failure : JobFailure)

/-- How much a log entry matters. -/
inductive Level where
  | trace
  | debug
  | warn
deriving DecidableEq, Repr

namespace Level

/-- The name of a level. -/
def name : Level → String
  | trace => "TRACE"
  | debug => "DEBUG"
  | warn => "WARN"

end Level

/-- **An entry of the log.** -/
structure LogEntry where
  level : Level
  message : String
  fields : List (String × String)
deriving DecidableEq, Repr

namespace Event

/-- The step that an event is, if it is one. -/
def step? : Event → Option StepRecord
  | step record => some record
  | _ => none

/-- **The place of an event in the log**, if it has one. -/
def logEntry? : Event → Option LogEntry
  | started owner procedure agents =>
    some ⟨.debug, "exclusive job started",
      [("owner", owner), ("procedure", procedure), ("agents", toString agents)]⟩
  | visiting agent => some ⟨.trace, "running agent", [("agent", agent)]⟩
  | step record =>
    record.instruction.map fun instruction =>
      ⟨.trace, "step",
        [("procedure", record.before.procedureName), ("ip", toString record.before.ip),
          ("op", instruction.mnemonic)]⟩
  | finished owner executed skipped =>
    some ⟨.debug, "exclusive job finished",
      [("owner", owner), ("executed", toString executed), ("skipped", toString skipped)]⟩
  | halted owner executed =>
    some ⟨.warn, "exclusive job halted", [("owner", owner), ("executed", toString executed)]⟩
  | aborted owner failure =>
    some ⟨.warn, "exclusive job aborted", [("owner", owner), ("error", failure.message)]⟩

end Event

end AgentSweep
