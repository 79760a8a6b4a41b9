import AgentSweep.Uuid

/-!
# Owners

Whoever asks for code to be run, such as a button or a console.
-/

namespace AgentSweep

/-- **Who asked for a run.** -/
structure Owner where
  id : Uuid
  /-- The name under which the owner appears in the log. -/
  name : String
deriving DecidableEq, Repr, Inhabited

end AgentSweep
