import AgentSweep.Bindings
import AgentSweep.Value

/-!
# Agents

An agent has a kind, a breed, a number by which users know it, and variables of its own.
-/

namespace AgentSweep

/-- **An agent.** -/
structure Agent where
  kind : Kind
  /-- The breed to which the agent says it belongs. -/
  breed : String
  /-- The number by which users know the agent. -/
  who : Nat
  /-- The agent's own variables. -/
  vars : Bindings Value

namespace Agent

/-- How messages name an agent, such as `turtle 3`. -/
def title (agent : Agent) : String :=
  s!"{agent.kind.name} {agent.who}"

end Agent

end AgentSweep
