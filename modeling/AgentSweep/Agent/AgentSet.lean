import AgentSweep.Agent.Kind
import AgentSweep.Agent.AgentId

/-!
# Agent sets

An agent set is a way of naming agents, not the agents themselves. A *breed* set names whoever is
in a breed when it is read; a *fixed* set lists ids, each as often as it was written down. What a
set holds in a given world is a matter of the world (`World.Membership`).

The kind of a set is what the set says of its members. Nobody checks it against them: it is the
tag under which code runs over the set.
-/

namespace AgentSweep

/-- **A collection of agents of one kind.** -/
inductive AgentSet where
  /-- Whoever is in the breed `name`. -/
  | breed (kind : Kind) (name : String)
  /-- The listed agents, in their natural order. -/
  | fixed (kind : Kind) (members : List AgentId)
deriving DecidableEq, Repr

namespace AgentSet

/-- The breed of turtles that has no name of its own. -/
def turtles : AgentSet := .breed .turtle "turtles"

/-- The kind that the set gives to its members. -/
def kind : AgentSet → Kind
  | breed kind _ => kind
  | fixed kind _ => kind

/-- The tag under which code runs over the set. -/
def tag (set : AgentSet) : KindMask := set.kind.mask

end AgentSet

end AgentSweep
