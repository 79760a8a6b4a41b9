import AgentSweep.World.World

/-!
# Who is in an agent set

A set is read in a world. A breed set holds what the world lists for the breed at that moment; a
fixed set holds those of its ids that name living agents, each as often as it was written down.
The four readings – all members, the first one, how many there are, whether there is none – are
defined on their own, since asking for the first member of a set does not gather them all.
-/

namespace AgentSweep

namespace AgentSet

/-- The members in their natural order. -/
def members (set : AgentSet) (w : World) : List AgentId :=
  match set with
  | breed _ name => w.members name
  | fixed _ ids => ids.filter w.isAlive

/-- The first member. -/
def first? (set : AgentSet) (w : World) : Option AgentId :=
  match set with
  | breed _ name => (w.members name).head?
  | fixed _ ids => ids.find? w.isAlive

/-- How many members there are. -/
def count (set : AgentSet) (w : World) : Nat :=
  match set with
  | breed _ name => (w.members name).length
  | fixed _ ids => ids.countP w.isAlive

/-- Whether there is no member. -/
def isEmpty (set : AgentSet) (w : World) : Bool := (set.first? w).isNone

theorem first?_eq_head? (set : AgentSet) (w : World) : set.first? w = (set.members w).head? := by
  cases set with
  | breed => rfl
  | fixed => simp [first?, members]

theorem count_eq_length (set : AgentSet) (w : World) : set.count w = (set.members w).length := by
  cases set with
  | breed => rfl
  | fixed => simp [count, members, List.countP_eq_length_filter]

end AgentSet

end AgentSweep
