/-!
# Agent ids

Agents live in numbered slots, and a slot is used again after its agent has died. An id therefore
names a slot together with a *generation*: how often that slot had been vacated when the agent
moved in. An id whose generation is not the present one of its slot names nobody.

In written form an id carries a version in place of the generation. Versions are odd 32-bit
words – the even ones stand for a vacated slot – so generation `g` is version `2 g + 1`, and
generations are counted modulo `2 ^ 31`.
-/

namespace AgentSweep

/-- **The name of an agent**: its slot, counted from 1, and the generation of that slot. -/
structure AgentId where
  slot : Nat
  generation : Nat
deriving DecidableEq, Repr

namespace AgentId

/-- How many generations are told apart. -/
def generations : Nat := 0x80000000

/-- The largest slot number that a written id can carry. No agent ever has it. -/
def lastSlot : Nat := 0xffffffff

/-- The id that never names an agent. -/
def null : AgentId := ⟨lastSlot, 0⟩

instance : Inhabited AgentId := ⟨null⟩

/-- The written form of the generation: always odd. -/
def version (id : AgentId) : Nat := 2 * id.generation + 1

/-- **An id from its written numbers.** An even version counts as the odd one after it, and the
last slot number stands for `null` whatever the version. -/
def ofVersion (slot version : Nat) : AgentId :=
  if slot = lastSlot then null else ⟨slot, version / 2⟩

/-- The id that the same slot gives to its next agent. -/
def successor (id : AgentId) : AgentId :=
  ⟨id.slot, (id.generation + 1) % generations⟩

@[simp] theorem slot_successor (id : AgentId) : id.successor.slot = id.slot := rfl

theorem ofVersion_version {id : AgentId} (h : id.slot = lastSlot → id = null) :
    ofVersion id.slot id.version = id := by
  unfold ofVersion
  split
  · exact (h ‹_›).symm
  · have : id.version / 2 = id.generation := by unfold version; omega
    rw [this]

end AgentId

end AgentSweep
