import AgentSweep.Machine.Frame
import AgentSweep.Random.Draw
import AgentSweep.World.World

/-!
# Scenes

A scene is all that running code can touch beside its own context: the world, the random
generator, and the supply of numbers for new frames.
-/

namespace AgentSweep

/-- **What running code can touch.** -/
structure Scene where
  world : World
  random : Random
  /-- The number that the next frame will get. -/
  nextFrame : Nat

namespace Scene

/-- Makes a frame with a number of its own. -/
def makeFrame (s : Scene) (procedure : Procedure) (parent : Option Frame) (returnAddress : Nat) :
    Frame × Scene :=
  (⟨s.nextFrame, procedure, parent, returnAddress⟩, { s with nextFrame := s.nextFrame + 1 })

end Scene

end AgentSweep
