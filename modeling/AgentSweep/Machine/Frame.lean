import AgentSweep.Machine.Procedure

/-!
# Frames

A frame is an entry of the call stack: which procedure runs, which frame called it, and where in
the caller's body to go on. Frames never change. How far a body has been run is kept in the
context, so that any number of agents can run in one frame.

Every frame that is made gets a number of its own. Two frames are the same frame if and only if
their numbers agree, even where everything else about them is equal.
-/

namespace AgentSweep

/-- **A frame of the call stack.** -/
structure Frame where
  /-- Which frame this is. -/
  number : Nat
  procedure : Procedure
  /-- The calling frame. -/
  parent : Option Frame
  /-- The address in the caller's body at which to go on. -/
  returnAddress : Nat

namespace Frame

/-- Whether nobody called this frame. -/
def isRoot (f : Frame) : Bool := f.parent.isNone

/-- The length of the chain of callers, this frame included. -/
def depth : Frame → Nat
  | { parent := none, .. } => 1
  | { parent := some f, .. } => f.depth + 1

/-- The frame a number of calls further down the chain, if the chain is that long. -/
def ancestor? (f : Frame) : Nat → Option Frame
  | 0 => some f
  | calls + 1 => f.parent.bind fun p => p.ancestor? calls

/-- The steps that the callers up to a number of calls down may take after coming back. -/
def pending (f : Frame) : Nat → Nat
  | 0 => 0
  | calls + 1 =>
    match f.parent with
    | none => 0
    | some p => p.procedure.unrolledFrom f.returnAddress + p.pending calls

end Frame

end AgentSweep
