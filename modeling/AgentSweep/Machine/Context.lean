import AgentSweep.Owner
import AgentSweep.Machine.Frame
import AgentSweep.World.World

/-!
# Contexts

A context is the state of one agent's run: the agent, the frame in which it runs, the address of
its next instruction, how many calls it has open, and whether it is over. A context is used for
one agent after another. `reset` makes it ready for the next one, and only its owner and its tag
outlive that.
-/

namespace AgentSweep

/-- **The state of one agent's run.** -/
structure Context where
  owner : Owner
  agent : Option AgentId
  frame : Option Frame
  /-- The address of the next instruction. -/
  ip : Nat
  /-- Whether the run is over. -/
  finished : Bool
  /-- How many calls the run has open; the frame with which it began is that many frames down. -/
  calls : Nat
  /-- The kinds of agents as which the code runs. -/
  tag : KindMask

namespace Context

/-- A context without a frame. -/
def new (owner : Owner) (agent : Option AgentId) (tag : KindMask) : Context :=
  ⟨owner, agent, none, 0, false, 0, tag⟩

/-- Makes the context ready for an agent's run from an address. -/
def reset (c : Context) (agent : AgentId) (frame : Frame) (address : Nat) : Context :=
  { c with agent := some agent, frame := some frame, ip := address, finished := false, calls := 0 }

/-- Forgets the agent after its run. -/
def release (c : Context) : Context := { c with agent := none }

/-- Declares the run over. -/
def finish (c : Context) : Context := { c with finished := true }

/-- Moves to an address. -/
def goto (c : Context) (address : Nat) : Context := { c with ip := address }

/-- Moves to the address after the present one. Addresses are 64-bit words: after the last comes the
first. -/
def advance (c : Context) : Context := c.goto ((c.ip + 1) % UInt64.size)

/-- Enters a procedure in a new frame of the given number. -/
def push (c : Context) (number : Nat) (callee : Procedure) (returnAddress : Nat) : Context :=
  { c with frame := some ⟨number, callee, c.frame, returnAddress⟩, ip := 0, calls := c.calls + 1 }

/-- Comes back from the last open call, if there is one. -/
def pop? (c : Context) : Option Context :=
  match c.calls, c.frame with
  | calls + 1, some frame =>
    some { c with frame := frame.parent, ip := frame.returnAddress, calls := calls }
  | _, _ => none

/-- The name of the procedure that runs. -/
def procedureName (c : Context) : String :=
  match c.frame with
  | some frame => frame.procedure.name
  | none => "<none>"

/-- How messages name the current agent in a world. -/
def agentTitle (c : Context) (w : World) : String :=
  match c.agent with
  | some id => w.title id
  | none => "nobody"

/-- **The steps that the run may still take**: those of its own body from the next instruction on,
and those of its callers after it. -/
def weight (c : Context) : Nat :=
  match c.frame with
  | some frame => frame.procedure.unrolledFrom c.ip + frame.pending c.calls
  | none => 0

end Context

end AgentSweep
