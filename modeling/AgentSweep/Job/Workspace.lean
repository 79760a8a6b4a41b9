import AgentSweep.Config
import AgentSweep.Job.Job
import AgentSweep.Text.Quoted

/-!
# Workspaces

A workspace is what all jobs of a model share: the world, the halt flag and the configuration. The
random generator is not part of it, since every job may have one of its own.
-/

namespace AgentSweep

/-- **What all jobs of a model share.** -/
structure Workspace where
  world : World
  /-- The number that the next frame will get. -/
  nextFrame : Nat
  /-- Whether running jobs are asked to stop. -/
  halted : Bool
  config : Config

namespace Workspace

/-- A workspace around a world. -/
def new (world : World) (config : Config) : Workspace := ⟨world, 0, false, config⟩

/-- What code can touch that runs in the workspace with a given generator. -/
def scene (ws : Workspace) (random : Random) : Scene := ⟨ws.world, random, ws.nextFrame⟩

/-- The workspace after code has run in it. -/
def leaveAt (ws : Workspace) (s : Scene) : Workspace :=
  { ws with world := s.world, nextFrame := s.nextFrame }

/-- Asks running jobs to stop before their next agent. -/
def halt (ws : Workspace) : Workspace := { ws with halted := true }

/-- Allows jobs to run again. -/
def clearHalt (ws : Workspace) : Workspace := { ws with halted := false }

/-- The halt flag while nobody touches it. -/
def signal (ws : Workspace) : HaltSignal := fun _ => ws.halted

/-- The halt flag while it is put up after every step from the `k`th on. -/
def signalFrom (ws : Workspace) (k : Nat) : HaltSignal :=
  fun steps => ws.halted || (decide (0 < steps) && decide (k ≤ steps))

/-- The configuration as those see it who look after the program. -/
def configText (c : Config) : String :=
  let seed := match c.seed with
    | some seed => s!"Some({seed})"
    | none => "None"
  "VmConfig \x7b seed: " ++ seed ++ ", trace_agents: " ++ toString c.traceAgents
    ++ ", log_filter: " ++ Quoted.text c.logFilter ++ " \x7d"

/-- **The workspace as those see it who look after the program.** The world is left out. -/
def text (ws : Workspace) : String :=
  "Workspace \x7b halted: " ++ toString ws.halted ++ ", config: " ++ configText ws.config
    ++ ", .. \x7d"

end Workspace

end AgentSweep
