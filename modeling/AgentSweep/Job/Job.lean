import AgentSweep.Job.Failure
import AgentSweep.Job.Event
import AgentSweep.World.Roster

/-!
# Jobs

A job runs a procedure over an agent set. `Job.run` takes a snapshot of the set in random order
and runs the procedure for one agent after the other, to the end, before anything else happens;
`Job.report` evaluates the procedure once, for the first member, and gives the value that it
reports.

## The halt flag

A run can be called off from outside while it is under way. The flag is looked at between two
agents only: a run stops before the next living agent, never in the middle of one. When the flag
goes up is described by a `HaltSignal`, which says for each number of steps taken since the run
began whether the flag is up by then.
-/

namespace AgentSweep

/-- **When the halt flag is up**: whether it is, after so many steps. -/
abbrev HaltSignal := Nat → Bool

/-- The flag that is never up. -/
def HaltSignal.never : HaltSignal := fun _ => false

/-- **A job.** -/
structure Job where
  owner : Owner
  set : AgentSet
  procedure : Procedure
  /-- Where each agent begins. -/
  address : Nat
  /-- The frame in which every agent runs; without one, each run makes a root frame. -/
  caller : Option Frame

/-- **How many agents a run dealt with.** -/
structure Summary where
  /-- The entries of the snapshot. -/
  snapshot : Nat
  /-- The agents for which the procedure was run. -/
  executed : Nat
  /-- The entries whose agents had died before their turn. -/
  skipped : Nat
deriving DecidableEq, Repr

/-- **What a job comes to.** -/
structure JobCourse (α : Type) where
  result : Except JobFailure α
  scene : Scene
  events : Array Event

namespace JobCourse

/-- The steps taken in the course of a job. -/
def steps {α : Type} (course : JobCourse α) : List StepRecord :=
  course.events.toList.filterMap Event.step?

end JobCourse

/-- How far a run has come. -/
structure Progress where
  context : Context
  scene : Scene
  events : Array Event
  executed : Nat
  skipped : Nat
  /-- How many steps have been taken. -/
  steps : Nat

namespace Job

/-- The frame in which the agents of one run begin. -/
def entryFrame (job : Job) (s : Scene) : Frame × Scene :=
  match job.caller with
  | some frame => (frame, s)
  | none => s.makeFrame job.procedure none job.address

/-- Who was running what, and where, when a fault arose. -/
def failure (c : Context) (s : Scene) (fault : Fault) : JobFailure :=
  .fault c.procedureName (c.agentTitle s.world) c.ip fault

/-- **Goes through the entries of a snapshot** from some point of the run on. -/
def sweep (job : Job) (traceAgents : Bool) (halt : HaltSignal) (entry : Frame) :
    List AgentId → Progress → JobCourse (Nat × Nat)
  | [], p => ⟨.ok (p.executed, p.skipped), p.scene, p.events⟩
  | id :: rest, p =>
    if !p.scene.world.isAlive id then
      job.sweep traceAgents halt entry rest { p with skipped := p.skipped + 1 }
    else if halt p.steps then
      ⟨.error .halted, p.scene, p.events.push (.halted job.owner.name p.executed)⟩
    else
      let events :=
        if traceAgents then p.events.push (.visiting (p.scene.world.title id)) else p.events
      let course := (p.context.reset id entry job.address).run p.scene
      let events := events ++ course.steps.map Event.step
      match course.result with
      | .ok () =>
        job.sweep traceAgents halt entry rest
          { context := course.context.release
            scene := course.scene
            events
            executed := p.executed + 1
            skipped := p.skipped
            steps := p.steps + course.steps.size }
      | .error fault =>
        let failure := failure course.context course.scene fault
        ⟨.error failure, course.scene, events.push (.aborted job.owner.name failure)⟩

/-- What is said to those who want to advance a job bit by bit. Jobs are run as a whole only. -/
def stepRefusal (job : Job) : String :=
  s!"exclusive job for {job.owner.name} cannot be stepped; the scheduler must call run()"

/-- **Runs the procedure for every agent of the set.** Agents made meanwhile are not visited, and
those who have died before their turn are skipped. The first fault ends the run. -/
def run (job : Job) (s : Scene) (traceAgents : Bool) (halt : HaltSignal) : JobCourse Summary :=
  let (roster, random) := Roster.ofSet job.set s.world s.random
  let (entry, s) := job.entryFrame { s with random }
  let start : Progress :=
    { context := .new job.owner none job.set.tag
      scene := s
      events := #[.started job.owner.name job.procedure.name roster.size]
      executed := 0
      skipped := 0
      steps := 0 }
  let course := job.sweep traceAgents halt entry roster.upcoming start
  match course.result with
  | .ok (executed, skipped) =>
    ⟨.ok ⟨roster.size, executed, skipped⟩, course.scene,
      course.events.push (.finished job.owner.name executed skipped)⟩
  | .error failure => ⟨.error failure, course.scene, course.events⟩

/-- **Evaluates the procedure for the first member of the set.** The address, the caller's frame
and the halt flag play no part. -/
def report (job : Job) (s : Scene) : JobCourse Value :=
  match job.set.first? s.world with
  | none => ⟨.error .emptySet, s, #[]⟩
  | some agent =>
    let (frame, s) := s.makeFrame job.procedure none 0
    let course := (Context.new job.owner (some agent) job.set.tag).evaluate s frame
    let events := course.steps.map Event.step
    match course.result with
    | .ok value => ⟨.ok value, course.scene, events⟩
    | .error fault => ⟨.error (failure course.context course.scene fault), course.scene, events⟩

end Job

end AgentSweep
