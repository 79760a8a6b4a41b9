import AgentSweep.Proofs.Job.Reachable

/-!
# One context for all agents

A run uses one context for all its agents, one after the other. It could as well make a new one
for each of them: `Job.runAfresh` does so, and comes to the same result, scene and events in every
case (`Job.run_eq_runAfresh`). For a step changes neither the owner nor the tag of its context,
and everything else is overwritten when the context is made ready for the next agent – the address
and the number of open calls too, and the frame, which may have been left deep inside of calls.
-/

namespace AgentSweep

/-- Two contexts of one owner and one tag do not differ any more once they have been made
ready. -/
theorem Context.reset_congr {c d : Context} (howner : c.owner = d.owner) (htag : c.tag = d.tag)
    (id : AgentId) (frame : Frame) (address : Nat) :
    c.reset id frame address = d.reset id frame address := by
  unfold reset
  rw [howner, htag]

namespace Job

/-- `Job.sweep` with a new context for every agent. -/
def sweepAfresh (job : Job) (traceAgents : Bool) (halt : HaltSignal) (entry : Frame) :
    List AgentId → Progress → JobCourse (Nat × Nat)
  | [], p => ⟨.ok (p.executed, p.skipped), p.scene, p.events⟩
  | id :: rest, p =>
    if !p.scene.world.isAlive id then
      job.sweepAfresh traceAgents halt entry rest { p with skipped := p.skipped + 1 }
    else if halt p.steps then
      ⟨.error .halted, p.scene, p.events.push (.halted job.owner.name p.executed)⟩
    else
      let events :=
        if traceAgents then p.events.push (.visiting (p.scene.world.title id)) else p.events
      let context := Context.new job.owner none job.set.tag
      let course := (context.reset id entry job.address).run p.scene
      let events := events ++ course.steps.map Event.step
      match course.result with
      | .ok () =>
        job.sweepAfresh traceAgents halt entry rest
          { context := course.context.release
            scene := course.scene
            events
            executed := p.executed + 1
            skipped := p.skipped
            steps := p.steps + course.steps.size }
      | .error fault =>
        let failure := failure course.context course.scene fault
        ⟨.error failure, course.scene, events.push (.aborted job.owner.name failure)⟩

/-- **`Job.run` with a new context for every agent.** -/
def runAfresh (job : Job) (s : Scene) (traceAgents : Bool) (halt : HaltSignal) :
    JobCourse Summary :=
  let (roster, random) := Roster.ofSet job.set s.world s.random
  let (entry, s) := job.entryFrame { s with random }
  let start : Progress :=
    { context := .new job.owner none job.set.tag
      scene := s
      events := #[.started job.owner.name job.procedure.name roster.size]
      executed := 0
      skipped := 0
      steps := 0 }
  let course := job.sweepAfresh traceAgents halt entry roster.upcoming start
  match course.result with
  | .ok (executed, skipped) =>
    ⟨.ok ⟨roster.size, executed, skipped⟩, course.scene,
      course.events.push (.finished job.owner.name executed skipped)⟩
  | .error failure => ⟨.error failure, course.scene, course.events⟩

/-- **From any point of a run on a new context is as good as the old one**, as long as the old one
has the owner and the tag of the job. -/
theorem sweep_eq_sweepAfresh {job : Job} {p : Progress} (howner : p.context.owner = job.owner)
    (htag : p.context.tag = job.set.tag) (traceAgents : Bool) (halt : HaltSignal)
    (entry : Frame) (ids : List AgentId) :
    job.sweep traceAgents halt entry ids p = job.sweepAfresh traceAgents halt entry ids p := by
  induction ids generalizing p with
  | nil => rfl
  | cons id rest ih =>
    have hreset : p.context.reset id entry job.address
        = (Context.new job.owner none job.set.tag).reset id entry job.address :=
      Context.reset_congr howner htag id entry job.address
    have hrun := ((Context.new job.owner none job.set.tag).reset id entry job.address).sameRun_run
      p.scene
    rw [sweep, sweepAfresh, hreset]
    split
    · exact ih howner htag
    · split
      · rfl
      · dsimp only
        generalize ((Context.new job.owner none job.set.tag).reset id entry job.address).run p.scene
          = course at hrun ⊢
        cases course.result with
        -- the context goes on to the next agent as the run has left it
        | ok => exact ih hrun.owner_eq hrun.tag_eq
        | error fault => rfl

/-- **No state is carried over from one agent to the next.** A run with one context for all agents
is a run with a new one for each of them. Its steps are those of its turns, and whatever the
agents before it have done, an agent's turn begins with a step from one and the same state but for
the agent. -/
theorem run_eq_runAfresh (job : Job) (s : Scene) (traceAgents : Bool) (halt : HaltSignal) :
    job.run s traceAgents halt = job.runAfresh s traceAgents halt
      ∧ (job.run s traceAgents halt).steps = (job.turns s halt).flatMap Turn.steps
      ∧ ∀ turn ∈ job.turns s halt, turn.started = true →
          ∃ first later, turn.steps = first :: later
            ∧ first.before
              = { owner := job.owner
                  agent := some turn.id
                  frame := some (job.caller.getD ⟨s.nextFrame, job.procedure, none, job.address⟩)
                  ip := job.address
                  finished := false
                  calls := 0
                  tag := job.set.tag } := by
  refine ⟨?_, job.steps_run s traceAgents halt, fun turn hturn hstarted => ?_⟩
  · have hsweep (entry : Frame) (ids : List AgentId) (scene : Scene) (events : Array Event) :
        job.sweep traceAgents halt entry ids
            ⟨.new job.owner none job.set.tag, scene, events, 0, 0, 0⟩
          = job.sweepAfresh traceAgents halt entry ids
            ⟨.new job.owner none job.set.tag, scene, events, 0, 0, 0⟩ :=
      sweep_eq_sweepAfresh rfl rfl traceAgents halt entry ids
    unfold run runAfresh
    dsimp only
    rewrite [hsweep]
    rfl
  · obtain ⟨start, hstart⟩ := Option.isSome_iff_exists.mp hstarted
    have hstate := (job.takes_turns s halt).start_eq hturn hstart
    have hfinished : start.finished = false := by rw [hstate]
    obtain ⟨later, hlater⟩ := Context.steps_run (s := turn.scene) hfinished
    refine ⟨start.recordOf turn.scene, later, ?_, hstate⟩
    rw [Turn.steps, Turn.course?, hstart]
    exact hlater

/-- The first cow dies inside of a call, and the second one begins outside of it all the same. -/
theorem run_eq_runAfresh_breeding :
    breeding.run .pasture false .never = breeding.runAfresh .pasture false .never
      ∧ ∃ turn ∈ breeding.turns .pasture .never, turn.id = ⟨3, 0⟩ ∧ turn.started = true
        ∧ ∃ first later, turn.steps = first :: later
          ∧ first.before
            = { owner := breeding.owner
                agent := some turn.id
                frame := some ⟨0, breeding.procedure, none, 0⟩
                ip := 0
                finished := false
                calls := 0
                tag := Kind.turtle.mask } := by
  obtain ⟨hrun, -, hturns⟩ := breeding.run_eq_runAfresh .pasture false .never
  have hsecond : (breeding.turns .pasture .never)[1]?.map (fun turn => (turn.id, turn.started))
      = some (⟨3, 0⟩, true) := by decide +kernel
  obtain ⟨turn, hturn, heq⟩ := Option.map_eq_some_iff.mp hsecond
  have hid : turn.id = ⟨3, 0⟩ := congrArg Prod.fst heq
  have hstarted : turn.started = true := congrArg Prod.snd heq
  have hmem := List.mem_of_getElem? hturn
  exact ⟨hrun, turn, hmem, hid, hstarted, hturns turn hmem hstarted⟩

end Job

end AgentSweep
