import AgentSweep.Proofs.Job.Visits
import AgentSweep.Proofs.Machine.Lineage

/-!
# Running in the frame of a caller

A job with a caller runs every agent in the frame of that caller. A frame holds a procedure, and it
is the procedure of the frame that is run then. The procedure of the job itself shows in the log and
nowhere else, and nobody checks that it is the same one.

The frame brings its procedure and its lineage, and lineage is not seen. So to run in the frame of a
caller is to run the procedure of that frame without a caller (`Job.run_within`), and a job does
with a caller what it does without one if the frame holds the procedure of the job. If it does not,
the job runs something else (`Job.not_run_within_eq_run_alone`).
-/

namespace AgentSweep

/-! ## Turns in pairs -/

/-- **Two runs agree** in all that the turns after them depend on. -/
structure Course.Agree (first second : Course Unit) : Prop where
  result_eq : first.result = second.result
  owner_eq : first.context.owner = second.context.owner
  tag_eq : first.context.tag = second.context.tag
  stage_eq : first.scene.stage = second.scene.stage
  size_steps_eq : first.steps.size = second.steps.size

/-- **Two turns go together**: they are turns of one agent on one stage, and it is skipped in both
or run in both, with related runs. -/
inductive Turn.Paired (ρ : AgentId → Course Unit → Course Unit → Prop) : Turn → Turn → Prop where
  | skipped {id : AgentId} {s t : Scene} (stage_eq : s.stage = t.stage) :
      Paired ρ ⟨id, s, none⟩ ⟨id, t, none⟩
  | run {id : AgentId} {s t : Scene} {c d : Context} (stage_eq : s.stage = t.stage)
      (courses : ρ id (c.run s) (d.run t)) : Paired ρ ⟨id, s, some c⟩ ⟨id, t, some d⟩

/-- **Turns go together one by one** if the runs of each agent do, from any contexts for one owner
and tag and on any one stage. -/
theorem Job.forall₂_turnsFrom {job other : Job} {halt : HaltSignal} {f g : Frame}
    {ρ : AgentId → Course Unit → Course Unit → Prop} (hagree : ∀ id x y, ρ id x y → x.Agree y)
    (hruns : ∀ id (c d : Context) (s t : Scene), c.owner = d.owner → c.tag = d.tag →
      s.stage = t.stage →
        ρ id ((c.reset id f job.address).run s) ((d.reset id g other.address).run t))
    (ids : List AgentId) {c d : Context} {s t : Scene} (howner : c.owner = d.owner)
    (htag : c.tag = d.tag) (h : s.stage = t.stage) (steps : Nat) :
    List.Forall₂ (Turn.Paired ρ) (job.turnsFrom halt f ids c s steps)
      (other.turnsFrom halt g ids d t steps) := by
  induction ids generalizing c d s t steps with
  | nil => exact .nil
  | cons id rest ih =>
    have hworld : s.world = t.world := (Stage.mk.inj h).1
    cases halive : s.world.isAlive id with
    | false =>
      rw [turnsFrom_of_dead halive, turnsFrom_of_dead (hworld ▸ halive)]
      exact .cons (.skipped h) (ih howner htag h steps)
    | true =>
      cases hhalt : halt steps with
      | true =>
        rw [turnsFrom_of_halted halive hhalt, turnsFrom_of_halted (hworld ▸ halive) hhalt]
        exact .nil
      | false =>
        have hcourses := hruns id c d s t howner htag h
        obtain ⟨hresult, howner', htag', hstage, hsize⟩ := hagree id _ _ hcourses
        rw [turnsFrom_of_alive halive hhalt, turnsFrom_of_alive (hworld ▸ halive) hhalt, ← hresult]
        refine .cons (.run h hcourses) ?_
        cases ((c.reset id f job.address).run s).result with
        | error fault => exact .nil
        | ok =>
          rw [hsize]
          exact ih (c := ((c.reset id f job.address).run s).context.release)
            (d := ((d.reset id g other.address).run t).context.release) howner' htag' hstage _

/-! ## What turns come to but for lineage -/

/-- What becomes of an entry, but for the lineage of frames. -/
structure TurnGist where
  id : AgentId
  /-- What the agent's code could do something to when the turn came. -/
  before : Stage
  started : Bool
  failure : Option JobFailure
  steps : List StepRecord
  after : Stage

namespace Turn

/-- **A turn without lineage.** -/
def gist (t : Turn) : TurnGist where
  id := t.id
  before := t.scene.stage
  started := t.started
  failure := t.failure?
  steps := t.steps.map StepRecord.bare
  after := t.after.stage

variable {turns others : List Turn}

theorem map_account_eq (h : turns.map gist = others.map gist) :
    turns.map account = others.map account := by
  have haccounts := congrArg (List.map fun g : TurnGist => (g.started, g.failure)) h
  rw [List.map_map, List.map_map] at haccounts
  exact haccounts

/-- What turns leave behind shows in their gist. -/
theorem stage_sceneAfter (s : Scene) (turns : List Turn) :
    (sceneAfter s turns).stage = (turns.map gist).foldl (fun _ g => g.after) s.stage := by
  induction turns generalizing s with
  | nil => rfl
  | cons t turns ih => exact ih t.after

/-- A failure is told alike for kindred contexts. -/
theorem failure_eq_of_kindred {a : AgentId} {c d : Context} {s t : Scene} (hcd : c.Alike d a a)
    (h : s.stage = t.stage) (fault : Fault) : Job.failure c s fault = Job.failure d t fault := by
  obtain ⟨f, g, hf, hg, hlike⟩ := hcd.frames
  have hname : c.procedureName = d.procedureName := by
    simp only [Context.procedureName, hf, hg, hlike.procedure_eq]
  have htitle : c.agentTitle s.world = d.agentTitle t.world := by
    rw [Context.agentTitle, Context.agentTitle, hcd.agents.1, hcd.agents.2, (Stage.mk.inj h).1]
  rw [Job.failure, Job.failure, hname, htitle, hcd.ip_eq]

theorem failure?_eq_of_kindred {a : AgentId} {c d : Context} {s t : Scene}
    (h : Context.CoursesKindred a (c.run s) (d.run t)) :
    (Turn.mk a s (some c)).failure? = (Turn.mk a t (some d)).failure? := by
  cases hresult : (c.run s).result with
  | ok => rw [failure?_of_ok hresult, failure?_of_ok (h.result_eq ▸ hresult)]
  | error fault =>
    rw [failure?_of_error hresult, failure?_of_error (h.result_eq ▸ hresult),
      failure_eq_of_kindred h.context h.stage_eq]

/-- **The turns of kindred contexts have the same gist.** -/
theorem Paired.gist_eq {x y : Turn} (h : Paired Context.CoursesKindred x y) : x.gist = y.gist := by
  cases h with
  | @skipped id _ _ hstage =>
    exact congrArg (fun stage => TurnGist.mk id stage false none [] stage) hstage
  | @run id s t c d hstage hcourses =>
    show TurnGist.mk id s.stage true _ ((c.run s).steps.toList.map _) (c.run s).scene.stage
      = TurnGist.mk id t.stage true _ ((d.run t).steps.toList.map _) (d.run t).scene.stage
    rw [hstage, failure?_eq_of_kindred hcourses, hcourses.steps_eq, hcourses.stage_eq]

end Turn

namespace Job

variable {job other : Job} {halt : HaltSignal} {f g : Frame} {c d : Context} {s t : Scene}

/-- **The turns of entries have the same gist** in frames with the same procedure. -/
theorem map_gist_turnsFrom (haddress : job.address = other.address)
    (hfg : f.procedure = g.procedure) (ids : List AgentId) (howner : c.owner = d.owner)
    (htag : c.tag = d.tag) (h : s.stage = t.stage) (steps : Nat) :
    (job.turnsFrom halt f ids c s steps).map Turn.gist
      = (other.turnsFrom halt g ids d t steps).map Turn.gist := by
  rw [← List.forall₂_eq_eq_eq, List.forall₂_map_left_iff, List.forall₂_map_right_iff]
  refine (forall₂_turnsFrom (ρ := Context.CoursesKindred) (fun _ _ _ h => ⟨h.result_eq,
    h.context.owner_eq, h.context.tag_eq, h.stage_eq, h.size_steps_eq⟩) ?_ ids howner htag h
    steps).imp fun _ _ h => h.gist_eq
  intro id c d s t howner htag h
  exact Context.kindred_run
    ⟨⟨⟨rfl, rfl⟩, howner, haddress, rfl, rfl, htag, f, g, rfl, rfl, hfg⟩, h⟩ rfl

/-! ## Runs with and without a caller -/

/-- The job in the frame of a caller. -/
def within (job : Job) (f : Frame) : Job := { job with caller := some f }

/-- The job for a procedure without a caller. -/
def alone (job : Job) (p : Procedure) : Job := { job with procedure := p, caller := none }

theorem map_gist_turns_within (job : Job) (f : Frame) (s : Scene) (halt : HaltSignal) :
    ((job.within f).turns s halt).map Turn.gist
      = ((job.alone f.procedure).turns s halt).map Turn.gist := by
  unfold turns
  refine map_gist_turnsFrom ?_ ?_ _ ?_ ?_ ?_ 0 <;> rfl

/-- **To run in the frame of a caller is to run its procedure.** Turn by turn, the run takes the
steps that it would take for the procedure of the frame without a caller, for the same agents in the
same worlds. It comes to the same result and leaves the same world, output and generator. Neither
the procedure of the job nor the lineage of the frame matters. -/
theorem run_within (job : Job) (f : Frame) (s : Scene) (traceAgents : Bool) (halt : HaltSignal) :
    ((job.within f).run s traceAgents halt).result
        = ((job.alone f.procedure).run s traceAgents halt).result
      ∧ ((job.within f).run s traceAgents halt).scene.stage
        = ((job.alone f.procedure).run s traceAgents halt).scene.stage
      ∧ ((job.within f).turns s halt).map Turn.gist
        = ((job.alone f.procedure).turns s halt).map Turn.gist := by
  have hturns := job.map_gist_turns_within f s halt
  refine ⟨result_run_congr rfl (Turn.map_account_eq hturns), ?_, hturns⟩
  rw [scene_run, scene_run, Turn.stage_sceneAfter, Turn.stage_sceneAfter, hturns]
  rfl

/-- Every cow lows. -/
def lowing : Job where
  owner := default
  set := .breed .turtle "cows"
  procedure := .command "low" [.print (.constant (.text "moo"))]
  address := 0
  caller := none

end Job

/-- The frame of a procedure that does nothing. -/
def Frame.resting : Frame := ⟨0, .command "rest" [], none, 0⟩

/-- **A frame can change what is run**: in the frame of another procedure, no cow lows. -/
theorem Job.not_run_within_eq_run_alone :
    ¬ ∀ (job : Job) (f : Frame) (s : Scene) (traceAgents : Bool) (halt : HaltSignal),
      ((job.within f).run s traceAgents halt).result
          = ((job.alone job.procedure).run s traceAgents halt).result
        ∧ ((job.within f).run s traceAgents halt).scene.stage
          = ((job.alone job.procedure).run s traceAgents halt).scene.stage := by
  intro h
  have hlowing : ((lowing.alone lowing.procedure).run .pasture false .never).scene.world.output
      = #["moo", "moo"] := by decide +kernel
  have hresting : ((lowing.within .resting).run .pasture false .never).scene.world.output
      = #[] := by decide +kernel
  have hstage := (h lowing .resting .pasture false .never).2
  have houtput := congrArg (fun stage => stage.world.output) hstage
  exact absurd (hresting.symm.trans (houtput.trans hlowing)) (by decide)

end AgentSweep
