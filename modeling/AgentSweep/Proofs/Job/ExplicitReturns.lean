import AgentSweep.Proofs.Job.Addresses
import AgentSweep.Proofs.Job.Callers
import AgentSweep.Proofs.Job.Reports
import AgentSweep.Proofs.Machine.ExplicitReturns

/-!
# Jobs with explicit returns

Whether the bodies that a job runs end by themselves or with an explicit return is nobody's
business. The job comes to the same result, with the same failure at the same place, and leaves the
same world and the same generator. So does the report of a reporter (`Job.explicit_returns`).

A job with a caller runs the procedure of the caller's frame, and it is that one which needs the
explicit returns. Who called the caller does not matter.
-/

namespace AgentSweep

open Context (CoursesMatch GainsReturns)

variable {a : AgentId} {entry : Frame} {c d : Context} {s t : Scene}

/-! ## Turns -/

/-- A failure is told alike with explicit returns. -/
theorem Context.GainsReturns.failure_eq (h : GainsReturns entry a (c, s) (d, t)) (fault : Fault) :
    Job.failure c s fault = Job.failure d t fault := by
  have hname : c.withReturns.procedureName = c.procedureName := by
    unfold Context.procedureName Context.withReturns
    cases c.frame with
    | none => rfl
    | some frame => simp
  rw [← Turn.failure_eq_of_kindred h.kindred.context h.kindred.stage_eq, Job.failure, Job.failure,
    hname]
  rfl

namespace Turn

/-- Two runs of an agent that differ in their returns. -/
abbrev GainsReturns (entry : Frame) (a : AgentId) (first second : Course Unit) : Prop :=
  CoursesMatch (Context.GainsReturns entry a) first second

theorem GainsReturns.agree {first second : Course Unit} (h : GainsReturns entry a first second) :
    first.Agree second :=
  ⟨h.result_eq, h.ends.kindred.context.owner_eq, h.ends.kindred.context.tag_eq,
    h.ends.kindred.stage_eq, h.size_steps_eq⟩

/-- Turns that differ in their returns are accounted for in the same way. -/
theorem Paired.account_eq {x y : Turn} (h : Paired (GainsReturns entry) x y) :
    x.account = y.account := by
  cases h with
  | skipped => rfl
  | @run id s t c d _ hcourses =>
    refine congrArg (Prod.mk true) ?_
    cases hresult : (c.run s).result with
    | ok => rw [failure?_of_ok hresult, failure?_of_ok (hcourses.result_eq ▸ hresult)]
    | error fault =>
      rw [failure?_of_error hresult, failure?_of_error (hcourses.result_eq ▸ hresult),
        hcourses.ends.failure_eq]

/-- Paired turns leave the same stage. -/
theorem stage_sceneAfter_eq {ρ : AgentId → Course Unit → Course Unit → Prop}
    (hagree : ∀ id x y, ρ id x y → x.Agree y) {turns others : List Turn}
    (h : List.Forall₂ (Paired ρ) turns others) (hstage : s.stage = t.stage) :
    (sceneAfter s turns).stage = (sceneAfter t others).stage := by
  induction h generalizing s t with
  | nil => exact hstage
  | cons hpair _ ih =>
    cases hpair with
    | skipped hnext => exact ih hnext
    | run _ hcourses => exact ih (hagree _ _ _ hcourses).stage_eq

end Turn

namespace Job

variable {job : Job} {halt : HaltSignal} {caller : Option Frame}

/-! ## Runs and reports -/

/-- **The job with explicit returns**, in the frame of a caller if it has one. -/
def withReturns (job : Job) (caller : Option Frame) : Job :=
  { job with procedure := job.procedure.withReturns, caller }

/-- The frame in which the agents begin has explicit returns if that of the caller has. -/
theorem procedure_entry_withReturns
    (hcaller : caller.map Frame.procedure = job.caller.map fun f => f.procedure.withReturns) :
    ((job.withReturns caller).entry s).procedure = (job.entry s).procedure.withReturns := by
  unfold entry withReturns
  cases hjob : job.caller with
  | none =>
    rw [hjob, Option.map_none, Option.map_eq_none_iff] at hcaller
    rw [hcaller]
    rfl
  | some frame =>
    rw [hjob, Option.map_some] at hcaller
    obtain ⟨other, rfl, hother⟩ := Option.map_eq_some_iff.mp hcaller
    exact hother

theorem stage_opening (job : Job) (s : Scene) :
    (job.opening s).stage = ⟨s.world, (Roster.ofSet job.set s.world s.random).2⟩ := by
  unfold opening entryFrame
  cases job.caller <;> rfl

/-- **The turns of a run go together with those of the run with explicit returns.** -/
theorem forall₂_turns_withReturns
    (hcaller : caller.map Frame.procedure = job.caller.map fun f => f.procedure.withReturns)
    (hsize : job.address ≤ (job.entry s).procedure.size) (halt : HaltSignal) :
    List.Forall₂ (Turn.Paired (Turn.GainsReturns (job.entry s))) (job.turns s halt)
      ((job.withReturns caller).turns s halt) := by
  have hstage : (job.opening s).stage = ((job.withReturns caller).opening s).stage := by
    rw [stage_opening, stage_opening]
    rfl
  refine forall₂_turnsFrom (fun _ _ _ h => h.agree) ?_ (job.snapshot s) rfl rfl hstage 0
  intro id c d s' t howner htag h
  refine GainsReturns.run ⟨⟨job.entry s, rfl, .entry, hsize⟩, ?_⟩ rfl
  exact ⟨⟨⟨rfl, rfl⟩, howner, rfl, rfl, rfl, htag, _, _, rfl, rfl,
    (Frame.procedure_withReturns _).trans (procedure_entry_withReturns hcaller).symm⟩, h⟩

/-- The evaluation of a reporter matches the one with explicit returns. -/
theorem coursesMatch_evaluation_withReturns (job : Job) (caller : Option Frame) (s : Scene)
    (agent : AgentId) :
    CoursesMatch (GainsReturns (job.reportFrame s) agent) (job.evaluation s agent)
      ((job.withReturns caller).evaluation s agent) := by
  refine GainsReturns.evaluate ⟨⟨job.reportFrame s, rfl, .entry, Nat.zero_le _⟩, ?_⟩ rfl
  exact ⟨⟨⟨rfl, rfl⟩, rfl, rfl, rfl, rfl, rfl, _, _, rfl, rfl, Frame.procedure_withReturns _⟩, rfl⟩

/-- **To come to the end of a body is to return.** Let a job be given explicit returns at the end of
its procedure and of all that this calls, and so the frame of its caller if it has one. From an
address that is not behind the end it runs to the same result, and leaves the same world, with the
same output, and the same generator, whenever the halt flag goes up. And it reports the same value,
or fails in the same way. -/
theorem explicit_returns (job : Job) (s : Scene) (caller : Option Frame)
    (hcaller : caller.map Frame.procedure = job.caller.map fun f => f.procedure.withReturns) :
    (job.address ≤ (job.entry s).procedure.size → ∀ (traceAgents : Bool) (halt : HaltSignal),
        ((job.withReturns caller).run s traceAgents halt).result
            = (job.run s traceAgents halt).result
          ∧ ((job.withReturns caller).run s traceAgents halt).scene.stage
            = (job.run s traceAgents halt).scene.stage)
      ∧ ((job.withReturns caller).report s).result = (job.report s).result
      ∧ ((job.withReturns caller).report s).scene.stage = (job.report s).scene.stage := by
  refine ⟨fun hsize traceAgents halt => ?_, ?_⟩
  · have hturns := forall₂_turns_withReturns hcaller hsize halt
    have haccounts : (job.turns s halt).map Turn.account
        = ((job.withReturns caller).turns s halt).map Turn.account := by
      rw [← List.forall₂_eq_eq_eq, List.forall₂_map_left_iff, List.forall₂_map_right_iff]
      exact hturns.imp fun _ _ h => h.account_eq
    refine ⟨(result_run_congr (by rfl) haccounts).symm, ?_⟩
    rw [scene_run, scene_run]
    refine (Turn.stage_sceneAfter_eq (fun _ _ _ h => h.agree) hturns ?_).symm
    rw [stage_opening, stage_opening]
    rfl
  · have hset : (job.withReturns caller).set.first? s.world = job.set.first? s.world := rfl
    cases hfirst : job.set.first? s.world with
    | none =>
      rw [report, report, hset, hfirst]
      exact ⟨rfl, rfl⟩
    | some agent =>
      obtain ⟨hresult, hends, -⟩ := coursesMatch_evaluation_withReturns job caller s agent
      obtain ⟨hjob, hscene⟩ := report_of_some hfirst
      obtain ⟨hother, hscene'⟩ := report_of_some (hset.trans hfirst)
      rw [hjob, hscene, hother, hscene', ← hresult]
      refine ⟨?_, hends.kindred.stage_eq.symm⟩
      cases (job.evaluation s agent).result with
      | ok value => rfl
      | error fault => exact congrArg Except.error (hends.failure_eq fault).symm

/-- The frame of the drivers with explicit returns. Its caller does without them. -/
def returning : Frame := { Frame.driving with procedure := Frame.driving.procedure.withReturns }

/-- A failure after a call is found at the same address, whether or not the called command returns
explicitly, and a frame may have its returns from a caller. -/
theorem explicit_returns_grazing :
    (grazing.withReturns none).procedure.size = 3
      ∧ grazing.address ≤ (grazing.entry .pasture).procedure.size
      ∧ ((grazing.withReturns none).run .pasture false .never).result
        = .error (.fault "graze" "turtle 2" 1 (.notOwned "turtle 2" "grass"))
      ∧ ((grazing.withReturns none).report .pasture).result = (grazing.report .pasture).result
      ∧ (some returning).map Frame.procedure
        = (drivingFrom 1).caller.map (fun f => f.procedure.withReturns)
      ∧ (drivingFrom 1).address ≤ ((drivingFrom 1).entry .pasture).procedure.size
      ∧ (((drivingFrom 1).withReturns (some returning)).run .pasture false .never).result
        = .ok ⟨2, 2, 0⟩ := by
  have hgrazing : (grazing.run .pasture false .never).result
      = .error (.fault "graze" "turtle 2" 1 (.notOwned "turtle 2" "grass")) := by decide +kernel
  have hdriving : ((drivingFrom 1).run .pasture false .never).result = .ok ⟨2, 2, 0⟩ := by
    decide +kernel
  obtain ⟨hrun, hreport, -⟩ := grazing.explicit_returns .pasture none rfl
  obtain ⟨hruns, -⟩ := (drivingFrom 1).explicit_returns .pasture (some returning) rfl
  exact ⟨rfl, Nat.zero_le _, (hrun (Nat.zero_le _) false .never).1.trans hgrazing, hreport, rfl,
    Nat.le_refl 1, (hruns (Nat.le_refl 1) false .never).1.trans hdriving⟩

end Job

end AgentSweep
