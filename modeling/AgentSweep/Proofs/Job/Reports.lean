import AgentSweep.Job.Workspace
import AgentSweep.Proofs.Job.Reachable
import AgentSweep.Proofs.Machine.Reports

/-!
# Where the value of a job comes from

A report comes to a value if the evaluation that it makes comes to a `report` of the reporter's own
body. `Job.report_law` says so, and also what a report does not depend on: the address and the
caller of the job, and the halt flag.
-/

namespace AgentSweep

namespace Job

open Context (Reaches Reports)

variable {job : Job} {s : Scene} {agent : AgentId} {b : Context × Scene}

/-! ## Reports of jobs -/

/-- The frame in which a report evaluates the procedure of its job. -/
def reportFrame (job : Job) (s : Scene) : Frame := (s.makeFrame job.procedure none 0).1

/-- **Where a report begins** for an agent: at address 0 of a frame that was made for it. -/
def reportOutset (job : Job) (s : Scene) (agent : AgentId) : Context × Scene :=
  ((Context.new job.owner (some agent) job.set.tag).enter (job.reportFrame s),
    (s.makeFrame job.procedure none 0).2)

/-- The evaluation that a report makes for an agent. -/
def evaluation (job : Job) (s : Scene) (agent : AgentId) : Course Value :=
  (Context.new job.owner (some agent) job.set.tag).evaluate (s.makeFrame job.procedure none 0).2
    (job.reportFrame s)

theorem result_report_of_none (h : job.set.first? s.world = none) :
    (job.report s).result = .error .emptySet := by
  rw [report, h]

/-- **A report comes to what its evaluation comes to**, with a diagnosis if that fails. -/
theorem report_of_some (h : job.set.first? s.world = some agent) :
    (job.report s).result
        = (job.evaluation s agent).result.mapError
          (failure (job.evaluation s agent).context (job.evaluation s agent).scene)
      ∧ (job.report s).scene = (job.evaluation s agent).scene := by
  unfold report evaluation reportFrame
  rw [h]
  dsimp only
  generalize (Context.new job.owner (some agent) job.set.tag).evaluate
    (s.makeFrame job.procedure none 0).2 (s.makeFrame job.procedure none 0).1 = course
  cases course.result <;> exact ⟨rfl, rfl⟩

/-- A report comes to a value if and only if its reporter comes to report it. -/
theorem result_report_eq_ok_iff {value : Value} :
    (job.report s).result = .ok value
      ↔ ∃ agent, job.set.first? s.world = some agent
        ∧ ∃ b, Reaches (job.reportOutset s agent) b ∧ Reports (job.reportFrame s) b value := by
  cases hfirst : job.set.first? s.world with
  | none => simp [result_report_of_none hfirst]
  | some agent =>
    have hresult : (job.report s).result = .ok value
        ↔ (job.evaluation s agent).result = .ok value := by
      rw [(report_of_some hfirst).1]
      cases (job.evaluation s agent).result <;> simp [Except.mapError]
    rw [hresult, evaluation, Context.result_evaluate_eq_ok_iff]
    exact ⟨fun h => ⟨agent, rfl, h⟩, fun ⟨_, hagent, h⟩ => Option.some.inj hagent ▸ h⟩

/-- A `report` in a procedure that has been called makes the report of the job fail. -/
theorem result_report_of_called (hfirst : job.set.first? s.world = some agent)
    (hb : Reaches (job.reportOutset s agent) b) (hpos : 0 < b.1.calls) {e : Expr}
    (hi : (b.1.step b.2).instruction = some (.report e)) :
    (job.report s).result = .error (failure b.1 b.2 .reportOutsideReporter) := by
  have hstart : (job.reportOutset s agent).1.StandsOn (job.reportFrame s) := ⟨_, rfl, .entry⟩
  obtain ⟨frame, hframe, habove⟩ := hstart.of_reaches hb
  have hstep := Context.step_of_report_of_command hframe hi (habove.role_eq hpos)
  obtain ⟨hresult, hcontext, hscene⟩ := Context.evaluate_of_error hb (by rw [hstep])
  rw [(report_of_some hfirst).1, evaluation, hresult, hcontext, hscene, hstep]
  rfl

/-- **A value comes from the reporter itself.** A report comes to a value if and only if its set has
a first member and the evaluation for that comes to a `report` of the reporter's own body, and the
value is the one reported there. A command comes to no value, and a `report` in a procedure that has
been called reports nothing, but makes the evaluation fail. Neither the address and the caller of
the job nor the halt flag make a difference to anything that a report does. -/
theorem report_law (job : Job) (s : Scene) :
    (∀ value, (job.report s).result = .ok value
        ↔ ∃ agent, job.set.first? s.world = some agent
          ∧ ∃ b, Reaches (job.reportOutset s agent) b ∧ Reports (job.reportFrame s) b value)
      ∧ (job.procedure.role = .command → ∀ value, (job.report s).result ≠ .ok value)
      ∧ (∀ agent, job.set.first? s.world = some agent →
        ∀ b, Reaches (job.reportOutset s agent) b → 0 < b.1.calls →
          (∀ value, (b.1.step b.2).outcome ≠ .ok (.reported value))
            ∧ ∀ e, (b.1.step b.2).instruction = some (.report e) →
              (job.report s).result = .error (failure b.1 b.2 .reportOutsideReporter))
      ∧ ∀ (address : Nat) (caller : Option Frame) (ws : Workspace) (halted : Bool)
        (random : Random), { job with address, caller }.report ({ ws with halted }.scene random)
          = job.report (ws.scene random) := by
  refine ⟨fun value => result_report_eq_ok_iff, fun hrole value hvalue => ?_,
    fun agent hfirst b hb hpos => ⟨fun value hvalue => ?_,
      fun e => result_report_of_called hfirst hb hpos⟩, fun _ _ _ _ _ => rfl⟩
  · obtain ⟨_, -, _, -, hreports⟩ := result_report_eq_ok_iff.mp hvalue
    cases hrole.symm.trans hreports.role_eq
  · have hstart : (job.reportOutset s agent).1.StandsOn (job.reportFrame s) := ⟨_, rfl, .entry⟩
    have hreports := Reports.of_step (hstart.of_reaches hb) hvalue
    exact absurd hreports.calls_eq (Nat.ne_of_gt hpos)

/-- Whether the first cow has been fed, once somebody has fed it. -/
def tasting : Job where
  owner := default
  set := .breed .turtle "cows"
  procedure := .reporter "taste"
    [.call (.command "feed" [.set "fed" (.constant (.boolean true))]), .report (.own "fed")]
  address := 9
  caller := none

/-- The number of the first cow, which another procedure is quick to tell. -/
def prompting : Job where
  owner := default
  set := .breed .turtle "cows"
  procedure := .reporter "ask" [.call (.command "answer" [.report .who]), .report .who]
  address := 0
  caller := none

theorem eq_boolean_of_beq {value : Value} {b : Bool} (h : (value == .boolean b) = true) :
    value = .boolean b := by
  cases value with
  | boolean own => exact congrArg Value.boolean (eq_of_beq (α := Bool) h)
  | _ => cases h

/-- A reporter may call commands before it reports, but these may not report in its place. -/
theorem report_law_tasting :
    tasting.set.first? Scene.pasture.world = some ⟨1, 0⟩
      ∧ (tasting.report .pasture).result = .ok (.boolean true)
      ∧ (∃ b, Reaches (tasting.reportOutset .pasture ⟨1, 0⟩) b
        ∧ Reports (tasting.reportFrame .pasture) b (.boolean true))
      ∧ breeding.procedure.role = .command
      ∧ (∀ value, (breeding.report .pasture).result ≠ .ok value)
      ∧ ∃ b, Reaches (prompting.reportOutset .pasture ⟨1, 0⟩) b ∧ b.1.calls = 1
        ∧ (b.1.step b.2).instruction = some (.report .who)
        ∧ (prompting.report .pasture).result
          = .error (.fault "answer" "turtle 0" 0 .reportOutsideReporter) := by
  have hvalue : (tasting.report .pasture).result = .ok (.boolean true) := by
    have hbeq : (tasting.report .pasture).result.toOption.map (· == .boolean true)
        = some true := by
      decide +kernel
    cases hresult : (tasting.report .pasture).result with
    | error =>
      rw [hresult] at hbeq
      cases hbeq
    | ok value =>
      rw [hresult] at hbeq
      rw [eq_boolean_of_beq (Option.some.inj hbeq)]
  have hfirst : tasting.set.first? Scene.pasture.world = some ⟨1, 0⟩ := by decide +kernel
  obtain ⟨agent, hagent, hreports⟩ := ((tasting.report_law .pasture).1 _).mp hvalue
  cases hfirst.symm.trans hagent
  -- the first step calls the other procedure, and the second one is to report
  have hcalled := Context.reaches_step (c := (prompting.reportOutset .pasture ⟨1, 0⟩).1)
    (s := (prompting.reportOutset .pasture ⟨1, 0⟩).2) rfl
  have hfails := ((prompting.report_law .pasture).2.2.1 ⟨1, 0⟩ (by decide +kernel) _ hcalled
    Nat.one_pos).2 .who rfl
  exact ⟨hfirst, hvalue, hreports, rfl, (breeding.report_law .pasture).2.1 rfl, _, hcalled, rfl,
    rfl, hfails.trans (congrArg Except.error (by decide +kernel))⟩

end Job

end AgentSweep
