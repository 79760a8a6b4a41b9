import AgentSweep.Proofs.Job.Failures
import AgentSweep.Proofs.Job.Reports

/-!
# Whom the failure of a report names

A report is made for the first member of its set. If it fails, the failure names this agent, but as
it is when the evaluation is over, and not as it was when it began. The two differ in one case: an
agent that has killed itself on the way is nobody by then.

No other step can make them differ. Whoever is run stays who it is as long as it lives
(`Context.Reaches.same`), and a step that kills it is the last one of the run
(`Context.step_of_kill_mem`). An evaluation that ends in this way has reported nothing, so that
nobody is named in failures of one sort only (`Job.report_failure_law`).
-/

namespace AgentSweep

namespace Context

variable {c : Context} {s : Scene} {frame : Frame} {b : Context × Scene}

/-- An evaluation that is over without a value fails, in the state that its last step leaves. -/
theorem evaluate_of_over (hb : Reaches (c.enter frame, s) b)
    (houtcome : (b.1.step b.2).outcome = .ok .over) :
    (c.evaluate s frame).result = .error (.noReport frame.procedure.name)
      ∧ (c.evaluate s frame).context = (b.1.step b.2).context.finish
      ∧ (c.evaluate s frame).scene = (b.1.step b.2).scene := by
  have hresult := hb.result_drive_of_over houtcome #[]
  obtain ⟨hcontext, hscene, -⟩ := hb.drive_eq_last (by rw [houtcome]; nofun) #[]
  rw [evaluate_eq, hresult, ← hcontext, ← hscene]
  exact ⟨rfl, rfl, rfl⟩

end Context

/-- A living first member. -/
theorem AgentSet.exists_of_first? {set : AgentSet} {w : World} (h : w.Indexed) {id : AgentId}
    (hfirst : set.first? w = some id) : ∃ agent, w.get? id = some agent := by
  rw [first?_eq_head?] at hfirst
  exact World.isAlive_iff.mp (isAlive_of_mem_members h (List.mem_of_head? hfirst))

namespace Job

open Context (Reaches)

variable {job : Job} {s : Scene} {id : AgentId} {first : Agent} {b : Context × Scene}

/-- **The failure of a report names the agent**, who was `first` when the report began: the agent is
still there, and is named by its kind and its number. -/
structure NamesFirst (job : Job) (s : Scene) (id : AgentId) (first : Agent) (agent : String) :
    Prop where
  agent_eq : agent = s!"{first.kind.name} {first.who}"
  ne_nobody : agent ≠ "nobody"
  exists_same : ∃ now, (job.report s).scene.world.get? id = some now ∧ now.SameAs first

/-- **The failure of a report names nobody**: one of the steps has killed the agent. The evaluation
was over with that step, and nothing had been reported. -/
structure NamesNobody (job : Job) (s : Scene) (id : AgentId) (agent : String) (cause : Fault) :
    Prop where
  agent_eq : agent = "nobody"
  cause_eq : cause = .noReport job.procedure.name
  exists_kill : ∃ b, Reaches (job.reportOutset s id) b ∧ b.1.changes b.2 = [.kill id]
  isAlive_eq : (job.report s).scene.world.isAlive id = false

/-! ## How an evaluation ends -/

/-- Every state of an evaluation belongs to the agent for which the report is made. -/
theorem agent_of_reaches (hb : Reaches (job.reportOutset s id) b) : b.1.agent = some id :=
  hb.sameRun.agent_eq

/-- If the evaluation is over without a value, the report fails. -/
theorem report_of_over (hfirst : job.set.first? s.world = some id)
    (hb : Reaches (job.reportOutset s id) b) (houtcome : (b.1.step b.2).outcome = .ok .over) :
    (job.report s).result
        = .error (failure (b.1.step b.2).context (b.1.step b.2).scene
          (.noReport job.procedure.name))
      ∧ (job.report s).scene = (b.1.step b.2).scene := by
  obtain ⟨hresult, hcontext, hscene⟩ := Context.evaluate_of_over hb houtcome
  obtain ⟨hreport, hreportScene⟩ := report_of_some hfirst
  rw [hreport, hreportScene, evaluation, hresult, hcontext, hscene]
  exact ⟨rfl, rfl⟩

/-- If a step of the evaluation is refused, the report fails. -/
theorem report_of_error (hfirst : job.set.first? s.world = some id)
    (hb : Reaches (job.reportOutset s id) b) {cause : Fault}
    (houtcome : (b.1.step b.2).outcome = .error cause) :
    (job.report s).result
        = .error (failure (b.1.step b.2).context (b.1.step b.2).scene cause)
      ∧ (job.report s).scene = (b.1.step b.2).scene := by
  obtain ⟨hresult, hcontext, hscene⟩ := Context.evaluate_of_error hb houtcome
  obtain ⟨hreport, hreportScene⟩ := report_of_some hfirst
  rw [hreport, hreportScene, evaluation, hresult, hcontext, hscene]
  exact ⟨rfl, rfl⟩

/-- **A report whose evaluation kills the agent fails**, and names nobody. -/
theorem report_of_kill_mem (hfirst : job.set.first? s.world = some id)
    (hb : Reaches (job.reportOutset s id) b) (hkill : Change.kill id ∈ b.1.changes b.2) :
    (job.report s).result = .error (.fault (b.1.step b.2).context.procedureName "nobody"
        (b.1.step b.2).context.ip (.noReport job.procedure.name))
      ∧ (job.report s).scene.world.isAlive id = false := by
  obtain ⟨hover, hchanges⟩ := Context.step_of_kill_mem (agent_of_reaches hb) hkill
  obtain ⟨hresult, hscene⟩ := report_of_over hfirst hb hover
  have hagent : (b.1.step b.2).context.agent = some id :=
    (Context.sameRun_step b.1 b.2).agent_eq.trans (agent_of_reaches hb)
  have hget : (b.1.step b.2).scene.world.get? id = none := by
    rw [Context.world_step, hchanges, World.after_cons, World.after_nil, World.apply,
      World.get?_kill, if_pos rfl]
  have htitle : (b.1.step b.2).context.agentTitle (b.1.step b.2).scene.world = "nobody" := by
    simp only [Context.agentTitle, World.title, hagent, hget]
  rw [hresult, hscene, failure, htitle]
  exact ⟨rfl, congrArg Option.isSome hget⟩

/-- **If the evaluation fails without killing the agent**, the agent is named. -/
theorem namesFirst_of_notMem (hget : s.world.get? id = some first)
    (hb : Reaches (job.reportOutset s id) b) (hkill : Change.kill id ∉ b.1.changes b.2)
    (hscene : (job.report s).scene = (b.1.step b.2).scene) :
    job.NamesFirst s id first
      ((b.1.step b.2).context.agentTitle (b.1.step b.2).scene.world) := by
  obtain ⟨between, hbetween, hsame⟩ := hb.same rfl hget
  obtain ⟨now, hnow, hlater⟩ := Context.same_step hbetween hkill
  have hfirst := hlater.trans hsame
  have htitle : (b.1.step b.2).context.agentTitle (b.1.step b.2).scene.world = now.title :=
    Context.agentTitle_of_get?
      ((Context.sameRun_step b.1 b.2).agent_eq.trans (agent_of_reaches hb)) hnow
  refine ⟨?_, htitle ▸ now.title_ne_nobody, now, hscene ▸ hnow, hfirst⟩
  rw [htitle, Agent.title, hfirst.kind_eq, hfirst.who_eq]

/-- A report that fails names the agent or nobody. -/
theorem names_of_fault (hfirst : job.set.first? s.world = some id)
    (hget : s.world.get? id = some first) {procedure agent : String} {address : Nat}
    {cause : Fault} (h : (job.report s).result = .error (.fault procedure agent address cause)) :
    job.NamesFirst s id first agent ∨ job.NamesNobody s id agent cause := by
  obtain ⟨b, hb, hlast⟩ := Context.exists_last (job.reportOutset s id).1 (job.reportOutset s id).2
  by_cases hkill : Change.kill id ∈ b.1.changes b.2
  · obtain ⟨hresult, hdead⟩ := report_of_kill_mem hfirst hb hkill
    cases h.symm.trans hresult
    exact .inr ⟨rfl, rfl, ⟨b, hb, (Context.step_of_kill_mem (agent_of_reaches hb) hkill).2⟩, hdead⟩
  · refine .inl ?_
    cases houtcome : (b.1.step b.2).outcome with
    | error fault =>
      obtain ⟨hresult, hscene⟩ := report_of_error hfirst hb houtcome
      cases h.symm.trans hresult
      exact namesFirst_of_notMem hget hb hkill hscene
    | ok outcome =>
      rcases outcome with _ | _ | value
      · exact absurd houtcome hlast
      · obtain ⟨hresult, hscene⟩ := report_of_over hfirst hb houtcome
        cases h.symm.trans hresult
        exact namesFirst_of_notMem hget hb hkill hscene
      · -- a value has been reported, so that nothing has failed
        have hstart : (job.reportOutset s id).1.StandsOn (job.reportFrame s) := ⟨_, rfl, .entry⟩
        have hreports := Context.Reports.of_step (hstart.of_reaches hb) houtcome
        have hok := result_report_eq_ok_iff.mpr ⟨id, hfirst, b, hb, hreports⟩
        cases h.symm.trans hok

/-- **A report that fails names the agent for which it was made, unless the agent has killed
itself.** The agent is the first member of the set, and it is named by the kind and the number that
it had when the evaluation began. Only if a step of the evaluation kills it does the failure name
nobody. That step is the last one, and the failure says that nothing was reported. -/
theorem report_failure_law (job : Job) (s : Scene) (h : s.world.Reachable) :
    (∀ procedure agent address cause,
        (job.report s).result = .error (.fault procedure agent address cause) →
          ∃ id first, job.set.first? s.world = some id ∧ s.world.get? id = some first
            ∧ (job.NamesFirst s id first agent ∨ job.NamesNobody s id agent cause))
      ∧ ∀ id, job.set.first? s.world = some id →
        ∀ b, Reaches (job.reportOutset s id) b → Change.kill id ∈ b.1.changes b.2 →
          ∃ procedure address, (job.report s).result
            = .error (.fault procedure "nobody" address (.noReport job.procedure.name)) := by
  refine ⟨fun procedure agent address cause hfault => ?_, fun id hfirst b hb hkill =>
    ⟨_, _, (report_of_kill_mem hfirst hb hkill).1⟩⟩
  cases hfirst : job.set.first? s.world with
  | none =>
    rw [result_report_of_none hfirst] at hfault
    cases hfault
  | some id =>
    obtain ⟨first, hget⟩ := AgentSet.exists_of_first? h.indexed hfirst
    exact ⟨id, first, rfl, hget, names_of_fault hfirst hget hfault⟩

/-- Whether the first cow has a weight, once it has had a calf and lost a companion. -/
def weighing : Job where
  owner := default
  set := .breed .turtle "cows"
  procedure := .reporter "weigh"
    [.call (.command "calve" [.hatch "cows", .killWho 2, .set "calves" .who]),
      .report (.own "weight")]
  address := 0
  caller := none

/-- The number of the first cow, who does not live to report it. -/
def slaughtering : Job where
  owner := default
  set := .breed .turtle "cows"
  procedure := .reporter "count" [.call (.command "slaughter" [.noop, .die]), .report .who]
  address := 0
  caller := none

theorem eq_error_of_map {α : Type} {result : Except JobFailure α} {failure : JobFailure}
    (h : result.map (fun _ => ()) = .error failure) : result = .error failure := by
  cases result <;> cases h
  rfl

/-- A cow that is alive at the end is named, and one that is not is nobody. -/
theorem report_failure_law_weighing :
    Scene.pasture.world.Reachable
      ∧ (weighing.report .pasture).result
        = .error (.fault "weigh" "turtle 0" 1 (.notOwned "turtle 0" "weight"))
      ∧ weighing.NamesFirst .pasture ⟨1, 0⟩ ⟨.turtle, "cows", 0, .empty⟩ "turtle 0"
      ∧ (∃ b, Reaches (slaughtering.reportOutset .pasture ⟨1, 0⟩) b
        ∧ Change.kill ⟨1, 0⟩ ∈ b.1.changes b.2)
      ∧ ∃ procedure address, (slaughtering.report .pasture).result
        = .error (.fault procedure "nobody" address (.noReport "count")) := by
  obtain ⟨hnames, -⟩ := weighing.report_failure_law .pasture .pasture
  obtain ⟨-, hnobody⟩ := slaughtering.report_failure_law .pasture .pasture
  have hresult : (weighing.report .pasture).result
      = .error (.fault "weigh" "turtle 0" 1 (.notOwned "turtle 0" "weight")) :=
    eq_error_of_map (by decide +kernel)
  have hweighed : weighing.set.first? Scene.pasture.world = some ⟨1, 0⟩ := by decide +kernel
  have hslaughtered : slaughtering.set.first? Scene.pasture.world = some ⟨1, 0⟩ := by
    decide +kernel
  have hcow : Scene.pasture.world.get? ⟨1, 0⟩ = some ⟨.turtle, "cows", 0, .empty⟩ := rfl
  obtain ⟨id, first, hid, hget, hnamed⟩ := hnames _ _ _ _ hresult
  cases hweighed.symm.trans hid
  cases hcow.symm.trans hget
  -- the other cow calls a procedure, does nothing for one step, and kills itself with the next
  have hkills : ∃ b, Reaches (slaughtering.reportOutset .pasture ⟨1, 0⟩) b
      ∧ Change.kill ⟨1, 0⟩ ∈ b.1.changes b.2 :=
    ⟨_, (Context.reaches_step rfl).trans (Context.reaches_step rfl), List.mem_singleton_self _⟩
  obtain ⟨b, hreaches, hkill⟩ := hkills
  refine ⟨.pasture, hresult, hnamed.resolve_right fun h => ?_, ⟨b, hreaches, hkill⟩,
    hnobody _ hslaughtered b hreaches hkill⟩
  exact absurd h.agent_eq (by decide)

/-- **A report can fail without naming anybody**: the agent is dead, and so it is nobody. -/
theorem not_report_names_first :
    ¬ ∀ (job : Job) (s : Scene), s.world.Reachable →
      ∀ procedure agent address cause,
        (job.report s).result = .error (.fault procedure agent address cause) →
          ∃ id first, job.set.first? s.world = some id ∧ s.world.get? id = some first
            ∧ agent = s!"{first.kind.name} {first.who}" := by
  intro h
  have hresult : (slaughtering.report .pasture).result
      = .error (.fault "slaughter" "nobody" 1 (.noReport "count")) :=
    eq_error_of_map (by decide +kernel)
  obtain ⟨_, first, -, -, hagent⟩ := h _ _ .pasture _ _ _ _ hresult
  exact first.title_ne_nobody hagent.symm

end Job

end AgentSweep
