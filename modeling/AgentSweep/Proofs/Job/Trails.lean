import AgentSweep.Proofs.Job.Reachable
import AgentSweep.Proofs.Machine.StepBounds
import Mathlib.Algebra.Order.BigOperators.Group.List
import Mathlib.Algebra.Order.Group.Nat

/-!
# The states of a run of a job

The run of a job goes through the states of the runs of its agents, one agent after the other. These
are its `Job.trail`. A step is taken in each of them, and there are no other steps
(`Job.steps_eq_map_trail`).

As the run of an agent stays within its bounds, so does the run of a job: for each entry of the
snapshot it takes no more steps than the procedure in which the agents begin allows
(`Job.run_bounds`).
-/

namespace AgentSweep

/-! ## Trails -/

/-- The states of the run of a turn's agent, each as it is before its step. -/
def Turn.trail (t : Turn) : List (Context × Scene) :=
  match t.start with
  | some c => c.trail t.scene
  | none => []

namespace Turn

theorem history_eq_flatMap_trail (t : Turn) :
    t.history = t.trail.flatMap fun b => b.1.changes b.2 := by
  unfold history trail
  cases t.start <;> rfl

/-- What some turns change is changed by the steps in their states. -/
theorem flatMap_history (turns : List Turn) :
    turns.flatMap history = (turns.flatMap trail).flatMap fun b => b.1.changes b.2 := by
  rw [List.flatMap_assoc]
  exact List.flatMap_congr fun turn _ => turn.history_eq_flatMap_trail

theorem start_eq_none {t : Turn} (h : t.started = false) : t.start = none := by
  rw [started, Option.isSome_eq_false_iff, Option.isNone_iff_eq_none] at h
  exact h

/-- An entry that is skipped has no states. -/
theorem trail_of_skipped {t : Turn} (h : t.started = false) : t.trail = [] := by
  rw [trail, start_eq_none h]

end Turn

namespace Job

variable {job : Job} {s : Scene} {halt : HaltSignal} {traceAgents : Bool} {turn : Turn}

/-- **The states of a run**, each as it is before its step. -/
def trail (job : Job) (s : Scene) (halt : HaltSignal) : List (Context × Scene) :=
  (job.turns s halt).flatMap Turn.trail

/-- The context in which an agent begins. -/
def ready (job : Job) (s : Scene) (id : AgentId) : Context :=
  (Context.new job.owner none job.set.tag).reset id (job.entry s) job.address

theorem start_eq_ready (hturn : turn ∈ job.turns s halt) (hstarted : turn.started = true) :
    turn.start = some (job.ready s turn.id) := by
  obtain ⟨start, hstart⟩ := Option.isSome_iff_exists.mp hstarted
  rw [hstart, (job.takes_turns s halt).start_eq hturn hstart]
  rfl

theorem course?_of_started (hturn : turn ∈ job.turns s halt) (hstarted : turn.started = true) :
    turn.course? = some ((job.ready s turn.id).run turn.scene) := by
  rw [Turn.course?, start_eq_ready hturn hstarted]
  rfl

theorem trail_of_started (hturn : turn ∈ job.turns s halt) (hstarted : turn.started = true) :
    turn.trail = (job.ready s turn.id).trail turn.scene := by
  rw [Turn.trail, start_eq_ready hturn hstarted]

/-- **A state of the run of a job is one of the run of an agent**, who was alive when its turn
came. -/
theorem exists_turn_of_mem_trail {b : Context × Scene} (h : b ∈ job.trail s halt) :
    ∃ turn ∈ job.turns s halt, turn.scene.world.isAlive turn.id = true
      ∧ Context.Reaches (job.ready s turn.id, turn.scene) b := by
  obtain ⟨turn, hturn, hb⟩ := List.mem_flatMap.mp h
  cases hstarted : turn.started with
  | false =>
    rw [Turn.trail_of_skipped hstarted] at hb
    cases hb
  | true =>
    rw [trail_of_started hturn hstarted] at hb
    have halive := ((job.takes_turns s halt).started_eq hturn).symm.trans hstarted
    exact ⟨turn, hturn, halive, Context.mem_trail_iff.mp hb⟩

/-- The steps of a turn are taken in its states. -/
theorem steps_turn_eq_map_trail (hturn : turn ∈ job.turns s halt) :
    turn.steps = turn.trail.map fun b => b.1.recordOf b.2 := by
  cases hstarted : turn.started with
  | false =>
    rw [Turn.trail_of_skipped hstarted, Turn.steps, Turn.course?, Turn.start_eq_none hstarted]
    rfl
  | true =>
    rw [trail_of_started hturn hstarted, Turn.steps, course?_of_started hturn hstarted]
    exact Context.toList_steps_run rfl

/-- **A run takes one step in each of its states.** -/
theorem steps_eq_map_trail (job : Job) (s : Scene) (traceAgents : Bool) (halt : HaltSignal) :
    (job.run s traceAgents halt).steps
      = (job.trail s halt).map fun b => b.1.recordOf b.2 := by
  rw [steps_run, trail, List.map_flatMap]
  exact List.flatMap_congr fun turn hturn => steps_turn_eq_map_trail hturn

/-! ## What every step preserves -/

section

variable {motive : World → Prop}

/-- What every step preserves holds in the states of a turn and after it, if it holds before. -/
theorem turn_induction (hturn : turn ∈ job.turns s halt) (hscene : motive turn.scene.world)
    (step : ∀ b ∈ job.trail s halt, motive b.2.world → motive (b.1.step b.2).scene.world) :
    (∀ b ∈ turn.trail, motive b.2.world) ∧ motive turn.after.world := by
  cases hstarted : turn.started with
  | false =>
    rw [Turn.trail_of_skipped hstarted, Turn.after, Turn.course?, Turn.start_eq_none hstarted]
    exact ⟨by simp, hscene⟩
  | true =>
    have hstates (b : Context × Scene) (hb : Context.Reaches (job.ready s turn.id, turn.scene) b) :
        b ∈ job.trail s halt := by
      rw [← Context.mem_trail_iff, ← trail_of_started hturn hstarted] at hb
      exact List.mem_flatMap.mpr ⟨turn, hturn, hb⟩
    have hreached (b : Context × Scene)
        (hb : Context.Reaches (job.ready s turn.id, turn.scene) b) : motive b.2.world := by
      induction hb with
      | refl => exact hscene
      | tail hreaches hnext ih =>
        obtain ⟨-, rfl⟩ := hnext
        exact step _ (hstates _ hreaches) ih
    obtain ⟨last, hreaches, hlast⟩ := Context.exists_last (job.ready s turn.id) turn.scene
    have hafter : turn.after = (last.1.step last.2).scene := by
      rw [Turn.after, course?_of_started hturn hstarted]
      exact (Context.scene_run rfl).trans (hreaches.drive_eq_last hlast #[]).2.1
    rw [trail_of_started hturn hstarted, hafter]
    exact ⟨fun b hb => hreached b (Context.mem_trail_iff.mp hb),
      step last (hstates last hreaches) (hreached last hreaches)⟩

/-- What every step preserves holds after any number of turns. -/
theorem sceneAfter_induction (h : motive s.world)
    (step : ∀ b ∈ job.trail s halt, motive b.2.world → motive (b.1.step b.2).scene.world)
    {before : List Turn} (hbefore : before <+: job.turns s halt) :
    motive (Turn.sceneAfter (job.opening s) before).world := by
  induction before using List.reverseRecOn with
  | nil =>
    show motive (job.opening s).world
    rw [world_opening]
    exact h
  | append_singleton before turn ih =>
    obtain ⟨later, hturns⟩ := hbefore
    rw [List.append_assoc, List.singleton_append] at hturns
    have hturn : turn ∈ job.turns s halt :=
      hturns ▸ List.mem_append_right before List.mem_cons_self
    have hscene := (job.takes_turns s halt).scene_eq hturns.symm
    rw [Turn.sceneAfter, List.foldl_append]
    exact (turn_induction hturn (hscene ▸ ih ⟨_, hturns⟩) step).2

/-- **What every step preserves holds in every state of a run.** -/
theorem trail_induction (h : motive s.world)
    (step : ∀ b ∈ job.trail s halt, motive b.2.world → motive (b.1.step b.2).scene.world)
    {b : Context × Scene} (hb : b ∈ job.trail s halt) : motive b.2.world := by
  obtain ⟨turn, hturn, hmem⟩ := List.mem_flatMap.mp hb
  obtain ⟨before, later, hturns⟩ := List.append_of_mem hturn
  have hscene := (job.takes_turns s halt).scene_eq hturns
  exact (turn_induction hturn (hscene ▸ sceneAfter_induction h step ⟨_, hturns.symm⟩) step).1 b hmem

/-- What every step preserves holds in the world that a run leaves. -/
theorem world_induction (h : motive s.world)
    (step : ∀ b ∈ job.trail s halt, motive b.2.world → motive (b.1.step b.2).scene.world) :
    motive (job.run s traceAgents halt).scene.world := by
  rw [scene_run]
  exact sceneAfter_induction h step List.prefix_rfl

end

/-! ## How many steps a run takes -/

/-- The run of an agent has no more states than the procedure in which it begins allows. -/
theorem length_trail_turn_le (hturn : turn ∈ job.turns s halt) :
    turn.trail.length ≤ (job.entry s).procedure.unrolled := by
  cases hstarted : turn.started with
  | false =>
    rw [Turn.trail_of_skipped hstarted]
    exact Nat.zero_le _
  | true =>
    obtain ⟨later, hlater⟩ := Context.exists_trail_eq_cons (job.ready s turn.id) turn.scene
    have hchain := Context.isChain_trail (job.ready s turn.id) turn.scene
    have hbounds := Context.runBounds_run (.new job.owner none job.set.tag) turn.scene turn.id
      (job.entry s) job.address
    rw [trail_of_started hturn hstarted, hlater]
    exact hbounds.length_le later (hlater ▸ hchain)

/-- There are no more turns than entries, and so no more states than the entries allow. -/
theorem length_trail_le (job : Job) (s : Scene) (halt : HaltSignal) :
    (job.trail s halt).length
      ≤ (job.snapshot s).length * (job.entry s).procedure.unrolled := by
  have htakes := job.takes_turns s halt
  have hturns : (job.turns s halt).length ≤ (job.snapshot s).length := by
    rw [← List.length_map Turn.id]
    exact htakes.map_id_prefix.length_le
  have hsum : (job.trail s halt).length
      ≤ (job.turns s halt).length * (job.entry s).procedure.unrolled := by
    rw [trail, List.length_flatMap, ← List.length_map (fun turn => turn.trail.length),
      ← Nat.nsmul_eq_mul]
    refine List.sum_le_card_nsmul _ _ fun length hlength => ?_
    obtain ⟨turn, hturn, rfl⟩ := List.mem_map.mp hlength
    exact length_trail_turn_le hturn
  exact Nat.le_trans hsum (Nat.mul_le_mul_right _ hturns)

/-- The steps of a report are those of the one run that it makes. -/
theorem steps_report {job : Job} {s : Scene} {agent : AgentId}
    (h : job.set.first? s.world = some agent) :
    (job.report s).steps = ((Context.new job.owner (some agent) job.set.tag).evaluate
      (s.makeFrame job.procedure none 0).2 (s.makeFrame job.procedure none 0).1).steps.toList := by
  have hsteps {α : Type} (course : Course α) :
      ((course.steps.map Event.step).toList.filterMap Event.step?) = course.steps.toList := by
    rw [Array.toList_map, List.filterMap_map]
    exact List.filterMap_some
  unfold report
  rw [h]
  dsimp only
  split <;> exact hsteps _

theorem length_steps_report_le (job : Job) (s : Scene) :
    (job.report s).steps.length ≤ job.procedure.unrolled := by
  cases hfirst : job.set.first? s.world with
  | none =>
    unfold report
    rw [hfirst]
    exact Nat.zero_le _
  | some agent =>
    rw [steps_report hfirst]
    exact (Context.runBounds_evaluate (.new job.owner (some agent) job.set.tag)
      (s.makeFrame job.procedure none 0).2 (s.makeFrame job.procedure none 0).1).size_steps_le

/-- **Every run comes to its end, within bounds that are known in advance.** The run of an agent,
and likewise the evaluation of a reporter, takes no more steps than the unrolled size of its
procedure, and has no more calls open than nest in it. The run of a job takes no more steps than
that for each entry of its snapshot. -/
theorem run_bounds (job : Job) (s : Scene) (traceAgents : Bool) (halt : HaltSignal) :
    (∀ (c : Context) (t : Scene) (frame : Frame),
        (∀ id address, Context.RunBounds frame.procedure (c.reset id frame address, t)
          ((c.reset id frame address).run t))
        ∧ Context.RunBounds frame.procedure (c.enter frame, t) (c.evaluate t frame))
      ∧ (job.run s traceAgents halt).steps
        = (job.trail s halt).map (fun b => b.1.recordOf b.2)
      ∧ (job.run s traceAgents halt).steps.length
        ≤ (job.snapshot s).length * (job.entry s).procedure.unrolled
      ∧ (∀ b ∈ job.trail s halt, b.1.calls ≤ (job.entry s).procedure.nesting)
      ∧ (job.report s).steps.length ≤ job.procedure.unrolled := by
  have hruns (c : Context) (t : Scene) (frame : Frame) (id : AgentId) (address : Nat) :=
    c.runBounds_run t id frame address
  have hsteps := job.steps_eq_map_trail s traceAgents halt
  refine ⟨fun c t frame => ⟨hruns c t frame, c.runBounds_evaluate t frame⟩, hsteps, ?_, ?_,
    job.length_steps_report_le s⟩
  · rw [hsteps, List.length_map]
    exact job.length_trail_le s halt
  · intro b hb
    obtain ⟨turn, -, -, hreaches⟩ := exists_turn_of_mem_trail hb
    exact (hruns _ turn.scene (job.entry s) turn.id job.address).calls_le b hreaches

/-- Every cow walks, and rests on its way. -/
def walking : Job where
  owner := default
  set := .breed .turtle "cows"
  procedure := .command "walk" [.call (.command "rest" [.noop]), .noop]
  address := 0
  caller := none

/-- Where every body is run to its end, the bounds are met exactly. -/
theorem run_bounds_walking :
    (walking.snapshot .pasture).length = 2
      ∧ (walking.entry .pasture).procedure.unrolled = 5
      ∧ (walking.run .pasture false .never).steps.length = 10
      ∧ (walking.run .pasture false .never).steps.length
        ≤ (walking.snapshot .pasture).length * (walking.entry .pasture).procedure.unrolled
      ∧ (walking.trail .pasture .never).map (fun b => b.1.calls)
        = [0, 1, 1, 0, 0, 0, 1, 1, 0, 0]
      ∧ ∀ b ∈ walking.trail .pasture .never, b.1.calls ≤ 1 := by
  obtain ⟨-, -, hlength, hcalls, -⟩ := walking.run_bounds .pasture false .never
  exact ⟨by decide +kernel, by decide +kernel, by decide +kernel, hlength, by decide +kernel,
    hcalls⟩

end Job

end AgentSweep
