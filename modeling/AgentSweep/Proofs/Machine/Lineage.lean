import AgentSweep.Proofs.Machine.Lockstep
import AgentSweep.Proofs.Machine.Simulation

/-!
# Lineage is not seen

To a run the frame in which it begins is the lowest one. Who has called it, where it would go back
to and which frame it is are its *lineage*, and no step looks at that. Two runs for one agent that
begin in frames with the same procedure, at the same address, in the same world and with the same
generator therefore take the same steps, whatever code it is that they run
(`Context.kindred_step`, `Context.kindred_run`).

This differs from the lockstep of twins in that nothing is asked of the code: since there is only
one world, the code may hold any ids it likes.
-/

namespace AgentSweep

/-! ## Steps without lineage -/

/-- A frame without its lineage: nothing is left of it but the procedure. -/
def Frame.bare (f : Frame) : Frame := ⟨0, f.procedure, none, 0⟩

/-- A context without the lineage of its frame. -/
def Context.bare (c : Context) : Context := { c with frame := c.frame.map Frame.bare }

/-- **The record of a step without the lineage of its frame.** -/
def StepRecord.bare (record : StepRecord) : StepRecord :=
  { record with before := record.before.bare }

theorem Frame.Like.bare_eq {calls : Nat} {f g : Frame} (h : f.Like calls g) : f.bare = g.bare := by
  rw [Frame.bare, Frame.bare, h.procedure_eq]

namespace Context

variable {c d : Context} {s t : Scene} {a : AgentId}

/-- **Two steps are the same but for lineage.** -/
structure StepsKindred (a : AgentId) (first second : Step) : Prop where
  instruction_eq : first.instruction = second.instruction
  outcome_eq : first.outcome = second.outcome
  context : first.context.Alike second.context a a
  stage_eq : first.scene.stage = second.scene.stage

theorem Alike.bare_eq (hcd : c.Alike d a a) : c.bare = d.bare := by
  obtain ⟨f, g, hf, hg, hlike⟩ := hcd.frames
  simp only [bare, hf, hg, Option.map_some, hlike.bare_eq, hcd.owner_eq, hcd.agents.1,
    hcd.agents.2, hcd.ip_eq, hcd.finished_eq, hcd.calls_eq, hcd.tag_eq]

theorem Alike.eval_eq (hcd : c.Alike d a a) (h : s.stage = t.stage) (e : Expr) :
    e.eval c s = e.eval d t := by
  rw [Expr.eval_eq_value hcd.agents.1, Expr.eval_eq_value hcd.agents.2, hcd.tag_eq, h]

theorem Alike.ofAgent_eq {α : Type} (hcd : c.Alike d a a) (w : World)
    (f : Agent → Except Fault α) : Expr.ofAgent c w f = Expr.ofAgent d w f := by
  rw [Expr.ofAgent, Expr.ofAgent, hcd.agents.1, hcd.agents.2, hcd.tag_eq]

/-- **An instruction does the same in kindred contexts.** -/
theorem kindred_perform (hcd : c.Alike d a a) (h : s.stage = t.stage) (p : Procedure)
    (i : Instruction) : StepsKindred a (c.performed s p i) (d.performed t p i) := by
  have hnext : (c.goto (c.ip + 1)).Alike (d.goto (d.ip + 1)) a a := hcd.ip_eq ▸ hcd.goto (c.ip + 1)
  have heval := hcd.eval_eq h
  obtain ⟨hworld, hrandom⟩ := Stage.mk.inj h
  cases i with
  | noop => exact ⟨rfl, rfl, hnext, h⟩
  | print e =>
    simp only [performed, perform, heval]
    cases e.eval d t with
    | mk result random =>
      cases result with
      | error fault => exact ⟨rfl, rfl, hcd, congrArg (Stage.mk · random) hworld⟩
      | ok value =>
        exact ⟨rfl, rfl, hnext,
          congrArg (fun w => Stage.mk (w.print (value.render w)) random) hworld⟩
  | set name e =>
    simp only [performed, perform, heval, hcd.agents.1, hcd.agents.2, hcd.tag_eq, hworld]
    cases e.eval d t with
    | mk result random =>
      cases result with
      | error fault => exact ⟨rfl, rfl, hcd, rfl⟩
      | ok value =>
        cases halive : t.world.isAlive a with
        | true => exact ⟨rfl, rfl, hnext, rfl⟩
        | false => exact ⟨rfl, rfl, hcd, rfl⟩
  | hatch breed =>
    simp only [performed, perform, hcd.ofAgent_eq, hcd.tag_eq, hworld]
    cases d.tag.intersects Kind.turtle.mask with
    | false => exact ⟨rfl, rfl, hcd, h⟩
    | true =>
      cases Expr.ofAgent d t.world .ok with
      | error fault => exact ⟨rfl, rfl, hcd, h⟩
      | ok parent => exact ⟨rfl, rfl, hnext, congrArg (Stage.mk _) hrandom⟩
  | die =>
    simp only [performed, perform, hcd.agents.1, hcd.agents.2, hworld]
    exact ⟨rfl, rfl, hcd, congrArg (Stage.mk _) hrandom⟩
  | killWho who =>
    simp only [performed, perform, hcd.agents.1, hcd.agents.2, hworld]
    cases t.world.findByWho who with
    | none => exact ⟨rfl, rfl, hnext, h⟩
    | some target => exact ⟨rfl, rfl, hnext, congrArg (Stage.mk _) hrandom⟩
  | call callee =>
    simp only [performed, perform]
    cases callee.role with
    | command =>
      dsimp only
      rw [hcd.ip_eq]
      exact ⟨rfl, rfl, hcd.push .., h⟩
    | reporter => exact ⟨rfl, rfl, hcd, h⟩
  | leave =>
    obtain ⟨houtcome, hcontext⟩ := hcd.leave
    exact ⟨rfl, congrArg Except.ok houtcome, hcontext, h⟩
  | done => exact ⟨rfl, rfl, hcd, h⟩
  | report e =>
    simp only [performed, perform, heval]
    cases p.role with
    | command => exact ⟨rfl, rfl, hcd, h⟩
    | reporter =>
      cases e.eval d t with
      | mk result random =>
        cases result <;> exact ⟨rfl, rfl, hcd, congrArg (Stage.mk · random) hworld⟩
  | fail message => exact ⟨rfl, rfl, hcd, h⟩

/-- **A step is the same but for lineage** in kindred contexts. -/
theorem kindred_step (hcd : c.Alike d a a) (h : s.stage = t.stage) :
    StepsKindred a (c.step s) (d.step t) := by
  rcases hcd.step_cases s t with ⟨fault, hs, ht⟩ | ⟨frame, i, -, -, hs, ht⟩ | ⟨hs, ht⟩
  · rw [hs, ht]
    exact ⟨rfl, rfl, hcd, h⟩
  · rw [hs, ht]
    exact kindred_perform hcd h frame.procedure i
  · obtain ⟨houtcome, hcontext⟩ := hcd.leave
    rw [hs, ht]
    exact ⟨rfl, congrArg Except.ok houtcome, hcontext, h⟩

/-! ## Whole runs -/

/-- **States that are the same but for lineage**: one agent in one world, in frames that are the
same to a run. -/
structure Kindred (a : AgentId) (x y : Context × Scene) : Prop where
  context : x.1.Alike y.1 a a
  stage_eq : x.2.stage = y.2.stage

theorem Kindred.step {x y : Context × Scene} (h : Kindred a x y) :
    StepsKindred a (x.1.step x.2) (y.1.step y.2) :=
  kindred_step h.context h.stage_eq

theorem inStep_kindred (a : AgentId) : InStep (Kindred a) := fun _ _ h =>
  ⟨h.step.outcome_eq, fun _ => ⟨h.step.context, h.step.stage_eq⟩⟩

/-- Without lineage, kindred steps leave the same records. -/
theorem Kindred.bare_recordOf_eq {x y : Context × Scene} (h : Kindred a x y) :
    (x.1.recordOf x.2).bare = (y.1.recordOf y.2).bare := by
  show StepRecord.mk x.1.bare (x.1.step x.2).instruction (x.1.step x.2).outcome
      (x.1.step x.2).context.ip
    = StepRecord.mk y.1.bare (y.1.step y.2).instruction (y.1.step y.2).outcome
      (y.1.step y.2).context.ip
  rw [h.context.bare_eq, h.step.instruction_eq, h.step.outcome_eq, h.step.context.ip_eq]

/-- **Two runs are the same but for lineage.** -/
structure CoursesKindred {α : Type} (a : AgentId) (first second : Course α) : Prop where
  result_eq : first.result = second.result
  context : first.context.Alike second.context a a
  stage_eq : first.scene.stage = second.scene.stage
  steps_eq : first.steps.toList.map StepRecord.bare = second.steps.toList.map StepRecord.bare

theorem CoursesKindred.size_steps_eq {α : Type} {first second : Course α}
    (h : CoursesKindred a first second) : first.steps.size = second.steps.size := by
  have hlength := congrArg List.length h.steps_eq
  rw [List.length_map, List.length_map] at hlength
  exact hlength

/-- **A run is the same but for lineage** if it begins so. -/
theorem kindred_run (h : Kindred a (c, s) (d, t)) (hfinished : c.finished = false) :
    CoursesKindred a (c.run s) (d.run t) := by
  have hfinished' : d.finished = false := h.context.finished_eq ▸ hfinished
  have hmatch := (inStep_kindred a).coursesMatch_run (Q := Kindred a)
    (fun _ _ h => ⟨h.step.context, h.step.stage_eq⟩)
    (fun _ _ h => ⟨h.context.finish, h.stage_eq⟩) h hfinished hfinished'
  refine ⟨hmatch.result_eq, hmatch.ends.context, hmatch.ends.stage_eq, ?_⟩
  rw [toList_steps_run hfinished, toList_steps_run hfinished', List.map_map, List.map_map]
  exact (inStep_kindred a).map_trail_eq h fun _ _ h => h.bare_recordOf_eq

end Context

end AgentSweep
