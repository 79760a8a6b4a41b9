import AgentSweep.Machine.Step

/-!
# Runs

A run takes steps until one ends it. Since every step that goes on leaves the context lighter
(`Context.weight_lt_of_step`), each run comes to an end, whatever frames, addresses and procedures
it begins with.

`Context.run` runs a command for its effects, `Context.evaluate` a reporter for its value. Both
keep a record of every step, from which the log is made.
-/

namespace AgentSweep

/-- **What can be said of a step afterwards.** -/
structure StepRecord where
  /-- The context before the step. -/
  before : Context
  /-- The instruction that was run, if the step came so far. -/
  instruction : Option Instruction
  outcome : Except Fault Outcome
  /-- The address after the step. -/
  ipAfter : Nat

/-- How the steps of a run came to an end. -/
inductive Ending where
  | over
  | reported (value : Value)

/-- **What a run comes to.** -/
structure Course (α : Type) where
  result : Except Fault α
  context : Context
  scene : Scene
  steps : Array StepRecord

namespace Course

/-- The same run with another result and another context at the end. -/
def conclude {α β : Type} (course : Course α) (result : Except Fault β) (context : Context) :
    Course β :=
  { course with result, context }

end Course

namespace Context

/-- **Takes steps until one ends the run**, and adds them to those already taken. -/
def drive (c : Context) (s : Scene) (steps : Array StepRecord) : Course Ending :=
  let taken := c.step s
  let steps := steps.push ⟨c, taken.instruction, taken.outcome, taken.context.ip⟩
  match _h : taken.outcome with
  | .ok .more => drive taken.context taken.scene steps
  | .ok .over => ⟨.ok .over, taken.context, taken.scene, steps⟩
  | .ok (.reported value) => ⟨.ok (.reported value), taken.context, taken.scene, steps⟩
  | .error fault => ⟨.error fault, taken.context, taken.scene, steps⟩
termination_by c.weight
decreasing_by exact weight_lt_of_step ‹_›

/-- **Runs the current agent to the end of its run.** A value reported on the way is an error. -/
def run (c : Context) (s : Scene) : Course Unit :=
  if c.finished then ⟨.ok (), c, s, #[]⟩
  else
    let course := c.drive s #[]
    match course.result with
    | .ok .over => course.conclude (.ok ()) course.context.finish
    | .ok (.reported _) => course.conclude (.error .reportOutsideReporter) course.context
    | .error fault => course.conclude (.error fault) course.context

/-- The context at the start of a frame's procedure, with no call open. -/
def enter (c : Context) (frame : Frame) : Context :=
  { c with frame := some frame, ip := 0, finished := false, calls := 0 }

/-- **Runs a frame's procedure from its start for the value that it reports.** A run that ends
without a value is an error. -/
def evaluate (c : Context) (s : Scene) (frame : Frame) : Course Value :=
  let course := (c.enter frame).drive s #[]
  match course.result with
  | .ok (.reported value) => course.conclude (.ok value) course.context.finish
  | .ok .over => course.conclude (.error (.noReport frame.procedure.name)) course.context.finish
  | .error fault => course.conclude (.error fault) course.context

end Context

end AgentSweep
