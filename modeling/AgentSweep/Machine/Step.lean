import AgentSweep.Machine.Context
import AgentSweep.Machine.Fault
import AgentSweep.Machine.Scene
import AgentSweep.Value.Render

/-!
# One step

A step runs the instruction at the context's address. Before that it is checked, in this order,
that there is a frame, that the tag may run its procedure, and that the address is not behind the
end of the body; at the end itself the step goes back to the caller, or ends the run if there is
none.

A step that is refused leaves the context and the world as they were. It may have drawn a random
number all the same: the value of an assignment is computed before it is known whether there is an
agent to take it.
-/

namespace AgentSweep

/-- **How a step went.** -/
inductive Outcome where
  /-- There is more to do. -/
  | more
  /-- The agent's run is over. -/
  | over
  /-- A reporter has its value. -/
  | reported (value : Value)

/-- **The result of a step.** -/
structure Step where
  /-- The instruction that was run, if the step came so far. -/
  instruction : Option Instruction
  outcome : Except Fault Outcome
  context : Context
  scene : Scene

namespace Expr

/-- What a function makes of the current agent, if there is one and it is alive. -/
def ofAgent {α : Type} (c : Context) (w : World) (f : Agent → Except Fault α) : Except Fault α :=
  match c.agent with
  | none => .error .noAgent
  | some id =>
    match w.get? id with
    | none => .error (.deadAgent c.tag)
    | some agent => f agent

/-- **The value of an expression**, and the generator after it. -/
def eval (c : Context) (s : Scene) : Expr → Except Fault Value × Random
  | constant value => (.ok value, s.random)
  | own name =>
    (ofAgent c s.world fun agent =>
      match agent.vars.get? name with
      | some value => .ok value
      | none => .error (.notOwned agent.title name), s.random)
  | who => (ofAgent c s.world fun agent => .ok (.ofNat agent.who), s.random)
  | random bound =>
    if bound = 0 then (.ok (.ofNat 0), s.random)
    else
      let draw := s.random.below bound.toNat
      (.ok (.ofNat draw.1), draw.2)
  | count set => (.ok (.ofNat (set.count s.world)), s.random)

end Expr

namespace Context

/-- Goes back to the caller, or ends the run. -/
def leave (c : Context) : Outcome × Context :=
  match c.pop? with
  | some c => (.more, c)
  | none => (.over, c)

/-- **The effect of one instruction** of the procedure `p`. -/
def perform (c : Context) (s : Scene) (p : Procedure) :
    Instruction → Except Fault Outcome × Context × Scene
  | .noop => (.ok .more, c.goto (c.ip + 1), s)
  | .print e =>
    match e.eval c s with
    | (.ok value, random) =>
      let line := value.render s.world
      (.ok .more, c.goto (c.ip + 1), { s with world := s.world.print line, random })
    | (.error fault, random) => (.error fault, c, { s with random })
  | .set name e =>
    match e.eval c s with
    | (.ok value, random) =>
      match c.agent with
      | none => (.error .noAgent, c, { s with random })
      | some id =>
        if s.world.isAlive id then
          (.ok .more, c.goto (c.ip + 1), { s with world := s.world.setVar id name value, random })
        else (.error (.deadAgent c.tag), c, { s with random })
    | (.error fault, random) => (.error fault, c, { s with random })
  | .hatch breed =>
    if c.tag.intersects Kind.turtle.mask then
      match Expr.ofAgent c s.world .ok with
      | .ok parent =>
        let (child, world) := s.world.create .turtle breed
        let world := world.modify child fun agent => { agent with vars := parent.vars }
        (.ok .more, c.goto (c.ip + 1), { s with world })
      | .error fault => (.error fault, c, s)
    else (.error (.wrongKind "hatch" c.tag), c, s)
  | .die =>
    match c.agent with
    | none => (.error .noAgent, c, s)
    | some id => (.ok .over, c, { s with world := s.world.kill id })
  | .killWho who =>
    match s.world.findByWho who with
    | some target =>
      (.ok (if c.agent = some target then .over else .more), c.goto (c.ip + 1),
        { s with world := s.world.kill target })
    | none => (.ok .more, c.goto (c.ip + 1), s)
  | .call callee =>
    match callee.role with
    | .command =>
      (.ok .more, c.push s.nextFrame callee (c.ip + 1), { s with nextFrame := s.nextFrame + 1 })
    | .reporter => (.error (.reporterAsCommand callee.name), c, s)
  | .leave => (.ok c.leave.1, c.leave.2, s)
  | .done => (.ok .over, c, s)
  | .report e =>
    match p.role with
    | .reporter =>
      match e.eval c s with
      | (.ok value, random) => (.ok (.reported value), c, { s with random })
      | (.error fault, random) => (.error fault, c, { s with random })
    | .command => (.error .reportOutsideReporter, c, s)
  | .fail message => (.error (.raised message), c, s)

/-- **One step of a run.** -/
def step (c : Context) (s : Scene) : Step :=
  match c.frame with
  | none => ⟨none, .error .noFrame, c, s⟩
  | some frame =>
    let p := frame.procedure
    if c.tag.intersects p.usableBy then
      match p.code[c.ip]? with
      | some instruction =>
        let effect := c.perform s p instruction
        ⟨some instruction, effect.1, effect.2.1, effect.2.2⟩
      | none =>
        if c.ip = p.size then
          ⟨none, .ok c.leave.1, c.leave.2, s⟩
        else ⟨none, .error (.invalidAddress p.name c.ip), c, s⟩
    else ⟨none, .error (.wrongKind p.name c.tag), c, s⟩

/-! ## Every step that goes on uses up weight -/

/-- Coming back to the caller uses up what was left of the callee. -/
theorem weight_lt_of_pop? {c d : Context} (h : c.pop? = some d) : d.weight < c.weight := by
  unfold pop? at h
  split at h
  · next calls frame hcalls hframe =>
    cases h
    have hpos := frame.procedure.unrolledFrom_pos c.ip
    simp only [weight, hframe, hcalls]
    cases hp : frame.parent with
    | none => simp only; omega
    | some parent => simp only [Frame.pending, hp]; omega
  · cases h

/-- Leaving a procedure uses up weight if there is a caller to go back to. -/
theorem weight_lt_of_leave {c : Context} (h : c.leave.1 = .more) : c.leave.2.weight < c.weight := by
  revert h
  unfold leave
  split
  · next d hd => exact fun _ => weight_lt_of_pop? hd
  · simp

/-- An instruction after which there is more to do leaves less weight than there was. -/
theorem weight_lt_of_perform {c d : Context} {s t : Scene} {frame : Frame} {i : Instruction}
    (hframe : c.frame = some frame) (hi : frame.procedure.code[c.ip]? = some i)
    (h : c.perform s frame.procedure i = (.ok .more, d, t)) : d.weight < c.weight := by
  have hcost := Procedure.unrolledFrom_of_getElem? hi
  have hpos := i.cost_pos
  have next : (c.goto (c.ip + 1)).weight < c.weight := by
    simp only [weight, goto, hframe]
    omega
  cases i with
  | noop => simp only [perform, Prod.mk.injEq] at h; exact h.2.1 ▸ next
  | print e =>
    simp only [perform] at h
    split at h <;> simp only [Prod.mk.injEq, reduceCtorEq, false_and] at h
    exact h.2.1 ▸ next
  | set name e =>
    simp only [perform] at h
    split at h
    · split at h
      · simp at h
      · split at h <;> simp only [Prod.mk.injEq, reduceCtorEq, false_and] at h
        exact h.2.1 ▸ next
    · simp at h
  | hatch breed =>
    simp only [perform] at h
    split at h
    · split at h <;> simp only [Prod.mk.injEq, reduceCtorEq, false_and] at h
      exact h.2.1 ▸ next
    · simp at h
  | die =>
    simp only [perform] at h
    split at h <;> simp at h
  | killWho who =>
    simp only [perform] at h
    split at h <;> simp only [Prod.mk.injEq] at h <;> exact h.2.1 ▸ next
  | call callee =>
    simp only [perform] at h
    split at h <;> simp only [Prod.mk.injEq, reduceCtorEq, false_and] at h
    rw [← h.2.1]
    simp only [weight, push, Frame.pending, hframe, Procedure.unrolledFrom_zero]
    simp only [Instruction.cost] at hcost
    omega
  | leave =>
    simp only [perform, Prod.mk.injEq, Except.ok.injEq] at h
    exact h.2.1 ▸ weight_lt_of_leave h.1
  | done => simp [perform] at h
  | report e =>
    simp only [perform] at h
    split at h
    · split at h <;> simp at h
    · simp at h
  | fail message => simp [perform] at h

/-- **A run gets lighter with every step after which there is more to do.** -/
theorem weight_lt_of_step {c : Context} {s : Scene} (h : (c.step s).outcome = .ok .more) :
    (c.step s).context.weight < c.weight := by
  revert h
  unfold step
  split
  · simp
  · next frame hframe =>
    dsimp only
    split
    · split
      · next i hi =>
        intro h
        exact weight_lt_of_perform hframe hi (t := (c.perform s frame.procedure i).2.2)
          (by rw [← h])
      · split
        · intro h
          exact weight_lt_of_leave (by simpa using h)
        · simp
    · simp

end Context

end AgentSweep
