import AgentSweep.Machine.Run

/-!
# What a procedure means

Without frames, return addresses and counters, what a procedure does for an agent can be told by
recursion on the procedure. A body is run instruction by instruction, and an instruction either
lets the body go on or decides how it ends: by a return, by the end of the agent's run, or by an
error. A call runs the callee from its start and goes on after a return; the end of the run and an
error end all the bodies around them as well.

There is nothing to be said of numbers of frames here, and so only a part of a scene matters, its
`Stage`. That a context does just what is told here is shown in `Proofs.Machine.Simulation`.
-/

namespace AgentSweep

/-- **What code does something to**: the world and the random generator. -/
structure Stage where
  world : World
  random : Random

/-- A scene without its supply of numbers for frames. -/
def Scene.stage (s : Scene) : Stage := ⟨s.world, s.random⟩

@[simp] theorem Scene.world_stage (s : Scene) : s.stage.world = s.world := rfl

/-- **How a body ends.** -/
inductive Verdict where
  /-- It is left, and whoever has called it goes on. -/
  | returned
  /-- The agent's run is over, whoever has called the body. -/
  | ended
  | failed (fault : Fault)
deriving DecidableEq, Repr

/-- What a verdict on the body with which a run begins means for the run. -/
def Verdict.result : Verdict → Except Fault Unit
  | returned => .ok ()
  | ended => .ok ()
  | failed fault => .error fault

/-- **The value of an expression for an agent**, and the generator after it. -/
def Expr.value (id : AgentId) (tag : KindMask) (s : Stage) : Expr → Except Fault Value × Random
  | constant value => (.ok value, s.random)
  | own name =>
    match s.world.get? id with
    | none => (.error (.deadAgent tag), s.random)
    | some agent =>
      match agent.vars.get? name with
      | some value => (.ok value, s.random)
      | none => (.error (.notOwned agent.title name), s.random)
  | who =>
    match s.world.get? id with
    | none => (.error (.deadAgent tag), s.random)
    | some agent => (.ok (.ofNat agent.who), s.random)
  | random bound =>
    if bound = 0 then (.ok (.ofNat 0), s.random)
    else
      let draw := s.random.below bound.toNat
      (.ok (.ofNat draw.1), draw.2)
  | count set => (.ok (.ofNat (set.count s.world)), s.random)

mutual

/-- What a procedure does from its start. -/
def Procedure.execute (id : AgentId) (tag : KindMask) : Procedure → Stage → Verdict × Stage
  | ⟨name, _, usableBy, code⟩, s =>
    if tag.intersects usableBy then Instruction.executeAll id tag code s
    else (.failed (.wrongKind name tag), s)

/-- What an instruction does. Without a verdict, the body goes on at the next one. -/
def Instruction.execute (id : AgentId) (tag : KindMask) :
    Instruction → Stage → Option Verdict × Stage
  | .noop, s => (none, s)
  | .print e, s =>
    match e.value id tag s with
    | (.ok value, random) => (none, ⟨s.world.print (value.render s.world), random⟩)
    | (.error fault, random) => (some (.failed fault), ⟨s.world, random⟩)
  | .set name e, s =>
    match e.value id tag s with
    | (.ok value, random) =>
      if s.world.isAlive id then (none, ⟨s.world.setVar id name value, random⟩)
      else (some (.failed (.deadAgent tag)), ⟨s.world, random⟩)
    | (.error fault, random) => (some (.failed fault), ⟨s.world, random⟩)
  | .hatch breed, s =>
    if tag.intersects Kind.turtle.mask then
      match s.world.get? id with
      | some parent =>
        let (child, world) := s.world.create .turtle breed
        (none, ⟨world.modify child fun agent => { agent with vars := parent.vars }, s.random⟩)
      | none => (some (.failed (.deadAgent tag)), s)
    else (some (.failed (.wrongKind "hatch" tag)), s)
  | .die, s => (some .ended, ⟨s.world.kill id, s.random⟩)
  | .killWho who, s =>
    match s.world.findByWho who with
    | some target => (if target = id then some .ended else none, ⟨s.world.kill target, s.random⟩)
    | none => (none, s)
  | .call callee, s =>
    match callee.role with
    | .command =>
      match callee.execute id tag s with
      | (.returned, s) => (none, s)
      | (verdict, s) => (some verdict, s)
    | .reporter => (some (.failed (.reporterAsCommand callee.name)), s)
  | .leave, s => (some .returned, s)
  | .done, s => (some .ended, s)
  | .report _, s => (some (.failed .reportOutsideReporter), s)
  | .fail message, s => (some (.failed (.raised message)), s)

/-- What the rest of a body does. -/
def Instruction.executeAll (id : AgentId) (tag : KindMask) :
    List Instruction → Stage → Verdict × Stage
  | [], s => (.returned, s)
  | i :: is, s =>
    match i.execute id tag s with
    | (none, s) => Instruction.executeAll id tag is s
    | (some verdict, s) => (verdict, s)

end

/-- **What a procedure does from an address on.** -/
def Procedure.executeFrom (id : AgentId) (tag : KindMask) (p : Procedure) (address : Nat)
    (s : Stage) : Verdict × Stage :=
  if tag.intersects p.usableBy then Instruction.executeAll id tag (p.code.drop address) s
  else (.failed (.wrongKind p.name tag), s)

theorem Procedure.execute_eq (id : AgentId) (tag : KindMask) (p : Procedure) (s : Stage) :
    p.execute id tag s = p.executeFrom id tag 0 s := by
  cases p
  rw [execute, executeFrom, List.drop_zero]

end AgentSweep
