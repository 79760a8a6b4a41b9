import AgentSweep.Proofs.Machine.Course
import AgentSweep.Proofs.Machine.Structured

/-!
# Contexts do what procedures mean

A context runs a procedure step by step, with a frame for each open call. All that it comes to is
what the procedure means (`Context.run_eq_executeFrom`): the run succeeds if the body returns or
ends the agent's run, it fails with the fault of the body otherwise, and it leaves the same world
and the same generator.

The simulation is by recursion on the rest of a body, in any context whatever
(`comesTo_executeAll`). A body that returns leaves the context at the point of leaving it, with
nothing changed but the address. This is what a caller needs to go on after a call, since leaving
the callee then undoes the call.
-/

namespace AgentSweep

theorem Expr.eval_eq_value {c : Context} {id : AgentId} (h : c.agent = some id) (s : Scene)
    (e : Expr) : e.eval c s = e.value id c.tag s.stage := by
  cases e with
  | constant value => rfl
  | own name =>
    simp only [eval, value, ofAgent, h, Scene.stage]
    cases s.world.get? id with
    | none => rfl
    | some agent => dsimp only; cases agent.vars.get? name <;> rfl
  | who =>
    simp only [eval, value, ofAgent, h, Scene.stage]
    cases s.world.get? id <;> rfl
  | random bound => rfl
  | count set => rfl

namespace Instruction

theorem costs_lt_costs_cons (i : Instruction) (later : List Instruction) :
    costs later < costs (i :: later) := by
  rw [costs]
  exact Nat.lt_add_of_pos_left i.cost_pos

theorem costs_code_lt_costs_call (callee : Procedure) (later : List Instruction) :
    costs callee.code < costs (.call callee :: later) := by
  rw [costs, cost, Procedure.unrolled_eq]
  omega

end Instruction

namespace Context

variable {c : Context} {s : Scene} {id : AgentId} {frame : Frame}

/-! ## Single instructions -/

/-- What an instruction has to do to a context, given what it means. -/
def Suits (c : Context) (effect : Except Fault Outcome × Context × Scene) :
    Option Verdict × Stage → Prop
  | (none, stage) =>
    effect.1 = .ok .more ∧ effect.2.1 = c.goto (c.ip + 1) ∧ effect.2.2.stage = stage
  | (some .returned, stage) =>
    effect.1 = .ok c.leave.1 ∧ effect.2.1 = c.leave.2 ∧ effect.2.2.stage = stage
  | (some .ended, stage) => effect.1 = .ok .over ∧ effect.2.2.stage = stage
  | (some (.failed fault), stage) => effect.1 = .error fault ∧ effect.2.2.stage = stage

/-- **An instruction of a command does to a context what it means**, unless it calls a command. -/
theorem suits_perform (hagent : c.agent = some id) {p : Procedure} (hrole : p.role = .command)
    {i : Instruction} (hcall : ∀ callee, i = .call callee → callee.role = .reporter) :
    c.Suits (c.perform s p i) (i.execute id c.tag s.stage) := by
  cases i with
  | noop => exact ⟨rfl, rfl, rfl⟩
  | print e =>
    rw [perform, Instruction.execute, Expr.eval_eq_value hagent]
    obtain ⟨_ | value, random⟩ := e.value id c.tag s.stage
    · exact ⟨rfl, rfl⟩
    · exact ⟨rfl, rfl, rfl⟩
  | set name e =>
    rw [perform, Instruction.execute, Expr.eval_eq_value hagent, hagent]
    obtain ⟨_ | value, random⟩ := e.value id c.tag s.stage
    · exact ⟨rfl, rfl⟩
    · dsimp only
      by_cases halive : s.world.isAlive id = true
      · rw [if_pos halive, if_pos (show s.stage.world.isAlive id = true from halive)]
        exact ⟨rfl, rfl, rfl⟩
      · rw [if_neg halive, if_neg (show ¬ s.stage.world.isAlive id = true from halive)]
        exact ⟨rfl, rfl⟩
  | hatch breed =>
    rw [perform, Instruction.execute, Expr.ofAgent, hagent]
    split
    · dsimp only [Scene.world_stage]
      cases s.world.get? id with
      | none => exact ⟨rfl, rfl⟩
      | some parent => exact ⟨rfl, rfl, rfl⟩
    · exact ⟨rfl, rfl⟩
  | die =>
    rw [perform, Instruction.execute, hagent]
    exact ⟨rfl, rfl⟩
  | killWho who =>
    rw [perform, Instruction.execute, hagent]
    dsimp only [Scene.world_stage]
    cases s.world.findByWho who with
    | none => exact ⟨rfl, rfl, rfl⟩
    | some target =>
      by_cases htarget : target = id
      · dsimp only
        rw [if_pos htarget, if_pos (by rw [htarget])]
        exact ⟨rfl, rfl⟩
      · dsimp only
        rw [if_neg htarget, if_neg fun h => htarget (Option.some.inj h).symm]
        exact ⟨rfl, rfl, rfl⟩
  | call callee =>
    rw [perform, Instruction.execute, hcall callee rfl]
    exact ⟨rfl, rfl⟩
  | leave => exact ⟨rfl, rfl, rfl⟩
  | done => exact ⟨rfl, rfl⟩
  | report e =>
    rw [perform, Instruction.execute, hrole]
    exact ⟨rfl, rfl⟩
  | fail message => exact ⟨rfl, rfl⟩

/-! ## Bodies -/

/-- **What becomes of a context that runs a body to its end.** -/
inductive ComesTo (c : Context) (s : Scene) : Verdict × Stage → Prop where
  /-- The context comes to a place where it leaves the body, with all calls closed that were opened
  in it. -/
  | returned {address : Nat} {t : Scene} (reaches : Reaches (c, s) (c.goto address, t))
      (outcome : ((c.goto address).step t).outcome = .ok (c.goto address).leave.1)
      (context : ((c.goto address).step t).context = (c.goto address).leave.2) :
      ComesTo c s (.returned, ((c.goto address).step t).scene.stage)
  /-- A step ends the agent's run, perhaps inside of calls. -/
  | ended {d : Context} {t : Scene} (reaches : Reaches (c, s) (d, t))
      (outcome : (d.step t).outcome = .ok .over) :
      ComesTo c s (.ended, (d.step t).scene.stage)
  | failed {d : Context} {t : Scene} {fault : Fault} (reaches : Reaches (c, s) (d, t))
      (outcome : (d.step t).outcome = .error fault) :
      ComesTo c s (.failed fault, (d.step t).scene.stage)

/-- What comes of a body can be told from any point in it. -/
theorem ComesTo.of_reaches {address : Nat} {t : Scene} {result : Verdict × Stage}
    (h : Reaches (c, s) (c.goto address, t)) (later : (c.goto address).ComesTo t result) :
    c.ComesTo s result := by
  cases later with
  | returned reaches outcome context =>
    exact .returned (c := c) (h.trans reaches) outcome context
  | ended reaches outcome => exact .ended (h.trans reaches) outcome
  | failed reaches outcome => exact .failed (h.trans reaches) outcome

/-- An instruction with a verdict is the last one of its body. -/
theorem ComesTo.of_suits {i : Instruction} {p : Procedure} {verdict : Verdict} {stage : Stage}
    (hstep : c.step s = ⟨some i, (c.perform s p i).1, (c.perform s p i).2.1,
      (c.perform s p i).2.2⟩)
    (h : c.Suits (c.perform s p i) (some verdict, stage)) : c.ComesTo s (verdict, stage) := by
  cases verdict with
  | returned =>
    obtain ⟨houtcome, hcontext, rfl⟩ := h
    have hreturned := @ComesTo.returned c s c.ip s .refl
      (by show (c.step s).outcome = _; rw [hstep]; exact houtcome)
      (by show (c.step s).context = _; rw [hstep]; exact hcontext)
    rw [show (c.goto c.ip).step s = c.step s from rfl, hstep] at hreturned
    exact hreturned
  | ended =>
    obtain ⟨houtcome, rfl⟩ := h
    have hended := ComesTo.ended (c := c) .refl (by rw [hstep]; exact houtcome)
    rw [hstep] at hended
    exact hended
  | failed fault =>
    obtain ⟨houtcome, rfl⟩ := h
    have hfailed := ComesTo.failed (c := c) .refl (by rw [hstep]; exact houtcome)
    rw [hstep] at hfailed
    exact hfailed

/-- A context does what a procedure means if it does what the body means, once the tag may run
it. -/
theorem ComesTo.of_body (hframe : c.frame = some frame)
    (h : c.tag.intersects frame.procedure.usableBy = true →
      c.ComesTo s (Instruction.executeAll id c.tag (frame.procedure.code.drop c.ip) s.stage)) :
    c.ComesTo s (frame.procedure.executeFrom id c.tag c.ip s.stage) := by
  rw [Procedure.executeFrom]
  by_cases htag : c.tag.intersects frame.procedure.usableBy = true
  · rw [if_pos htag]
    exact h htag
  · rw [if_neg htag]
    have hstep := step_of_not_intersects (s := s) hframe htag
    have hfailed := ComesTo.failed (c := c) .refl (by rw [hstep])
    rw [hstep] at hfailed
    exact hfailed

/-! ## Calls -/

/-- A call of a command enters it in a new frame. -/
theorem step_of_call (hframe : c.frame = some frame)
    (htag : c.tag.intersects frame.procedure.usableBy = true) {callee : Procedure}
    (hi : frame.procedure.code[c.ip]? = some (.call callee)) (hrole : callee.role = .command) :
    c.step s = ⟨some (.call callee), .ok .more, c.push s.nextFrame callee (c.ip + 1),
      { s with nextFrame := s.nextFrame + 1 }⟩ := by
  rw [step_of_getElem? hframe htag hi, perform, hrole]

/-- To leave a procedure that has been called undoes the call. -/
theorem leave_goto_push (c : Context) (number : Nat) (callee : Procedure)
    (returnAddress address : Nat) :
    ((c.push number callee returnAddress).goto address).leave = (.more, c.goto returnAddress) :=
  rfl

/-- After a call the body goes on if the callee returns. -/
theorem exists_reaches_of_push {number returnAddress : Nat} {callee : Procedure} {t : Scene}
    {stage : Stage} (hcall : Reaches (c, s) (c.push number callee returnAddress, t))
    (h : (c.push number callee returnAddress).ComesTo t (.returned, stage)) :
    ∃ u : Scene, Reaches (c, s) (c.goto returnAddress, u) ∧ u.stage = stage := by
  cases h with
  | returned reaches outcome context =>
    -- the step that leaves the callee is the one with which the caller goes on
    rw [leave_goto_push] at outcome context
    refine ⟨_, (hcall.trans reaches).tail ⟨outcome, ?_⟩, rfl⟩
    rw [context]

/-- If the callee does not return, the body ends as the callee does. -/
theorem ComesTo.of_push {d : Context} {t : Scene} {verdict : Verdict} {stage : Stage}
    (hcall : Reaches (c, s) (d, t)) (hverdict : verdict ≠ .returned)
    (h : d.ComesTo t (verdict, stage)) : c.ComesTo s (verdict, stage) := by
  cases h with
  | returned => exact absurd rfl hverdict
  | ended reaches outcome => exact .ended (hcall.trans reaches) outcome
  | failed reaches outcome => exact .failed (hcall.trans reaches) outcome

/-! ## The simulation -/

/-- At its end a body returns. -/
theorem comesTo_nil (hframe : c.frame = some frame)
    (htag : c.tag.intersects frame.procedure.usableBy = true)
    (hip : c.ip = frame.procedure.size) : c.ComesTo s (.returned, s.stage) := by
  have hstep : (c.goto c.ip).step s = ⟨none, .ok c.leave.1, c.leave.2, s⟩ :=
    step_of_eq_size hframe htag hip
  have hreturned := @ComesTo.returned c s c.ip s .refl (by rw [hstep]; rfl) (by rw [hstep]; rfl)
  rw [hstep] at hreturned
  exact hreturned

/-- An instruction that does what it means is the first of a body that does what it means, if the
rest of the body does. -/
theorem comesTo_cons {i : Instruction} {later : List Instruction} {p : Procedure}
    (hstep : c.step s = ⟨some i, (c.perform s p i).1, (c.perform s p i).2.1,
      (c.perform s p i).2.2⟩)
    (hsuits : c.Suits (c.perform s p i) (i.execute id c.tag s.stage))
    (hlater : ∀ t : Scene, Reaches (c, s) (c.goto (c.ip + 1), t) →
      c.ComesTo s (Instruction.executeAll id c.tag later t.stage)) :
    c.ComesTo s (Instruction.executeAll id c.tag (i :: later) s.stage) := by
  rw [Instruction.executeAll]
  generalize i.execute id c.tag s.stage = result at hsuits ⊢
  obtain ⟨verdict, stage⟩ := result
  cases verdict with
  | some verdict => exact .of_suits hstep hsuits
  | none =>
    obtain ⟨houtcome, hcontext, rfl⟩ := hsuits
    have hreaches := reaches_step (c := c) (s := s) (by rw [hstep]; exact houtcome)
    rw [hstep, hcontext] at hreaches
    exact hlater _ hreaches

/-- The same of a call, if the callee does what it means. -/
theorem comesTo_call {callee : Procedure} {later : List Instruction} {number : Nat} {t : Scene}
    (hrole : callee.role = .command)
    (hcall : Reaches (c, s) (c.push number callee (c.ip + 1), t))
    (hbody : (c.push number callee (c.ip + 1)).ComesTo t (callee.execute id c.tag s.stage))
    (hlater : ∀ t : Scene, Reaches (c, s) (c.goto (c.ip + 1), t) →
      c.ComesTo s (Instruction.executeAll id c.tag later t.stage)) :
    c.ComesTo s (Instruction.executeAll id c.tag (.call callee :: later) s.stage) := by
  rw [Instruction.executeAll, Instruction.execute, hrole]
  dsimp only
  generalize callee.execute id c.tag s.stage = result at hbody ⊢
  obtain ⟨verdict, stage⟩ := result
  cases verdict with
  | returned =>
    obtain ⟨u, hu, rfl⟩ := exists_reaches_of_push hcall hbody
    exact hlater u hu
  | ended => exact .of_push hcall nofun hbody
  | failed fault => exact .of_push hcall nofun hbody

/-- **A context that runs the rest of a body does what the rest means.** -/
theorem comesTo_executeAll (rest : List Instruction) {c : Context} {s : Scene} {frame : Frame}
    (hagent : c.agent = some id) (hframe : c.frame = some frame)
    (hrole : frame.procedure.role = .command)
    (htag : c.tag.intersects frame.procedure.usableBy = true)
    (hip : c.ip ≤ frame.procedure.size) (hrest : frame.procedure.code.drop c.ip = rest) :
    c.ComesTo s (Instruction.executeAll id c.tag rest s.stage) := by
  match rest with
  | [] =>
    rw [Instruction.executeAll]
    exact comesTo_nil hframe htag (Nat.le_antisymm hip (List.drop_eq_nil_iff.mp hrest))
  | i :: later =>
    have hi : frame.procedure.code[c.ip]? = some i := by
      rw [← Nat.add_zero c.ip, ← List.getElem?_drop, hrest]
      rfl
    have hdrop : frame.procedure.code.drop (c.ip + 1) = later := by
      rw [← List.tail_drop, hrest, List.tail_cons]
    have hlater (t : Scene) (h : Reaches (c, s) (c.goto (c.ip + 1), t)) :
        c.ComesTo s (Instruction.executeAll id c.tag later t.stage) :=
      .of_reaches h (comesTo_executeAll later hagent hframe hrole htag
        (List.getElem?_eq_some_iff.mp hi).1 hdrop)
    -- only a command that is called has a body of its own; all else is done in one step
    by_cases hcall : ∃ callee, i = .call callee ∧ callee.role = .command
    · obtain ⟨callee, rfl, hcallee⟩ := hcall
      have hstep := step_of_call (s := s) hframe htag hi hcallee
      have hreaches := reaches_step (c := c) (s := s) (by rw [hstep])
      rw [hstep] at hreaches
      refine comesTo_call hcallee hreaches ?_ hlater
      have hcalleeFrame : (c.push s.nextFrame callee (c.ip + 1)).frame
          = some ⟨s.nextFrame, callee, c.frame, c.ip + 1⟩ := rfl
      rw [Procedure.execute_eq]
      exact .of_body hcalleeFrame fun hcalleeTag =>
        comesTo_executeAll callee.code hagent hcalleeFrame hcallee hcalleeTag (Nat.zero_le _)
          List.drop_zero
    · refine comesTo_cons (step_of_getElem? hframe htag hi) ?_ hlater
      refine suits_perform hagent hrole fun callee hcallee => ?_
      cases hcalleeRole : callee.role with
      | command => exact absurd ⟨callee, hcallee, hcalleeRole⟩ hcall
      | reporter => rfl
termination_by Instruction.costs rest
decreasing_by
  · exact Instruction.costs_lt_costs_cons i later
  · rw [‹i = .call callee›]
    exact Instruction.costs_code_lt_costs_call callee later

/-! ## Runs -/

/-- A run that comes to a last step without a value has the result and the scene of that step. -/
theorem run_of_reaches {d : Context} {t : Scene} (verdict : Verdict)
    (hfinished : c.finished = false) (h : Reaches (c, s) (d, t))
    (hlast : (d.step t).outcome = verdict.result.map fun _ => .over) :
    (c.run s).result = verdict.result ∧ (c.run s).scene = (d.step t).scene := by
  obtain ⟨taken, hdrive⟩ := h.exists_drive_eq #[]
  rw [run, if_neg (Bool.eq_false_iff.mp hfinished), hdrive, drive_eq, hlast]
  cases verdict <;> exact ⟨rfl, rfl⟩

/-- A run that begins with no call open comes to what its body comes to. -/
theorem run_of_comesTo {result : Verdict × Stage} (hfinished : c.finished = false)
    (hcalls : c.calls = 0) (h : c.ComesTo s result) :
    (c.run s).result = result.1.result ∧ (c.run s).scene.stage = result.2 := by
  cases h with
  | @returned address t reaches outcome _ =>
    -- no call is open, so that there is nobody to go back to
    have hleave : (c.goto address).leave.1 = .over := by
      rw [leave, pop?, show (c.goto address).calls = 0 from hcalls]
    rw [hleave] at outcome
    obtain ⟨hresult, hscene⟩ := run_of_reaches .returned hfinished reaches outcome
    exact ⟨hresult, congrArg Scene.stage hscene⟩
  | ended reaches outcome =>
    obtain ⟨hresult, hscene⟩ := run_of_reaches .ended hfinished reaches outcome
    exact ⟨hresult, congrArg Scene.stage hscene⟩
  | @failed _ _ fault reaches outcome =>
    obtain ⟨hresult, hscene⟩ := run_of_reaches (.failed fault) hfinished reaches outcome
    exact ⟨hresult, congrArg Scene.stage hscene⟩

/-- **A run comes to what its procedure means.** It succeeds if the procedure returns or ends the
run of its agent, and fails with the procedure's fault otherwise. In every case it leaves the world
and the generator that the procedure leaves. The callers of the frame in which it begins play no
part, nor does anything that was left in the context. -/
theorem run_eq_executeFrom (c : Context) (s : Scene) (id : AgentId) {frame : Frame} {address : Nat}
    (hrole : frame.procedure.role = .command) (haddress : address ≤ frame.procedure.size) :
    ((c.reset id frame address).run s).result
        = (frame.procedure.executeFrom id c.tag address s.stage).1.result
      ∧ ((c.reset id frame address).run s).scene.stage
        = (frame.procedure.executeFrom id c.tag address s.stage).2 := by
  refine run_of_comesTo rfl rfl ?_
  have hframe : (c.reset id frame address).frame = some frame := rfl
  exact .of_body hframe fun htag => comesTo_executeAll _ rfl hframe hrole htag haddress rfl

end Context

/-- A cow in a byre. -/
def Scene.byre : Scene := ⟨(World.empty.createTurtles "cows" 1).2, .ofSeed 0, 6⟩

/-- A frame with a caller. From address 1 on a calf is born and the run is over, two calls deep,
before anybody dies. -/
def Frame.calving : Frame where
  number := 5
  procedure := .command "calve"
    [.die, .call (.command "bear" [.hatch "cows", .call (.command "rest" [.done]), .die]), .die]
  parent := some ⟨4, .command "graze" [.die], none, 0⟩
  returnAddress := 0

/-- The end of the run skips what the callers have left to do, the caller of the frame included. -/
theorem Context.run_eq_executeFrom_calving :
    Frame.calving.procedure.role = .command ∧ 1 ≤ Frame.calving.procedure.size
      ∧ (Frame.calving.procedure.executeFrom ⟨1, 0⟩ Kind.turtle.mask 1 Scene.byre.stage).1 = .ended
      ∧ (((new default none Kind.turtle.mask).reset ⟨1, 0⟩ .calving 1).run .byre).result = .ok ()
      ∧ (((new default none Kind.turtle.mask).reset ⟨1, 0⟩ .calving 1).run .byre).scene.stage
        = (Frame.calving.procedure.executeFrom ⟨1, 0⟩ Kind.turtle.mask 1 Scene.byre.stage).2
      ∧ (Frame.calving.procedure.executeFrom ⟨1, 0⟩ Kind.turtle.mask 1
          Scene.byre.stage).2.world.members "cows" = [⟨1, 0⟩, ⟨2, 0⟩] := by
  have hrole : Frame.calving.procedure.role = .command := rfl
  have haddress : 1 ≤ Frame.calving.procedure.size := by decide
  have hended : (Frame.calving.procedure.executeFrom ⟨1, 0⟩ Kind.turtle.mask 1
      Scene.byre.stage).1 = .ended := by decide +kernel
  obtain ⟨hresult, hstage⟩ := run_eq_executeFrom (new default none Kind.turtle.mask) .byre ⟨1, 0⟩
    hrole haddress
  refine ⟨hrole, haddress, hended, hresult.trans ?_, hstage, by decide +kernel⟩
  exact congrArg Verdict.result hended

end AgentSweep
