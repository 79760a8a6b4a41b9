import AgentSweep.Proofs.Machine.Addresses
import AgentSweep.Proofs.Machine.Lineage

/-!
# Explicit returns

The end of a body does what a `leave` does. `Procedure.withReturns` puts a `leave` at the end of a
body and of all bodies that it calls, directly or through others, and nothing comes of it: where a
run was at the end of a body, it now is at that `leave`, and takes one step as before
(`Context.step_withReturns`). Where it was in the middle of a body, the instruction there is the
same, except that a call enters a body that ends with a `leave`.

All this is for addresses within bodies. Behind the end of a body there is room for one address less
to be invalid.

The lineage of the frame in which a run begins is not seen, and so it makes no difference whether
the callers of that frame have got explicit returns as well (`Context.inStep_withReturns`).
-/

namespace AgentSweep

/-! ## Code -/

mutual

/-- **The procedure with an explicit return** at the end of its body, and of every body that it
calls. -/
def Procedure.withReturns : Procedure → Procedure
  | ⟨name, role, usableBy, code⟩ =>
    ⟨name, role, usableBy, Instruction.withReturnsAll code ++ [.leave]⟩

/-- The instruction with explicit returns in what it calls. -/
def Instruction.withReturns : Instruction → Instruction
  | .call callee => .call callee.withReturns
  | i => i

/-- The instructions with explicit returns in what they call. -/
def Instruction.withReturnsAll : List Instruction → List Instruction
  | [] => []
  | i :: is => i.withReturns :: Instruction.withReturnsAll is

end

theorem Instruction.withReturnsAll_eq_map (code : List Instruction) :
    withReturnsAll code = code.map withReturns := by
  induction code with
  | nil => rfl
  | cons i rest ih => rw [withReturnsAll, ih, List.map_cons]

namespace Procedure

variable {p : Procedure} {address : Nat}

@[simp] theorem name_withReturns (p : Procedure) : p.withReturns.name = p.name := by
  cases p
  rfl

@[simp] theorem role_withReturns (p : Procedure) : p.withReturns.role = p.role := by
  cases p
  rfl

@[simp] theorem usableBy_withReturns (p : Procedure) : p.withReturns.usableBy = p.usableBy := by
  cases p
  rfl

theorem code_withReturns (p : Procedure) :
    p.withReturns.code = p.code.map Instruction.withReturns ++ [.leave] := by
  cases p
  exact congrArg (· ++ [.leave]) (Instruction.withReturnsAll_eq_map _)

theorem getElem?_withReturns {i : Instruction} (h : p.code[address]? = some i) :
    p.withReturns.code[address]? = some i.withReturns := by
  obtain ⟨hlt, rfl⟩ := List.getElem?_eq_some_iff.mp h
  rw [code_withReturns, List.getElem?_append_left (by rwa [List.length_map]), List.getElem?_map, h]
  rfl

/-- Where the body ended, it now returns. -/
theorem getElem?_withReturns_size (p : Procedure) :
    p.withReturns.code[p.size]? = some .leave := by
  rw [code_withReturns, size, ← List.length_map Instruction.withReturns]
  exact List.getElem?_concat_length

end Procedure

/-- The frame with explicit returns in its procedure, and likewise its callers. -/
def Frame.withReturns : Frame → Frame
  | ⟨number, procedure, none, returnAddress⟩ => ⟨number, procedure.withReturns, none, returnAddress⟩
  | ⟨number, procedure, some caller, returnAddress⟩ =>
    ⟨number, procedure.withReturns, some caller.withReturns, returnAddress⟩

@[simp] theorem Frame.procedure_withReturns (f : Frame) :
    f.withReturns.procedure = f.procedure.withReturns := by
  obtain ⟨number, procedure, _ | caller, returnAddress⟩ := f <;> rfl

theorem Frame.parent_withReturns (f : Frame) :
    f.withReturns.parent = f.parent.map withReturns := by
  obtain ⟨number, procedure, _ | caller, returnAddress⟩ := f <;> rfl

theorem Frame.returnAddress_withReturns (f : Frame) :
    f.withReturns.returnAddress = f.returnAddress := by
  obtain ⟨number, procedure, _ | caller, returnAddress⟩ := f <;> rfl

namespace Context

variable {c d : Context} {s t : Scene} {entry frame : Frame} {a : AgentId}

/-- The context with explicit returns in all that is running. -/
def withReturns (c : Context) : Context := { c with frame := c.frame.map Frame.withReturns }

/-! ## One step -/

theorem frame_withReturns (hframe : c.frame = some frame) :
    c.withReturns.frame = some frame.withReturns := by
  rw [withReturns, hframe]
  rfl

theorem push_withReturns (c : Context) (number : Nat) (callee : Procedure) (address : Nat) :
    c.withReturns.push number callee.withReturns address
      = (c.push number callee address).withReturns := by
  unfold withReturns push
  cases c.frame <;> rfl

theorem leave_withReturns (hframe : c.frame = some frame) :
    c.withReturns.leave = (c.leave.1, c.leave.2.withReturns) := by
  cases hcalls : c.calls with
  | zero =>
    rw [leave, leave, pop?_of_calls_eq_zero hcalls,
      pop?_of_calls_eq_zero (c := c.withReturns) hcalls]
  | succ calls =>
    rw [leave, leave, pop?_of_calls_eq_succ hframe hcalls,
      pop?_of_calls_eq_succ (frame_withReturns hframe) (c := c.withReturns) hcalls,
      frame.parent_withReturns, frame.returnAddress_withReturns]
    rfl

/-- **An instruction does what it did before** in a context with explicit returns. -/
theorem perform_withReturns (hframe : c.frame = some frame) (s : Scene) (p : Procedure)
    (i : Instruction) :
    c.withReturns.perform s p.withReturns i.withReturns
      = ((c.perform s p i).1, (c.perform s p i).2.1.withReturns, (c.perform s p i).2.2) := by
  have heval (e : Expr) : e.eval c.withReturns s = e.eval c s := by cases e <;> rfl
  have hagent : c.withReturns.agent = c.agent := rfl
  have htag : c.withReturns.tag = c.tag := rfl
  cases i with
  | noop | done | fail => rfl
  | print e =>
    simp only [Instruction.withReturns, perform, heval]
    obtain ⟨_ | value, random⟩ := e.eval c s <;> rfl
  | set name e =>
    simp only [Instruction.withReturns, perform, heval, hagent]
    obtain ⟨_ | value, random⟩ := e.eval c s
    · rfl
    · cases c.agent with
      | none => rfl
      | some id => dsimp only; split <;> rfl
  | hatch breed =>
    have hparent : Expr.ofAgent c.withReturns s.world .ok = Expr.ofAgent c s.world .ok := rfl
    simp only [Instruction.withReturns, perform, hparent, htag]
    cases c.tag.intersects Kind.turtle.mask
    · rfl
    · cases Expr.ofAgent c s.world .ok <;> rfl
  | die =>
    simp only [Instruction.withReturns, perform, hagent]
    cases c.agent <;> rfl
  | killWho who =>
    simp only [Instruction.withReturns, perform, hagent]
    cases s.world.findByWho who <;> rfl
  | call callee =>
    simp only [Instruction.withReturns, perform, Procedure.role_withReturns,
      Procedure.name_withReturns]
    cases callee.role with
    | command => dsimp only; rw [← push_withReturns]; rfl
    | reporter => rfl
  | leave =>
    simp only [Instruction.withReturns, perform, leave_withReturns hframe]
  | report e =>
    simp only [Instruction.withReturns, perform, heval, Procedure.role_withReturns]
    cases p.role with
    | command => rfl
    | reporter => obtain ⟨_ | value, random⟩ := e.eval c s <;> rfl

/-- **A step within bodies comes to the same with explicit returns.** -/
theorem step_withReturns (h : c.WithinBodies entry) (s : Scene) :
    (c.withReturns.step s).outcome = (c.step s).outcome
      ∧ (c.withReturns.step s).context = (c.step s).context.withReturns
      ∧ (c.withReturns.step s).scene = (c.step s).scene := by
  obtain ⟨frame, hframe, -, hip⟩ := h
  have hframe' := frame_withReturns hframe
  by_cases htag : c.tag.intersects frame.procedure.usableBy = true
  · have htag' : c.withReturns.tag.intersects frame.withReturns.procedure.usableBy = true := by
      rw [Frame.procedure_withReturns, Procedure.usableBy_withReturns]
      exact htag
    rcases Nat.lt_or_eq_of_le hip with hlt | heq
    · have hi := List.getElem?_eq_getElem hlt
      have hi' := frame.procedure_withReturns ▸ Procedure.getElem?_withReturns hi
      rw [step_of_getElem? hframe htag hi, step_of_getElem? hframe' htag' hi',
        Frame.procedure_withReturns, perform_withReturns hframe]
      exact ⟨rfl, rfl, rfl⟩
    · -- the explicit return is where the body was at its end
      have hi' : frame.withReturns.procedure.code[c.withReturns.ip]? = some .leave := by
        rw [Frame.procedure_withReturns]
        exact heq ▸ frame.procedure.getElem?_withReturns_size
      rw [step_of_eq_size hframe htag heq, step_of_getElem? hframe' htag' hi', perform_eq_of_leave,
        leave_withReturns hframe]
      exact ⟨rfl, rfl, rfl⟩
  · have htag' : ¬ c.withReturns.tag.intersects frame.withReturns.procedure.usableBy = true := by
      rw [Frame.procedure_withReturns, Procedure.usableBy_withReturns]
      exact htag
    rw [step_of_not_intersects hframe htag, step_of_not_intersects hframe' htag',
      Frame.procedure_withReturns, Procedure.name_withReturns]
    exact ⟨rfl, rfl, rfl⟩

/-! ## Whole runs -/

/-- **The second state is the first one with explicit returns**, but for lineage. -/
structure GainsReturns (entry : Frame) (a : AgentId) (x y : Context × Scene) : Prop where
  within : x.1.WithinBodies entry
  kindred : Kindred a (x.1.withReturns, x.2) y

theorem GainsReturns.step {x y : Context × Scene} (h : GainsReturns entry a x y) :
    (x.1.step x.2).outcome = (y.1.step y.2).outcome
      ∧ GainsReturns entry a ((x.1.step x.2).context, (x.1.step x.2).scene)
        ((y.1.step y.2).context, (y.1.step y.2).scene) := by
  obtain ⟨houtcome, hcontext, hscene⟩ := step_withReturns h.within x.2
  obtain ⟨-, houtcome', hcontext', hstage'⟩ := h.kindred.step
  exact ⟨houtcome.symm.trans houtcome', h.within.step x.2, hcontext ▸ hcontext', hscene ▸ hstage'⟩

/-- **Runs with and without explicit returns stay in step.** -/
theorem inStep_gainsReturns (entry : Frame) (a : AgentId) : InStep (GainsReturns entry a) :=
  fun _ _ h => ⟨h.step.1, fun _ => h.step.2⟩

theorem GainsReturns.finish {x y : Context × Scene} (h : GainsReturns entry a x y) :
    GainsReturns entry a (x.1.finish, x.2) (y.1.finish, y.2) :=
  ⟨h.within, h.kindred.context.finish, h.kindred.stage_eq⟩

theorem GainsReturns.run (h : GainsReturns entry a (c, s) (d, t)) (hfinished : c.finished = false) :
    CoursesMatch (GainsReturns entry a) (c.run s) (d.run t) :=
  (inStep_gainsReturns entry a).coursesMatch_run (fun _ _ h => h.step.2) (fun _ _ h => h.finish) h
    hfinished (h.kindred.context.finished_eq ▸ hfinished)

theorem GainsReturns.evaluate {f g : Frame} (h : GainsReturns entry a (c.enter f, s) (d.enter g, t))
    (hprocedure : g.procedure = f.procedure.withReturns) :
    CoursesMatch (GainsReturns entry a) (c.evaluate s f) (d.evaluate t g) :=
  (inStep_gainsReturns entry a).coursesMatch_evaluate (fun _ _ h => h.step.2)
    (fun _ _ h => h.finish) h (by rw [hprocedure, Procedure.name_withReturns])

end Context

end AgentSweep
