import AgentSweep.Proofs.Machine.CallStack
import AgentSweep.Proofs.Machine.Changes

/-!
# How many steps a run takes

No procedure can call itself, and so the steps that a body takes at most can be counted in advance:
that is its unrolled size. A call begins again at address 0 and a return jumps back into the caller,
but the weight of a context, which counts what the bodies of all open calls have left to do, gets
smaller with every step. It is the unrolled size, or less, when a run begins. A run has therefore
no more states than the unrolled size says (`Context.length_le_weight`).

Calls cannot be open beyond the depth to which they nest in the procedure, `Procedure.nesting`.

Neither bound has anything to do with the callers of the frame in which a run begins.
-/

namespace AgentSweep

/-! ## How deep calls nest -/

mutual

/-- **How deep calls nest in a procedure.** -/
def Procedure.nesting : Procedure → Nat
  | ⟨_, _, _, code⟩ => Instruction.nestings code

/-- How deep calls nest in an instruction. -/
def Instruction.nesting : Instruction → Nat
  | .call callee => callee.nesting + 1
  | _ => 0

/-- How deep calls nest in a list of instructions: as deep as in one of them. -/
def Instruction.nestings : List Instruction → Nat
  | [] => 0
  | i :: is => max i.nesting (Instruction.nestings is)

end

theorem Instruction.nesting_le_nestings {i : Instruction} {code : List Instruction}
    (h : i ∈ code) : i.nesting ≤ nestings code := by
  induction code with
  | nil => cases h
  | cons first rest ih =>
    rcases List.mem_cons.mp h with rfl | hrest
    · exact Nat.le_max_left _ _
    · exact Nat.le_trans (ih hrest) (Nat.le_max_right _ _)

theorem Procedure.nesting_lt_of_call {p callee : Procedure} {address : Nat}
    (h : p.code[address]? = some (.call callee)) : callee.nesting < p.nesting := by
  cases p
  exact Instruction.nesting_le_nestings (List.mem_of_getElem? h)

/-- **With every open call there is one less to be opened.** -/
theorem Frame.Above.add_nesting_le {entry frame : Frame} {calls : Nat}
    (h : entry.Above calls frame) :
    calls + frame.procedure.nesting ≤ entry.procedure.nesting := by
  induction h with
  | entry => exact Nat.le_of_eq (Nat.zero_add _)
  | @call calls _ _ caller callee _ code _ ih =>
    have hlt := Procedure.nesting_lt_of_call code
    show calls + 1 + callee.nesting ≤ entry.procedure.nesting
    omega

/-! ## Weight -/

theorem Instruction.costs_drop_le (code : List Instruction) (address : Nat) :
    costs (code.drop address) ≤ costs code := by
  induction code generalizing address with
  | nil => rw [List.drop_nil]
  | cons i rest ih =>
    cases address with
    | zero => exact Nat.le_refl _
    | succ address =>
      rw [List.drop_succ_cons, costs]
      exact Nat.le_trans (ih address) (Nat.le_add_left _ _)

/-- What is left of a body is no more than the whole. -/
theorem Procedure.unrolledFrom_le_unrolled (p : Procedure) (address : Nat) :
    p.unrolledFrom address ≤ p.unrolled := by
  rw [unrolledFrom, unrolled_eq]
  exact Nat.add_le_add_left (Instruction.costs_drop_le p.code address) 1

namespace Context

variable {c : Context} {s : Scene} {entry : Frame}

theorem weight_pos (h : c.StandsOn entry) : 0 < c.weight := by
  obtain ⟨frame, hframe, -⟩ := h
  have hpos := frame.procedure.unrolledFrom_pos c.ip
  rw [weight, hframe]
  dsimp only
  omega

/-- With no call open there is nothing left to do but in the frame itself. -/
theorem weight_le_unrolled (hframe : c.frame = some entry) (hcalls : c.calls = 0) :
    c.weight ≤ entry.procedure.unrolled := by
  rw [weight, hframe, hcalls]
  exact entry.procedure.unrolledFrom_le_unrolled c.ip

theorem Next.weight_lt {a b : Context × Scene} (h : Next a b) : b.1.weight < a.1.weight := by
  obtain ⟨hmore, rfl⟩ := h
  exact weight_lt_of_step hmore

/-- **No run has more states than its weight says**, since every state is lighter than the one
before and none weighs nothing. -/
theorem length_le_weight {a : Context × Scene} (h : a.1.StandsOn entry)
    {later : List (Context × Scene)} (hchain : (a :: later).IsChain Next) :
    (a :: later).length ≤ a.1.weight := by
  induction later generalizing a with
  | nil => exact weight_pos h
  | cons b later ih =>
    obtain ⟨hnext, hlater⟩ := List.isChain_cons_cons.mp hchain
    have hrest := ih (h.next hnext) hlater
    have hlt := hnext.weight_lt
    rw [List.length_cons]
    omega

/-! ## Runs -/

/-- **The bounds of a run** of the procedure `p`, which begins in the state `start`. -/
structure RunBounds {α : Type} (p : Procedure) (start : Context × Scene) (course : Course α) :
    Prop where
  /-- However far the states of the run are followed, there are no more of them than the unrolled
  size. -/
  length_le : ∀ later, (start :: later).IsChain Next → (start :: later).length ≤ p.unrolled
  /-- The run follows them to one from which no other follows, and takes one step in each. -/
  exists_steps_eq : ∃ before last, (before ++ [last]).IsChain Next
    ∧ (before ++ [last]).head? = some start ∧ (∀ b, ¬ Next last b)
    ∧ course.steps.toList = (before ++ [last]).map fun b => b.1.recordOf b.2
  size_steps_le : course.steps.size ≤ p.unrolled
  /-- No more calls are open at any time than nest in the procedure. -/
  calls_le : ∀ b, Reaches start b → b.1.calls ≤ p.nesting
  calls_context_le : course.context.calls ≤ p.nesting

theorem RunBounds.of_drive {α : Type} (hframe : c.frame = some entry) (hcalls : c.calls = 0)
    (result : Except Fault α) {context : Context}
    (hcontext : context.calls = (c.drive s #[]).context.calls) :
    RunBounds entry.procedure (c, s) ((c.drive s #[]).conclude result context) := by
  have hstart : c.StandsOn entry := ⟨entry, hframe, hcalls ▸ .entry⟩
  have hlength (later : List (Context × Scene)) (hchain : ((c, s) :: later).IsChain Next) :
      ((c, s) :: later).length ≤ entry.procedure.unrolled :=
    Nat.le_trans (length_le_weight hstart hchain) (weight_le_unrolled hframe hcalls)
  have hopen (b : Context × Scene) (h : Reaches (c, s) b) :
      b.1.calls ≤ entry.procedure.nesting := by
    obtain ⟨frame, -, habove⟩ := hstart.of_reaches h
    exact Nat.le_trans (Nat.le_add_right _ _) habove.add_nesting_le
  have hsteps : ((c.drive s #[]).conclude result context).steps.toList
      = (c.trail s).map fun b => b.1.recordOf b.2 := toList_steps_drive c s #[]
  have hchain := isChain_trail c s
  refine ⟨hlength, ?_, ?_, hopen, ?_⟩
  · obtain ⟨before, last, htrail, hlast⟩ := exists_trail_eq_concat c s
    obtain ⟨later, hfirst⟩ := exists_trail_eq_cons c s
    have hhead : (before ++ [last]).head? = some (c, s) := by
      rw [← htrail, hfirst, List.head?_cons]
    exact ⟨before, last, htrail ▸ hchain, hhead, fun b hnext => hlast hnext.1, htrail ▸ hsteps⟩
  · obtain ⟨later, hfirst⟩ := exists_trail_eq_cons c s
    rw [← Array.length_toList, hsteps, List.length_map, hfirst]
    exact hlength later (hfirst ▸ hchain)
  · obtain ⟨b, hreaches, -, hlast⟩ :=
      (CallDiscipline.of_drive (s := s) hframe hcalls (.ok ()) (.inl rfl)).last
    exact Nat.le_trans (Nat.le_of_eq (hcontext.trans hlast)) (hopen b hreaches)

/-- **A run stays within its bounds**, for a command as for a reporter. -/
theorem runBounds_run (c : Context) (s : Scene) (id : AgentId) (frame : Frame) (address : Nat) :
    RunBounds frame.procedure (c.reset id frame address, s)
      ((c.reset id frame address).run s) := by
  rw [run, if_neg (show ¬ (c.reset id frame address).finished = true from Bool.false_ne_true)]
  dsimp only
  split <;> exact .of_drive rfl rfl _ rfl

theorem runBounds_evaluate (c : Context) (s : Scene) (frame : Frame) :
    RunBounds frame.procedure (c.enter frame, s) (c.evaluate s frame) := by
  unfold evaluate
  dsimp only
  split <;> exact .of_drive rfl rfl _ rfl

end Context

end AgentSweep
