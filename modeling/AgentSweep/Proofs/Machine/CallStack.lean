import AgentSweep.Proofs.Machine.Course

/-!
# The discipline of calls

The frame in which a run begins may have callers of its own, and these are none of the run's
business: a return must not fall into them. Nothing in a frame says where the run began. The
context counts its open calls instead, and a step changes this count and the frame together or not
at all (`Context.stack_cases`).

`Context.call_discipline` says what comes of it, for a command as for a reporter. From the frame of
any state of a run the links to the callers lead to the frame in which the run began, in as many
steps as calls are open. Each frame on the way was made by a call (`Frame.Above`), in a state
through which the run has gone before, and a return leads back to the frame of that state.
-/

namespace AgentSweep

/-! ## Frames above a frame -/

namespace Frame

variable {f g entry : Frame}

/-- **A frame stands a number of calls above another one**: each of the calls was made by an
instruction of the calling body, called a command, and returns to the next instruction. -/
inductive Above (entry : Frame) : Nat → Frame → Prop where
  | entry : Above entry 0 entry
  | call {calls address number : Nat} {caller : Frame} {callee : Procedure}
      (above : Above entry calls caller)
      (code : caller.procedure.code[address]? = some (.call callee))
      (role : callee.role = .command) :
      Above entry (calls + 1) ⟨number, callee, some caller, address + 1⟩

/-- **The frames of a chain are numbered downwards**, all of them below a bound. Callers are made
before those whom they call. -/
inductive Numbered : Nat → Frame → Prop where
  | root {bound number : Nat} {procedure : Procedure} {returnAddress : Nat} (lt : number < bound) :
      Numbered bound ⟨number, procedure, none, returnAddress⟩
  | called {bound number : Nat} {procedure : Procedure} {caller : Frame} {returnAddress : Nat}
      (lt : number < bound) (caller_numbered : Numbered number caller) :
      Numbered bound ⟨number, procedure, some caller, returnAddress⟩

theorem ancestor?_add (f : Frame) (j k : Nat) :
    f.ancestor? (j + k) = (f.ancestor? j).bind fun g => g.ancestor? k := by
  induction j generalizing f with
  | zero => rw [Nat.zero_add]; rfl
  | succ j ih =>
    rw [Nat.succ_add]
    simp only [ancestor?]
    cases f.parent with
    | none => rfl
    | some caller => exact ih caller

/-- A chain is as long as its links. -/
theorem depth_of_ancestor? {k : Nat} (h : f.ancestor? k = some g) : f.depth = g.depth + k := by
  induction k generalizing f with
  | zero => cases h; rfl
  | succ k ih =>
    obtain ⟨number, procedure, parent, returnAddress⟩ := f
    cases parent with
    | none => cases h
    | some caller => rw [depth, ih h, Nat.add_assoc]

/-- No frame is among its own callers. -/
theorem ne_of_ancestor? {k : Nat} (hpos : 0 < k) (h : f.ancestor? k = some g) : f ≠ g := by
  rintro rfl
  have hdepth := depth_of_ancestor? h
  omega

namespace Numbered

variable {bound : Nat}

theorem number_lt (h : f.Numbered bound) : f.number < bound := by
  cases h with
  | root lt => exact lt
  | called lt _ => exact lt

theorem mono {larger : Nat} (h : f.Numbered bound) (hle : bound ≤ larger) :
    f.Numbered larger := by
  cases h with
  | root lt => exact .root (Nat.lt_of_lt_of_le lt hle)
  | called lt caller => exact .called (Nat.lt_of_lt_of_le lt hle) caller

theorem of_parent (h : f.Numbered bound) (hparent : f.parent = some g) :
    g.Numbered f.number := by
  cases h with
  | root => cases hparent
  | called _ caller =>
    cases hparent
    exact caller

/-- **No caller has the number of the frame**, so that it is another frame. -/
theorem number_ne (h : f.Numbered bound) {k : Nat} (hpos : 0 < k)
    (hancestor : f.ancestor? k = some g) : f.number ≠ g.number := by
  suffices hlt : ∀ k {f : Frame} {bound : Nat}, f.Numbered bound → f.ancestor? k = some g →
      g.number < bound by
    cases k with
    | zero => exact absurd hpos (Nat.lt_irrefl 0)
    | succ k =>
      obtain ⟨caller, hcaller, hrest⟩ := Option.bind_eq_some_iff.mp hancestor
      exact (Nat.ne_of_lt (hlt k (h.of_parent hcaller) hrest)).symm
  intro k
  induction k with
  | zero =>
    intro f bound h hself
    cases hself
    exact h.number_lt
  | succ k ih =>
    intro f bound h hancestor
    obtain ⟨caller, hcaller, hrest⟩ := Option.bind_eq_some_iff.mp hancestor
    exact Nat.lt_trans (ih (h.of_parent hcaller) hrest) h.number_lt

end Numbered

namespace Above

variable {calls : Nat}

/-- The links to the callers lead down to the lower frame. -/
theorem ancestor?_eq (h : entry.Above calls f) : f.ancestor? calls = some entry := by
  induction h with
  | entry => rfl
  | call _ _ _ ih => exact ih

/-- **Whichever frame is met on the way down was made by a call.** -/
theorem exists_caller (h : entry.Above calls f) {k : Nat} (hk : k < calls) :
    ∃ g caller, f.ancestor? k = some g ∧ g.parent = some caller ∧ g.procedure.role = .command
      ∧ 0 < g.returnAddress
      ∧ caller.procedure.code[g.returnAddress - 1]? = some (.call g.procedure) := by
  induction h generalizing k with
  | entry => exact absurd hk (Nat.not_lt_zero k)
  | call above code role ih =>
    cases k with
    | zero => exact ⟨_, _, rfl, rfl, role, Nat.succ_pos _, code⟩
    | succ k => exact ih (Nat.lt_of_succ_lt_succ hk)

/-- A frame that stands above another one is not among the callers of that. -/
theorem ne_of_ancestor? (h : entry.Above calls f) {k : Nat} (hpos : 0 < k)
    (hancestor : entry.ancestor? k = some g) : f ≠ g := by
  refine Frame.ne_of_ancestor? (k := calls + k) (Nat.add_pos_right calls hpos) ?_
  rw [ancestor?_add, h.ancestor?_eq]
  exact hancestor

end Above

end Frame

namespace Context

variable {c : Context} {s : Scene} {frame entry : Frame}

/-! ## What a step does to the call stack -/

theorem perform_eq_of_leave {p : Procedure} :
    c.perform s p .leave = (.ok c.leave.1, c.leave.2, s) := rfl

/-- **The call stack is left as it is**: the frame is the same, no call was opened or closed, and no
frame was made. -/
structure SameStack (c : Context) (s : Scene) (d : Context) (t : Scene) : Prop where
  frame_eq : d.frame = c.frame
  calls_eq : d.calls = c.calls
  nextFrame_eq : t.nextFrame = s.nextFrame

/-- Instructions that neither call nor leave do not touch the call stack. -/
theorem sameStack_perform {p : Procedure} {i : Instruction} (hcall : ∀ callee, i ≠ .call callee)
    (hleave : i ≠ .leave) : SameStack c s (c.perform s p i).2.1 (c.perform s p i).2.2 := by
  cases i with
  | call callee => exact absurd rfl (hcall callee)
  | leave => exact absurd rfl hleave
  | noop | done | fail => exact ⟨rfl, rfl, rfl⟩
  | print e =>
    simp only [perform]
    split <;> exact ⟨rfl, rfl, rfl⟩
  | set name e =>
    simp only [perform]
    split
    · split
      · exact ⟨rfl, rfl, rfl⟩
      · split <;> exact ⟨rfl, rfl, rfl⟩
    · exact ⟨rfl, rfl, rfl⟩
  | hatch breed =>
    simp only [perform]
    split
    · split <;> exact ⟨rfl, rfl, rfl⟩
    · exact ⟨rfl, rfl, rfl⟩
  | die =>
    simp only [perform]
    split <;> exact ⟨rfl, rfl, rfl⟩
  | killWho who =>
    simp only [perform]
    split <;> exact ⟨rfl, rfl, rfl⟩
  | report e =>
    simp only [perform]
    split
    · split <;> exact ⟨rfl, rfl, rfl⟩
    · exact ⟨rfl, rfl, rfl⟩

/-- To leave a body comes back from a call or, if none is open, changes nothing. -/
theorem leave_cases (c : Context) :
    (∃ d, c.pop? = some d ∧ c.leave = (.more, d)) ∨ (c.pop? = none ∧ c.leave = (.over, c)) := by
  unfold leave
  cases c.pop? with
  | none => exact .inr ⟨rfl, rfl⟩
  | some d => exact .inl ⟨d, rfl, rfl⟩

/-- **What a step does to the call stack**: nothing, or it calls a command, or it comes back from a
call. -/
theorem stack_cases (hframe : c.frame = some frame) (s : Scene) :
    SameStack c s (c.step s).context (c.step s).scene
      ∨ (∃ callee, frame.procedure.code[c.ip]? = some (.call callee) ∧ callee.role = .command
        ∧ c.step s = ⟨some (.call callee), .ok .more, c.push s.nextFrame callee (c.ip + 1),
          { s with nextFrame := s.nextFrame + 1 }⟩)
      ∨ (∃ d, c.pop? = some d ∧ (c.step s).outcome = .ok .more ∧ (c.step s).context = d
        ∧ (c.step s).scene = s) := by
  have hleaves {i : Option Instruction} (hstep : c.step s = ⟨i, .ok c.leave.1, c.leave.2, s⟩) :
      SameStack c s (c.step s).context (c.step s).scene
        ∨ (∃ d, c.pop? = some d ∧ (c.step s).outcome = .ok .more ∧ (c.step s).context = d
          ∧ (c.step s).scene = s) := by
    rw [hstep]
    rcases c.leave_cases with ⟨d, hpop, hleave⟩ | ⟨-, hleave⟩
    · rw [hleave]
      exact .inr ⟨d, hpop, rfl, rfl, rfl⟩
    · rw [hleave]
      exact .inl ⟨rfl, rfl, rfl⟩
  rcases step_cases hframe s with ⟨fault, hstep⟩ | ⟨i, hi, hstep⟩ | ⟨-, hstep⟩
  · rw [hstep]
    exact .inl ⟨rfl, rfl, rfl⟩
  · by_cases hleave : i = .leave
    · rw [hleave, perform_eq_of_leave] at hstep
      exact (hleaves hstep).imp id .inr
    · by_cases hcall : ∃ callee, i = .call callee
      · obtain ⟨callee, rfl⟩ := hcall
        rw [perform] at hstep
        cases hrole : callee.role with
        | command =>
          rw [hrole] at hstep
          exact .inr (.inl ⟨callee, hi, hrole, hstep⟩)
        | reporter =>
          rw [hrole] at hstep
          rw [hstep]
          exact .inl ⟨rfl, rfl, rfl⟩
      · rw [hstep]
        exact .inl (sameStack_perform (fun callee heq => hcall ⟨callee, heq⟩) hleave)
  · exact (hleaves hstep).imp id .inr

/-! ## States above a frame -/

theorem pop?_of_calls_eq_zero (hcalls : c.calls = 0) : c.pop? = none := by
  rw [pop?, hcalls]

theorem pop?_of_calls_eq_succ (hframe : c.frame = some frame) {calls : Nat}
    (hcalls : c.calls = calls + 1) :
    c.pop? = some { c with frame := frame.parent, ip := frame.returnAddress, calls := calls } := by
  rw [pop?, hcalls, hframe]

/-- Only an open call can be left. -/
theorem isSome_pop?_iff (hframe : c.frame = some frame) : c.pop?.isSome ↔ 0 < c.calls := by
  cases hcalls : c.calls with
  | zero => rw [pop?_of_calls_eq_zero hcalls]; simp
  | succ calls => rw [pop?_of_calls_eq_succ hframe hcalls]; simp

/-- **A state makes a frame**: its step calls the procedure of that frame, which gets the next
number, the current frame for its caller, and the next address to return to. -/
def Makes (a : Context × Scene) (g : Frame) : Prop :=
  g = ⟨a.2.nextFrame, g.procedure, a.1.frame, a.1.ip + 1⟩
    ∧ a.1.step a.2 = ⟨some (.call g.procedure), .ok .more,
      a.1.push a.2.nextFrame g.procedure (a.1.ip + 1), { a.2 with nextFrame := a.2.nextFrame + 1 }⟩

/-- **From one state of a run to the next** the frame stays, or it is made by a call, or it is the
one that called. -/
theorem Next.frame_cases {a b : Context × Scene} (h : Next a b) :
    ∃ frame, a.1.frame = some frame
      ∧ ((b.1.frame = some frame ∧ b.1.calls = a.1.calls ∧ b.2.nextFrame = a.2.nextFrame)
        ∨ (∃ g, b.1.frame = some g ∧ b.1.calls = a.1.calls + 1
          ∧ b.2.nextFrame = a.2.nextFrame + 1 ∧ Makes a g
          ∧ frame.procedure.code[a.1.ip]? = some (.call g.procedure) ∧ g.procedure.role = .command)
        ∨ (b.1.frame = frame.parent ∧ a.1.calls = b.1.calls + 1
          ∧ b.2.nextFrame = a.2.nextFrame)) := by
  obtain ⟨hmore, rfl⟩ := h
  cases hframe : a.1.frame with
  | none =>
    rw [step, hframe] at hmore
    cases hmore
  | some frame =>
    refine ⟨frame, rfl, ?_⟩
    rcases stack_cases hframe a.2 with ⟨hstays, hcalls, hnumber⟩ | ⟨callee, hi, hrole, hstep⟩ |
      ⟨d, hpop, -, hcontext, hscene⟩
    · exact .inl ⟨hstays.trans hframe, hcalls, hnumber⟩
    · refine .inr (.inl ⟨⟨a.2.nextFrame, callee, a.1.frame, a.1.ip + 1⟩, ?_⟩)
      rw [hstep]
      exact ⟨rfl, rfl, rfl, ⟨rfl, hstep⟩, hi, hrole⟩
    · rw [hcontext, hscene]
      cases hcalls : a.1.calls with
      | zero => cases (pop?_of_calls_eq_zero hcalls).symm.trans hpop
      | succ calls =>
        cases (pop?_of_calls_eq_succ hframe hcalls).symm.trans hpop
        exact .inr (.inr ⟨rfl, rfl, rfl⟩)

/-- **The calls of a context stand above a frame**: that one is below the current frame by as many
calls as are open. -/
def StandsOn (entry : Frame) (c : Context) : Prop :=
  ∃ frame, c.frame = some frame ∧ entry.Above c.calls frame

/-- **No step leaves the ground on which the calls stand.** -/
theorem StandsOn.next {a b : Context × Scene} (h : a.1.StandsOn entry) (hnext : Next a b) :
    b.1.StandsOn entry := by
  obtain ⟨frame, hframe, habove⟩ := h
  obtain ⟨current, hcurrent, hcases⟩ := hnext.frame_cases
  cases hframe.symm.trans hcurrent
  rcases hcases with ⟨hstays, hcalls, -⟩ | ⟨g, hg, hcalls, -, hmakes, hi, hrole⟩ |
    ⟨hback, hcalls, -⟩
  · exact ⟨frame, hstays, hcalls ▸ habove⟩
  · refine ⟨g, hg, ?_⟩
    rw [hcalls, hmakes.1, hframe]
    exact .call habove hi hrole
  · rw [hcalls] at habove
    cases habove with
    | call above _ _ => exact ⟨_, hback, above⟩

theorem StandsOn.of_reaches {a b : Context × Scene} (h : a.1.StandsOn entry) (hab : Reaches a b) :
    b.1.StandsOn entry := by
  induction hab with
  | refl => exact h
  | tail _ hnext ih => exact ih.next hnext

/-- **Frames get their numbers in turn**, the callers of the first one among them. -/
theorem numbered_of_reaches {a b : Context × Scene} (hab : Reaches a b)
    (h : ∀ frame, a.1.frame = some frame → frame.Numbered a.2.nextFrame) :
    ∀ frame, b.1.frame = some frame → frame.Numbered b.2.nextFrame := by
  induction hab with
  | refl => exact h
  | tail _ hnext ih =>
    intro g hg
    obtain ⟨frame, hframe, hcases⟩ := hnext.frame_cases
    have hnumbered := ih frame hframe
    rcases hcases with ⟨hstays, -, hnumber⟩ | ⟨made, hmade, -, hnumber, hmakes, -, -⟩ |
      ⟨hback, -, hnumber⟩
    · cases hstays.symm.trans hg
      exact hnumber ▸ hnumbered
    · cases hmade.symm.trans hg
      rw [hnumber, hmakes.1, hframe]
      exact .called (Nat.lt_succ_self _) hnumbered
    · rw [hnumber]
      exact (hnumbered.of_parent (hback.symm.trans hg)).mono (Nat.le_of_lt hnumbered.number_lt)

/-- **Every frame of an open call was made in an earlier state of the run**, with as many calls open
as there are below it. -/
theorem exists_makes {start b : Context × Scene} (hcalls : start.1.calls = 0)
    (h : Reaches start b) {frame g : Frame} (hframe : b.1.frame = some frame) {k : Nat}
    (hk : k < b.1.calls) (hg : frame.ancestor? k = some g) :
    ∃ a, Reaches start a ∧ Reaches a b ∧ Makes a g ∧ a.1.calls + k + 1 = b.1.calls := by
  induction h generalizing frame g k with
  | refl =>
    rw [hcalls] at hk
    exact absurd hk (Nat.not_lt_zero k)
  | @tail b next hreaches hnext ih =>
    obtain ⟨current, hcurrent, hcases⟩ := hnext.frame_cases
    rcases hcases with ⟨hstays, hsame, -⟩ | ⟨made, hmade, hsucc, -, hmakes, -, -⟩ |
      ⟨hback, hsucc, -⟩
    · cases hstays.symm.trans hframe
      obtain ⟨a, hstart, hab, hmade, hopen⟩ := ih hcurrent (hsame ▸ hk) hg
      exact ⟨a, hstart, hab.tail hnext, hmade, hopen.trans hsame.symm⟩
    · cases hmade.symm.trans hframe
      cases k with
      | zero =>
        cases hg
        exact ⟨b, hreaches, .single hnext, hmakes, hsucc.symm⟩
      | succ k =>
        have hcaller : current.ancestor? k = some g := by
          rw [hmakes.1, Frame.ancestor?, hcurrent] at hg
          exact hg
        obtain ⟨a, hstart, hab, hmade, hopen⟩ :=
          ih hcurrent (Nat.lt_of_succ_lt_succ (Nat.lt_of_lt_of_eq hk hsucc)) hcaller
        exact ⟨a, hstart, hab.tail hnext, hmade, (congrArg (· + 1) hopen).trans hsucc.symm⟩
    · have hdeeper : current.ancestor? (k + 1) = some g := by
        rw [Frame.ancestor?, ← hback, hframe]
        exact hg
      obtain ⟨a, hstart, hab, hmade, hopen⟩ :=
        ih hcurrent (hsucc ▸ Nat.succ_lt_succ hk) hdeeper
      exact ⟨a, hstart, hab.tail hnext, hmade, Nat.succ.inj (hopen.trans hsucc)⟩

/-! ## The discipline -/

/-- **A context is about to leave the body of its frame**: the next instruction is a return, or the
body is at its end. -/
def Leaves (c : Context) (frame : Frame) : Prop :=
  c.tag.intersects frame.procedure.usableBy = true
    ∧ (frame.procedure.code[c.ip]? = some .leave ∨ c.ip = frame.procedure.size)

theorem step_of_leaves (hframe : c.frame = some frame) (h : c.Leaves frame) (s : Scene) :
    (c.step s).outcome = .ok c.leave.1 ∧ (c.step s).context = c.leave.2 ∧ (c.step s).scene = s := by
  obtain ⟨htag, hi | hip⟩ := h
  · rw [step_of_getElem? hframe htag hi, perform_eq_of_leave]
    exact ⟨rfl, rfl, rfl⟩
  · rw [step_of_eq_size hframe htag hip]
    exact ⟨rfl, rfl, rfl⟩

/-- **The discipline of calls in one state** of a run: `b` is the state, `frame` its frame, and
`start` the state in which the run began, with the frame `entry`. -/
structure Discipline (entry : Frame) (start b : Context × Scene) (frame : Frame) : Prop where
  /-- The links to the callers lead to the frame in which the run began. -/
  ancestor?_eq : frame.ancestor? b.1.calls = some entry
  depth_eq : frame.depth = entry.depth + b.1.calls
  /-- Every frame on the way runs a command, which was called right before the instruction to which
  it returns. -/
  called : ∀ k < b.1.calls, ∃ g caller, frame.ancestor? k = some g ∧ g.parent = some caller
    ∧ g.procedure.role = .command ∧ 0 < g.returnAddress
    ∧ caller.procedure.code[g.returnAddress - 1]? = some (.call g.procedure)
  isSome_pop?_iff : b.1.pop?.isSome ↔ 0 < b.1.calls
  /-- To come back is to come back to the state that made the current frame. -/
  pop?_eq : ∀ d, b.1.pop? = some d → ∃ a, Reaches start a ∧ Reaches a b ∧ Makes a frame
    ∧ d = { b.1 with frame := a.1.frame, ip := a.1.ip + 1, calls := a.1.calls }
  /-- With a call open, to leave a body is to come back. -/
  step_of_leaves : b.1.Leaves frame → 0 < b.1.calls → (b.1.step b.2).outcome = .ok .more
    ∧ b.1.pop? = some (b.1.step b.2).context ∧ (b.1.step b.2).scene = b.2
  /-- The callers of the frame in which the run began do not run in it. -/
  ne_caller : ∀ k g, 0 < k → entry.ancestor? k = some g →
    frame ≠ g ∧ (entry.Numbered start.2.nextFrame → frame.number ≠ g.number)

/-- **The discipline of calls in a whole run.** -/
structure CallDiscipline {α : Type} (entry : Frame) (start : Context × Scene)
    (course : Course α) : Prop where
  /-- The states of the run are those in which its steps are taken. -/
  mem_steps_iff : ∀ record,
    record ∈ course.steps ↔ ∃ b, Reaches start b ∧ record = b.1.recordOf b.2
  discipline : ∀ b, Reaches start b →
    ∃ frame, b.1.frame = some frame ∧ Discipline entry start b frame
  /-- The last step leaves the call stack as it is. -/
  last : ∃ b, Reaches start b ∧ course.context.frame = b.1.frame
    ∧ course.context.calls = b.1.calls
  /-- With no call open, to leave a body is to end the run, in the frame in which it began. -/
  ends : ∀ b frame, Reaches start b → b.1.frame = some frame → b.1.Leaves frame →
    b.1.calls = 0 → (b.1.step b.2).outcome = .ok .over
      ∧ course.steps.back? = some (b.1.recordOf b.2)
      ∧ course.context.frame = some entry ∧ course.context.finished = true

theorem discipline_of_reaches {start b : Context × Scene} (hentry : start.1.frame = some entry)
    (hcalls : start.1.calls = 0) (h : Reaches start b) :
    ∃ frame, b.1.frame = some frame ∧ Discipline entry start b frame := by
  have hstart : start.1.StandsOn entry := ⟨entry, hentry, hcalls ▸ .entry⟩
  obtain ⟨frame, hframe, habove⟩ := hstart.of_reaches h
  refine ⟨frame, hframe, habove.ancestor?_eq, Frame.depth_of_ancestor? habove.ancestor?_eq, ?_,
    isSome_pop?_iff hframe, ?_, ?_, ?_⟩
  · exact fun k => habove.exists_caller
  · intro d hpop
    cases hopen : b.1.calls with
    | zero => cases (pop?_of_calls_eq_zero hopen).symm.trans hpop
    | succ calls =>
      cases (pop?_of_calls_eq_succ hframe hopen).symm.trans hpop
      obtain ⟨a, hstarta, hab, hmakes, heq⟩ :=
        exists_makes hcalls h hframe (k := 0) (hopen ▸ Nat.succ_pos calls) rfl
      refine ⟨a, hstarta, hab, hmakes, ?_⟩
      rw [← Nat.succ.inj (heq.trans hopen), hmakes.1]
  · intro hleaves hpos
    obtain ⟨houtcome, hcontext, hscene⟩ := step_of_leaves hframe hleaves b.2
    obtain ⟨d, hpop⟩ := Option.isSome_iff_exists.mp ((isSome_pop?_iff hframe).mpr hpos)
    have hleave : b.1.leave = (.more, d) := by rw [leave, hpop]
    rw [houtcome, hcontext, hleave]
    exact ⟨rfl, hpop, hscene⟩
  · intro k g hpos hancestor
    refine ⟨habove.ne_of_ancestor? hpos hancestor, fun hnumbered => ?_⟩
    have hfirst : ∀ f, start.1.frame = some f → f.Numbered start.2.nextFrame := by
      intro f hf
      cases hentry.symm.trans hf
      exact hnumbered
    have hall := numbered_of_reaches h hfirst frame hframe
    refine hall.number_ne (k := b.1.calls + k) (Nat.add_pos_right _ hpos) ?_
    rw [Frame.ancestor?_add, habove.ancestor?_eq]
    exact hancestor

/-- What is made of a run afterwards does not touch the discipline, if a run that is over is
declared over. -/
theorem CallDiscipline.of_drive {α : Type} (hentry : c.frame = some entry) (hcalls : c.calls = 0)
    (result : Except Fault α) {context : Context}
    (hcontext : context = (c.drive s #[]).context.finish
      ∨ context = (c.drive s #[]).context ∧ (c.drive s #[]).result ≠ .ok .over) :
    CallDiscipline entry (c, s) ((c.drive s #[]).conclude result context) := by
  have hframe : context.frame = (c.drive s #[]).context.frame := by
    rcases hcontext with rfl | ⟨rfl, -⟩ <;> rfl
  have hopen : context.calls = (c.drive s #[]).context.calls := by
    rcases hcontext with rfl | ⟨rfl, -⟩ <;> rfl
  refine ⟨fun record => ?_, fun b => discipline_of_reaches hentry hcalls, ?_, ?_⟩
  · refine ⟨fun h => (exists_reaches_of_mem_drive h).resolve_left (Array.not_mem_empty record), ?_⟩
    rintro ⟨b, hreaches, rfl⟩
    exact hreaches.recordOf_mem_steps #[]
  · obtain ⟨b, hreaches, hlast⟩ := exists_last c s
    obtain ⟨frame, hb, -⟩ := discipline_of_reaches hentry hcalls hreaches
    obtain ⟨hfinal, -, -⟩ := hreaches.drive_eq_last hlast #[]
    refine ⟨b, hreaches, ?_⟩
    show context.frame = _ ∧ context.calls = _
    rw [hframe, hopen, hfinal]
    rcases stack_cases hb b.2 with ⟨hstays, hsame, -⟩ | ⟨callee, -, -, hstep⟩ | ⟨d, -, hmore, -⟩
    · exact ⟨hstays, hsame⟩
    · rw [hstep] at hlast
      exact absurd rfl hlast
    · exact absurd hmore hlast
  · intro b frame hreaches hb hleaves hzero
    obtain ⟨current, hcurrent, hdiscipline⟩ := discipline_of_reaches hentry hcalls hreaches
    cases hb.symm.trans hcurrent
    obtain ⟨houtcome, hstays, -⟩ := step_of_leaves hb hleaves b.2
    have hleave : b.1.leave = (.over, b.1) := by rw [leave, pop?_of_calls_eq_zero hzero]
    rw [hleave] at houtcome hstays
    have hlast : (b.1.step b.2).outcome ≠ .ok .more := by rw [houtcome]; rintro ⟨⟩
    obtain ⟨hfinal, -, hback⟩ := hreaches.drive_eq_last hlast #[]
    have hself : frame = entry := by
      have hancestor := hdiscipline.ancestor?_eq
      rw [hzero] at hancestor
      exact Option.some.inj hancestor
    refine ⟨houtcome, hback, hframe.trans ?_, ?_⟩
    · rw [hfinal, hstays, hb, hself]
    · rcases hcontext with rfl | ⟨-, hnot⟩
      · rfl
      · exact absurd (hreaches.result_drive_of_over houtcome #[]) hnot

/-- **The law of the call stack**, for commands and for reporters, whatever the frame in which they
begin and whatever the callers of that. -/
theorem call_discipline (c : Context) (s : Scene) (entry : Frame) :
    (∀ id address, CallDiscipline entry (c.reset id entry address, s)
        ((c.reset id entry address).run s))
      ∧ CallDiscipline entry (c.enter entry, s) (c.evaluate s entry) := by
  constructor
  · intro id address
    rw [run, if_neg (show ¬ (c.reset id entry address).finished = true from Bool.false_ne_true)]
    dsimp only
    split
    · exact .of_drive rfl rfl _ (.inl rfl)
    · next hresult => exact .of_drive rfl rfl _ (.inr ⟨rfl, by rw [hresult]; rintro ⟨⟩⟩)
    · next hresult => exact .of_drive rfl rfl _ (.inr ⟨rfl, by rw [hresult]; rintro ⟨⟩⟩)
  · unfold evaluate
    dsimp only
    split
    · exact .of_drive rfl rfl _ (.inl rfl)
    · exact .of_drive rfl rfl _ (.inl rfl)
    · next hresult => exact .of_drive rfl rfl _ (.inr ⟨rfl, by rw [hresult]; rintro ⟨⟩⟩)

end Context

/-- A frame with a caller, which would kill. The body calls a command, and this calls another. -/
def Frame.driving : Frame where
  number := 5
  procedure := .command "drive" [.call (.command "walk" [.call (.command "rest" []), .leave])]
  parent := some ⟨4, .command "graze" [.die], none, 0⟩
  returnAddress := 0

/-- Two calls are opened and closed, one by a return and one at the end of a body, and then the run
is over, with the caller of its frame never in sight. -/
theorem Context.call_discipline_driving :
    Frame.driving.Numbered 6 ∧ ∃ course : Course Unit,
      course = ((new default none Kind.turtle.mask).reset ⟨1, 0⟩ .driving 0).run
          ⟨World.empty, .ofSeed 0, 6⟩
        ∧ course.steps.toList.map (fun record => record.before.calls) = [0, 1, 2, 1, 0]
        ∧ course.context.finished = true
        ∧ ∀ record ∈ course.steps, ∃ frame, record.before.frame = some frame
          ∧ frame.ancestor? record.before.calls = some .driving ∧ frame.number ≠ 4 := by
  have hnumbered : Frame.driving.Numbered 6 := .called (by decide) (.root (by decide))
  obtain ⟨hmem, hdiscipline, -, -⟩ := (call_discipline (new default none Kind.turtle.mask)
    ⟨World.empty, .ofSeed 0, 6⟩ .driving).1 ⟨1, 0⟩ 0
  refine ⟨hnumbered, _, rfl, by decide +kernel, by decide +kernel, fun record hrecord => ?_⟩
  obtain ⟨b, hreaches, rfl⟩ := (hmem record).mp hrecord
  obtain ⟨frame, hframe, h⟩ := hdiscipline b hreaches
  exact ⟨frame, hframe, h.ancestor?_eq, (h.ne_caller 1 _ Nat.one_pos rfl).2 hnumbered⟩

end AgentSweep
