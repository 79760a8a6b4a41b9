import AgentSweep.Proofs.Machine.Changes
import AgentSweep.Proofs.Machine.Reports
import AgentSweep.Proofs.World.Lifetimes

/-!
# Faults in running code

A run goes on only as long as its agent lives: whatever kills the current agent ends the run with
the same step, through all open calls (`Context.Lives.of_reaches`). Of the faults that a step can
raise, those of a missing frame and of a missing or dead agent are therefore never seen in a run
that a living agent has begun. What is left lies in the code (`Fault.OfCode`).

A step that is refused while the current agent lives has changed nothing (`Context.step_of_error`),
although the value of an assignment may be a random one and is computed first. A run that fails does
so with its last step (`Context.exists_failsWith_of_run`), and leaves behind the state in which this
step was taken.
-/

namespace AgentSweep

/-- **The faults that lie in the code**, in the tag under which it runs, or in the address at which
it begins. -/
inductive Fault.OfCode : Fault → Prop where
  | raised (message : String) : OfCode (.raised message)
  | notOwned (agent name : String) : OfCode (.notOwned agent name)
  | wrongKind (primitive : String) (tag : KindMask) : OfCode (.wrongKind primitive tag)
  | invalidAddress (procedure : String) (address : Nat) : OfCode (.invalidAddress procedure address)
  | reportOutsideReporter : OfCode .reportOutsideReporter
  | reporterAsCommand (procedure : String) : OfCode (.reporterAsCommand procedure)

namespace Context

variable {c : Context} {s : Scene} {id : AgentId} {agent : Agent} {fault : Fault}

/-! ## Who runs is alive -/

/-- **The current agent is alive.** -/
def Lives (c : Context) (w : World) : Prop := ∃ id, c.agent = some id ∧ w.isAlive id = true

theorem agentTitle_of_get? {w : World} (hagent : c.agent = some id)
    (hget : w.get? id = some agent) : c.agentTitle w = agent.title := by
  simp only [agentTitle, World.title, hagent, hget]

/-- An instruction that kills the current agent ends its run, and changes nothing else. -/
theorem perform_of_kill_mem (hagent : c.agent = some id) {p : Procedure} {i : Instruction}
    (h : Change.kill id ∈ i.changes c s) :
    (c.perform s p i).1 = .ok .over ∧ i.changes c s = [.kill id] := by
  cases i with
  | noop | call | leave | done | report | fail => cases h
  | print | set | hatch =>
    simp only [Instruction.changes] at h
    repeat' split at h
    all_goals simp at h
  | die =>
    rw [perform, Instruction.changes, hagent]
    exact ⟨rfl, rfl⟩
  | killWho who =>
    rw [Instruction.changes, List.mem_map] at h
    obtain ⟨target, htarget, heq⟩ := h
    cases heq
    rw [perform, Instruction.changes, Option.mem_toList.mp htarget]
    exact ⟨congrArg Except.ok (if_pos hagent), rfl⟩

/-- **A step that kills the current agent ends its run**, and changes nothing else. -/
theorem step_of_kill_mem (hagent : c.agent = some id) (h : Change.kill id ∈ c.changes s) :
    (c.step s).outcome = .ok .over ∧ c.changes s = [.kill id] := by
  cases hi : (c.step s).instruction with
  | none =>
    rw [changes, hi] at h
    cases h
  | some i =>
    obtain ⟨frame, -, -, hstep⟩ := step_of_instruction hi
    rw [changes, hi] at h ⊢
    rw [hstep]
    exact perform_of_kill_mem hagent h

/-- **A step that does not kill the current agent changes it in its variables at most.** -/
theorem same_step (hget : s.world.get? id = some agent) (h : Change.kill id ∉ c.changes s) :
    ∃ now, (c.step s).scene.world.get? id = some now ∧ now.SameAs agent := by
  rw [world_step]
  exact World.same_after_of_spares hget (World.spares_of_notMem h)

theorem Next.same {a b : Context × Scene} (hnext : Next a b) (hagent : a.1.agent = some id)
    (hget : a.2.world.get? id = some agent) :
    ∃ now, b.2.world.get? id = some now ∧ now.SameAs agent := by
  obtain ⟨hmore, rfl⟩ := hnext
  refine same_step hget fun hkill => ?_
  cases hmore.symm.trans (step_of_kill_mem hagent hkill).1

/-- **Whoever is run stays who it is** in every state of its run. -/
theorem Reaches.same {a b : Context × Scene} (hab : Reaches a b) (hagent : a.1.agent = some id)
    (hget : a.2.world.get? id = some agent) :
    ∃ now, b.2.world.get? id = some now ∧ now.SameAs agent := by
  induction hab with
  | refl => exact ⟨agent, hget, .refl agent⟩
  | tail hab hnext ih =>
    obtain ⟨between, hbetween, hsame⟩ := ih
    obtain ⟨now, hnow, hlater⟩ := hnext.same ((Reaches.sameRun hab).agent_eq.trans hagent) hbetween
    exact ⟨now, hnow, hlater.trans hsame⟩

/-- **Whoever is alive when its run begins is alive in every state of the run**, so that no step is
ever taken for a dead agent. -/
theorem Lives.of_reaches {a b : Context × Scene} (h : a.1.Lives a.2.world) (hab : Reaches a b) :
    b.1.Lives b.2.world := by
  obtain ⟨id, hagent, halive⟩ := h
  obtain ⟨agent, hget⟩ := World.isAlive_iff.mp halive
  obtain ⟨now, hnow, -⟩ := hab.same hagent hget
  exact ⟨id, hab.sameRun.agent_eq.trans hagent, World.isAlive_iff.mpr ⟨now, hnow⟩⟩

/-! ## What is refused changes nothing -/

/-- An expression without a value has not drawn a random number. -/
theorem eval_of_error (h : c.Lives s.world) {e : Expr} {random : Random}
    (heval : e.eval c s = (.error fault, random)) : random = s.random ∧ fault.OfCode := by
  obtain ⟨id, hagent, halive⟩ := h
  obtain ⟨agent, hget⟩ := World.isAlive_iff.mp halive
  cases e with
  | constant | count => cases heval
  | who =>
    rw [Expr.eval, Expr.ofAgent_of_get? hagent hget] at heval
    cases heval
  | random bound =>
    rw [Expr.eval] at heval
    split at heval <;> cases heval
  | own name =>
    rw [Expr.eval, Expr.ofAgent_of_get? hagent hget] at heval
    split at heval <;> cases heval
    exact ⟨rfl, .notOwned _ _⟩

/-- **An instruction that is refused changes nothing.** -/
theorem perform_of_error (h : c.Lives s.world) {p : Procedure} {i : Instruction}
    (hperform : (c.perform s p i).1 = .error fault) :
    c.perform s p i = (.error fault, c, s) ∧ fault.OfCode := by
  obtain ⟨id, hagent, halive⟩ := id h
  cases i with
  | noop | leave | done => cases hperform
  | print e =>
    rw [perform] at hperform ⊢
    split at hperform
    · cases hperform
    · next heval =>
      obtain ⟨rfl, hcode⟩ := eval_of_error h heval
      cases hperform
      exact ⟨rfl, hcode⟩
  | set name e =>
    rw [perform] at hperform ⊢
    split at hperform
    · -- the value may be a random one, but then there is an agent to take it
      rw [hagent] at hperform
      dsimp only at hperform
      rw [if_pos halive] at hperform
      cases hperform
    · next heval =>
      obtain ⟨rfl, hcode⟩ := eval_of_error h heval
      cases hperform
      exact ⟨rfl, hcode⟩
  | hatch breed =>
    obtain ⟨agent, hget⟩ := World.isAlive_iff.mp halive
    rw [perform, Expr.ofAgent_of_get? hagent hget] at hperform ⊢
    split at hperform
    · cases hperform
    · next htag =>
      cases hperform
      rw [if_neg htag]
      exact ⟨rfl, .wrongKind _ _⟩
  | die =>
    rw [perform, hagent] at hperform
    cases hperform
  | killWho who =>
    rw [perform] at hperform
    split at hperform <;> cases hperform
  | call callee =>
    rw [perform] at hperform ⊢
    split at hperform <;> cases hperform
    exact ⟨rfl, .reporterAsCommand _⟩
  | report e =>
    rw [perform] at hperform ⊢
    split at hperform
    · split at hperform
      · cases hperform
      · next heval =>
        obtain ⟨rfl, hcode⟩ := eval_of_error h heval
        cases hperform
        exact ⟨rfl, hcode⟩
    · cases hperform
      exact ⟨rfl, .reportOutsideReporter⟩
  | fail message =>
    cases hperform
    exact ⟨rfl, .raised message⟩

/-- **A step that is refused changes nothing**, neither the context nor anything that code can
touch, as long as the current agent lives. -/
theorem step_of_error (h : c.Lives s.world) (hstep : (c.step s).outcome = .error fault) :
    (c.step s).context = c ∧ (c.step s).scene = s ∧ (c.frame.isSome → fault.OfCode) := by
  cases hframe : c.frame with
  | none =>
    rw [step, hframe]
    exact ⟨rfl, rfl, fun h => Bool.noConfusion h⟩
  | some frame =>
    by_cases htag : c.tag.intersects frame.procedure.usableBy = true
    · rcases Nat.lt_trichotomy c.ip frame.procedure.size with hlt | heq | hgt
      · rw [step_of_getElem? hframe htag (List.getElem?_eq_getElem hlt)] at hstep ⊢
        obtain ⟨hperform, hcode⟩ := perform_of_error h hstep
        rw [hperform]
        exact ⟨rfl, rfl, fun _ => hcode⟩
      · rw [step_of_eq_size hframe htag heq] at hstep
        cases hstep
      · rw [step_of_size_lt hframe htag hgt] at hstep ⊢
        cases hstep
        exact ⟨rfl, rfl, fun _ => .invalidAddress _ _⟩
    · rw [step_of_not_intersects hframe htag] at hstep ⊢
      cases hstep
      exact ⟨rfl, rfl, fun _ => .wrongKind _ _⟩

/-- A step that reports a value changes nothing, but for a random number that it may have drawn. -/
theorem step_of_reported {value : Value} (hstep : (c.step s).outcome = .ok (.reported value)) :
    (c.step s).context = c ∧ (c.step s).scene.world = s.world := by
  cases hframe : c.frame with
  | none =>
    rw [step, hframe] at hstep
    cases hstep
  | some frame =>
    obtain ⟨e, hi, hrole, -⟩ := (step_eq_reported_iff hframe).mp hstep
    obtain ⟨current, hcurrent, -, heq⟩ := step_of_instruction hi
    cases hframe.symm.trans hcurrent
    rw [heq, perform, hrole]
    dsimp only
    split <;> exact ⟨rfl, rfl⟩

/-! ## How a run fails -/

variable {a b start : Context × Scene} {frame : Frame}

/-- **A run fails with the step taken in a state**: the step is refused, or it reports a value, for
which nobody has asked. -/
def FailsWith (b : Context × Scene) (fault : Fault) : Prop :=
  (b.1.step b.2).outcome = .error fault
    ∨ fault = .reportOutsideReporter ∧ ∃ value, (b.1.step b.2).outcome = .ok (.reported value)

theorem FailsWith.eq_of_error (h : FailsWith b fault) {cause : Fault}
    (hstep : (b.1.step b.2).outcome = .error cause) : fault = cause := by
  rcases h with herror | ⟨-, value, hreported⟩
  · cases herror.symm.trans hstep
    rfl
  · cases hreported.symm.trans hstep

/-- In a body that the tag may not run, no step can fail in any other way. -/
theorem FailsWith.of_refused (h : FailsWith b fault) (hframe : b.1.frame = some frame)
    (hrefused : b.1.tag.intersects frame.procedure.usableBy = false) :
    fault = .wrongKind frame.procedure.name b.1.tag :=
  h.eq_of_error
    (congrArg Step.outcome (step_of_not_intersects hframe (Bool.eq_false_iff.mp hrefused)))

/-- The step with which a run fails has done nothing to the context and to the world. -/
theorem FailsWith.step_eq (h : FailsWith b fault) (hlives : b.1.Lives b.2.world) :
    (b.1.step b.2).context = b.1 ∧ (b.1.step b.2).scene.world = b.2.world
      ∧ (b.1.frame.isSome → fault.OfCode) := by
  rcases h with herror | ⟨rfl, value, hreported⟩
  · obtain ⟨hcontext, hscene, hcode⟩ := step_of_error hlives herror
    exact ⟨hcontext, congrArg Scene.world hscene, hcode⟩
  · obtain ⟨hcontext, hworld⟩ := step_of_reported hreported
    exact ⟨hcontext, hworld, fun _ => .reportOutsideReporter⟩

/-- A run that comes to a failing step ends there. -/
theorem Reaches.run_of_failsWith (h : Reaches (c, s) b) (hfinished : c.finished = false)
    (hfails : FailsWith b fault) :
    (c.run s).result = .error fault ∧ (c.run s).context = (b.1.step b.2).context
      ∧ (c.run s).scene = (b.1.step b.2).scene := by
  obtain ⟨taken, htaken⟩ := h.exists_drive_eq #[]
  rw [run, if_neg (Bool.eq_false_iff.mp hfinished), htaken]
  rcases hfails with herror | ⟨rfl, value, hreported⟩
  · rw [drive_eq, herror]
    exact ⟨rfl, rfl, rfl⟩
  · rw [drive_eq, hreported]
    exact ⟨rfl, rfl, rfl⟩

/-- **A run that fails does so with its last step.** -/
theorem exists_failsWith_of_run (hfinished : c.finished = false)
    (h : (c.run s).result = .error fault) :
    ∃ before last, c.trail s = before ++ [last] ∧ FailsWith last fault := by
  obtain ⟨before, last, htrail, hlast⟩ := exists_trail_eq_concat c s
  have hreaches : Reaches (c, s) last :=
    mem_trail_iff.mp (htrail ▸ List.mem_append_right before (List.mem_singleton_self last))
  have hfailed {cause : Fault} (hfails : FailsWith last cause) : FailsWith last fault := by
    obtain ⟨hresult, -, -⟩ := hreaches.run_of_failsWith hfinished hfails
    cases hresult.symm.trans h
    exact hfails
  refine ⟨before, last, htrail, ?_⟩
  cases houtcome : (last.1.step last.2).outcome with
  | error cause => exact hfailed (.inl houtcome)
  | ok outcome =>
    rcases outcome with _ | _ | value
    · exact absurd houtcome hlast
    · have hover := hreaches.result_drive_of_over houtcome #[]
      rw [run, if_neg (Bool.eq_false_iff.mp hfinished)] at h
      dsimp only at h
      rw [hover] at h
      cases h
    · exact hfailed (.inr ⟨rfl, value, houtcome⟩)

/-- The world of a state is what the steps before it have made of the first one. -/
theorem world_of_trail {before later : List (Context × Scene)}
    (h : c.trail s = before ++ b :: later) :
    b.2.world = s.world.after (before.flatMap fun a => a.1.changes a.2) := by
  induction before generalizing c s with
  | nil =>
    rw [trail] at h
    rw [← (List.cons.inj h).1]
    rfl
  | cons first before ih =>
    by_cases hmore : (c.step s).outcome = .ok .more
    · rw [trail_of_more hmore] at h
      obtain ⟨rfl, hrest⟩ := List.cons.inj h
      rw [ih hrest, List.flatMap_cons, World.after_append, world_step]
    · rw [trail_of_last hmore] at h
      simp at h

/-! ## Bodies that the tag may not run -/

/-- A step after which there is more to do is taken in a body that the tag may run. -/
theorem Next.intersects (h : Next a b) (hframe : a.1.frame = some frame) :
    a.1.tag.intersects frame.procedure.usableBy = true := by
  refine Decidable.byContradiction fun htag => ?_
  have hmore := h.1
  rw [step_of_not_intersects hframe htag] at hmore
  cases hmore

/-- **A body that the tag may not run is met at its first address**, right after the call of it,
unless the run begins in it. -/
theorem Next.call_of_refused (hnext : Next a b) (hcalls : start.1.calls = 0)
    (hstart : Reaches start a) (hframe : b.1.frame = some frame)
    (hrefused : b.1.tag.intersects frame.procedure.usableBy = false) :
    (a.1.step a.2).instruction = some (.call frame.procedure) ∧ b.1.ip = 0 := by
  have hrunnable {m next : Context × Scene} (hm : Reaches m b) (hnext : Next m next) :
      m.1.frame ≠ some frame := by
    intro hframe
    have htag := hnext.intersects hframe
    rw [← hm.sameRun.tag_eq, hrefused] at htag
    cases htag
  obtain ⟨current, hcurrent, hcases⟩ := hnext.frame_cases
  rcases hcases with ⟨hstays, -, -⟩ | ⟨g, hg, -, -, hmakes, -, -⟩ | ⟨hback, hopen, -⟩
  · cases hstays.symm.trans hframe
    exact absurd hcurrent (hrunnable (.single hnext) hnext)
  · cases hg.symm.trans hframe
    refine ⟨congrArg Step.instruction hmakes.2, ?_⟩
    rw [hnext.2, hmakes.2]
    rfl
  · -- the frame to which the run comes back has made the call from which it comes
    obtain ⟨m, -, hma, hmade, -⟩ :=
      exists_makes hcalls hstart hcurrent (k := 0) (hopen ▸ Nat.succ_pos _) rfl
    have hcaller : m.1.frame = some frame := by
      rw [hmade.1] at hback
      exact hback.symm.trans hframe
    exact absurd hcaller
      (hrunnable (hma.tail hnext) ⟨congrArg Step.outcome hmade.2, rfl⟩)

/-- If a run ends in a body that the tag may not run, then it has just called it, unless it begins
there. -/
theorem caller_of_refused {before : List (Context × Scene)} (hcalls : c.calls = 0)
    (htrail : c.trail s = before ++ [b]) (hframe : b.1.frame = some frame)
    (hrefused : c.tag.intersects frame.procedure.usableBy = false) :
    b = (c, s) ∨ ∃ earlier caller, before = earlier ++ [caller]
      ∧ (caller.1.step caller.2).instruction = some (.call frame.procedure) ∧ b.1.ip = 0 := by
  have hreaches {d : Context × Scene} (hd : d ∈ before ++ [b]) : Reaches (c, s) d :=
    mem_trail_iff.mp (htrail ▸ hd)
  rcases List.eq_nil_or_concat' before with rfl | ⟨earlier, caller, rfl⟩
  · rw [trail] at htrail
    exact .inl (List.cons.inj htrail).1.symm
  · have hchain := htrail ▸ isChain_trail c s
    have hnext : Next caller b :=
      (List.isChain_append.mp hchain).2.2 caller (by simp) b rfl
    rw [← (hreaches (List.mem_append_right _ (List.mem_singleton_self b))).sameRun.tag_eq]
      at hrefused
    exact .inr ⟨earlier, caller, rfl,
      hnext.call_of_refused hcalls (hreaches (by simp)) hframe hrefused⟩

/-- **The call of a command that the tag may not run fails with the next step**, at the first
address of the command. -/
theorem exists_failsWith_of_call {callee : Procedure}
    (hcall : (b.1.step b.2).instruction = some (.call callee)) (hrole : callee.role = .command)
    (hrefused : b.1.tag.intersects callee.usableBy = false) :
    ∃ d, Next b d ∧ FailsWith d (.wrongKind callee.name b.1.tag)
      ∧ d.1.procedureName = callee.name ∧ d.1.ip = 0 := by
  cases hframe : b.1.frame with
  | none =>
    rw [step, hframe] at hcall
    cases hcall
  | some frame =>
    rcases step_cases hframe b.2 with ⟨fault, hstep⟩ | ⟨i, -, hstep⟩ | ⟨-, hstep⟩
    · rw [hstep] at hcall
      cases hcall
    · rw [hstep] at hcall
      cases hcall
      rw [perform, hrole] at hstep
      refine ⟨_, ⟨congrArg Step.outcome hstep, rfl⟩, .inl ?_, ?_, ?_⟩
      · rw [hstep, step_of_not_intersects rfl (Bool.eq_false_iff.mp hrefused)]
        rfl
      · rw [hstep]
        rfl
      · rw [hstep]
        rfl
    · rw [hstep] at hcall
      cases hcall

end Context

end AgentSweep
