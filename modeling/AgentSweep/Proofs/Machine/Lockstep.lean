import AgentSweep.Proofs.Machine.CallStack
import AgentSweep.Proofs.Machine.Changes
import AgentSweep.Proofs.World.View

/-!
# Twins run in step

Let two worlds look the same, and let the same code be run for an agent in one and for its twin in
the other. If neither the code nor the variables hold an id, there is nothing by which the two runs
could tell where they are. They take the same steps with the same outcomes, and after each step the
worlds look the same and the agents are twins again, unless the step has ended their runs
(`Context.lockstep_step`, `Context.lockstep_run`).

Callers of the frame in which the runs begin may hold what they like. No run comes back to them.
-/

namespace AgentSweep

/-! ## Anonymous code -/

/-- Whether an expression holds no id. -/
def Expr.anonymous : Expr → Bool
  | .constant value => value.anonymous
  | .count set => set.anonymous
  | _ => true

mutual

/-- **Whether a procedure holds no id**, in whatever it calls included. -/
def Procedure.anonymous : Procedure → Bool
  | ⟨_, _, _, code⟩ => Instruction.anonymousAll code

/-- Whether an instruction holds no id. -/
def Instruction.anonymous : Instruction → Bool
  | .print e => e.anonymous
  | .set _ e => e.anonymous
  | .report e => e.anonymous
  | .call callee => callee.anonymous
  | _ => true

/-- Whether no instruction of a body holds an id. -/
def Instruction.anonymousAll : List Instruction → Bool
  | [] => true
  | i :: is => i.anonymous && Instruction.anonymousAll is

end

theorem Instruction.anonymous_of_mem {i : Instruction} {code : List Instruction}
    (h : anonymousAll code = true) (hmem : i ∈ code) : i.anonymous = true := by
  induction code with
  | nil => cases hmem
  | cons first rest ih =>
    obtain ⟨hfirst, hrest⟩ := Bool.and_eq_true_iff.mp h
    rcases List.mem_cons.mp hmem with rfl | hlater
    · exact hfirst
    · exact ih hrest hlater

theorem Procedure.anonymous_of_getElem? {p : Procedure} {address : Nat} {i : Instruction}
    (h : p.anonymous = true) (hi : p.code[address]? = some i) : i.anonymous = true := by
  cases p
  exact Instruction.anonymous_of_mem h (List.mem_of_getElem? hi)

/-- Whatever is called from an anonymous procedure is anonymous. -/
theorem Frame.Above.anonymous {entry frame : Frame} {calls : Nat} (h : entry.Above calls frame)
    (hentry : entry.procedure.anonymous = true) : frame.procedure.anonymous = true := by
  induction h with
  | entry => exact hentry
  | call _ code _ ih => exact Procedure.anonymous_of_getElem? ih code

/-! ## Values in worlds that look the same -/

theorem AgentSet.count_eq_of_alike {w v : World} (h : w.Alike v) {set : AgentSet}
    (hset : set.anonymous = true) : set.count w = set.count v := by
  cases set with
  | breed kind name => exact h.length_members_eq name
  | fixed => cases hset

namespace Value

variable {w v : World}

mutual

/-- **An anonymous value is shown alike in worlds that look the same.** -/
theorem render_eq_of_alike (h : w.Alike v) :
    ∀ value : Value, value.anonymous = true → value.render w = value.render v
  | nobody, _ => rfl
  | number _, _ => rfl
  | boolean _, _ => rfl
  | text _, _ => rfl
  | agentset set, hset => by rw [render, render, AgentSet.count_eq_of_alike h hset]
  | list items, hitems => by rw [render, render, renderAll_eq_of_alike h items hitems]

theorem renderAll_eq_of_alike (h : w.Alike v) :
    ∀ items : List Value, anonymousAll items = true → renderAll w items = renderAll v items
  | [], _ => rfl
  | item :: items, hall => by
    obtain ⟨hitem, hitems⟩ := Bool.and_eq_true_iff.mp hall
    rw [renderAll, renderAll, render_eq_of_alike h item hitem, renderAll_eq_of_alike h items hitems]

end

end Value

/-! ## States that look the same -/

/-- **Two scenes differ at most in where their agents are**, and in the numbers that frames will
get. -/
structure Scene.Alike (s t : Scene) : Prop where
  world : s.world.Alike t.world
  random_eq : s.random = t.random

/-- **Two frames are the same to a run** that has so many calls open: they run the same procedure,
and the calls go back to the same places. Nothing is said of their numbers, nor of the callers of
the frame in which the run began. -/
def Frame.Like : Nat → Frame → Frame → Prop
  | 0, f, g => f.procedure = g.procedure
  | calls + 1, f, g => f.procedure = g.procedure ∧ f.returnAddress = g.returnAddress
    ∧ ∃ caller other, f.parent = some caller ∧ g.parent = some other ∧ caller.Like calls other

theorem Frame.Like.procedure_eq {calls : Nat} {f g : Frame} (h : f.Like calls g) :
    f.procedure = g.procedure := by
  cases calls with
  | zero => exact h
  | succ calls => exact h.1

namespace Context

/-- **Two contexts differ in their agents only**, as far as a run can tell. -/
structure Alike (c d : Context) (a b : AgentId) : Prop where
  agents : c.agent = some a ∧ d.agent = some b
  owner_eq : c.owner = d.owner
  ip_eq : c.ip = d.ip
  finished_eq : c.finished = d.finished
  calls_eq : c.calls = d.calls
  tag_eq : c.tag = d.tag
  frames : ∃ f g, c.frame = some f ∧ d.frame = some g ∧ f.Like c.calls g

variable {c d : Context} {a b : AgentId}

namespace Alike

theorem goto (h : c.Alike d a b) (address : Nat) : (c.goto address).Alike (d.goto address) a b :=
  { h with ip_eq := rfl }

theorem finish (h : c.Alike d a b) : c.finish.Alike d.finish a b := { h with finished_eq := rfl }

theorem push (h : c.Alike d a b) (number other : Nat) (callee : Procedure) (address : Nat) :
    (c.push number callee address).Alike (d.push other callee address) a b := by
  obtain ⟨f, g, hf, hg, hlike⟩ := h.frames
  refine { h with ip_eq := rfl, calls_eq := congrArg (· + 1) h.calls_eq, frames := ?_ }
  exact ⟨_, _, rfl, rfl, rfl, rfl, f, g, hf, hg, hlike⟩

/-- To leave a body goes back to callers that are the same to the run, or nowhere. -/
theorem leave (h : c.Alike d a b) : c.leave.1 = d.leave.1 ∧ c.leave.2.Alike d.leave.2 a b := by
  obtain ⟨f, g, hf, hg, hlike⟩ := h.frames
  cases hcalls : c.calls with
  | zero =>
    have hpop := pop?_of_calls_eq_zero hcalls
    have hpop' := pop?_of_calls_eq_zero (h.calls_eq.symm.trans hcalls)
    rw [Context.leave, Context.leave, hpop, hpop']
    exact ⟨rfl, h⟩
  | succ calls =>
    rw [hcalls] at hlike
    obtain ⟨-, hreturn, caller, other, hcaller, hother, hcallers⟩ := hlike
    have hpop := pop?_of_calls_eq_succ hf hcalls
    have hpop' := pop?_of_calls_eq_succ hg (h.calls_eq.symm.trans hcalls)
    rw [Context.leave, Context.leave, hpop, hpop']
    exact ⟨rfl, { h with
      ip_eq := hreturn, calls_eq := rfl, frames := ⟨caller, other, hcaller, hother, hcallers⟩ }⟩

end Alike

end Context

variable {c d : Context} {s t : Scene} {a b : AgentId}

namespace Expr

/-- **An anonymous expression has the same value for twins**, and takes the same draws. -/
theorem eval_eq_of_twins (hagents : c.agent = some a ∧ d.agent = some b) (h : s.Alike t)
    (htwins : s.world.Twins t.world a b) {e : Expr} (he : e.anonymous = true) :
    e.eval c s = e.eval d t := by
  obtain ⟨first, second, hfirst, hsecond, hview⟩ := htwins
  cases e with
  | constant value => simp only [eval, h.random_eq]
  | own name =>
    have hvars : first.vars.get? name = second.vars.get? name :=
      congrFun (congrArg AgentView.vars hview) name
    rw [eval, eval, ofAgent_of_get? hagents.1 hfirst, ofAgent_of_get? hagents.2 hsecond, hvars,
      Agent.title_eq_of_view hview, h.random_eq]
  | who =>
    rw [eval, eval, ofAgent_of_get? hagents.1 hfirst, ofAgent_of_get? hagents.2 hsecond,
      show first.who = second.who from congrArg AgentView.who hview, h.random_eq]
  | random bound => simp only [eval, h.random_eq]
  | count set => simp only [eval, h.random_eq, AgentSet.count_eq_of_alike h.world he]

/-- The value of an anonymous expression holds no id. -/
theorem anonymous_of_eval (hagent : c.agent = some a) (h : s.Alike t) {agent : Agent}
    (hget : s.world.get? a = some agent) {e : Expr} (he : e.anonymous = true) {value : Value}
    (hvalue : (e.eval c s).1 = .ok value) : value.anonymous = true := by
  cases e with
  | constant => cases hvalue; exact he
  | own name =>
    rw [eval, ofAgent_of_get? hagent hget] at hvalue
    cases hvar : agent.vars.get? name with
    | none => rw [hvar] at hvalue; cases hvalue
    | some held =>
      rw [hvar] at hvalue
      cases hvalue
      exact h.world.anonymous_of_get? hget hvar
  | who =>
    rw [eval, ofAgent_of_get? hagent hget] at hvalue
    cases hvalue
    rfl
  | random bound =>
    rw [eval] at hvalue
    split at hvalue <;> (cases hvalue; rfl)
  | count => cases hvalue; rfl

/-- **To compute an anonymous expression for twins** is to fail in the same way, or to get the same
anonymous value. -/
theorem eval_cases (hagents : c.agent = some a ∧ d.agent = some b) (h : s.Alike t)
    (htwins : s.world.Twins t.world a b) {e : Expr} (he : e.anonymous = true) :
    (∃ fault random, e.eval c s = (.error fault, random) ∧ e.eval d t = (.error fault, random))
      ∨ ∃ value random, value.anonymous = true ∧ e.eval c s = (.ok value, random)
        ∧ e.eval d t = (.ok value, random) := by
  rw [← eval_eq_of_twins hagents h htwins he]
  obtain ⟨first, -, hfirst, -, -⟩ := htwins
  cases heval : e.eval c s with
  | mk result random =>
    cases result with
    | error fault => exact .inl ⟨fault, random, rfl, rfl⟩
    | ok value =>
      have hvalue := anonymous_of_eval hagents.1 h hfirst he (congrArg Prod.fst heval)
      exact .inr ⟨value, random, hvalue, rfl, rfl⟩

end Expr

namespace Context

/-! ## One step -/

/-- **Two steps go alike**: twins run the same instruction to the same outcome. They are twins again
unless their runs are over. -/
structure StepsAlike (a b : AgentId) (first second : Step) : Prop where
  instruction_eq : first.instruction = second.instruction
  outcome_eq : first.outcome = second.outcome
  context : first.context.Alike second.context a b
  scene : first.scene.Alike second.scene
  twins : first.outcome ≠ .ok .over → first.scene.world.Twins second.scene.world a b

theorem perform_set {agent : Agent} (hagent : c.agent = some a)
    (hget : s.world.get? a = some agent) (p : Procedure) {name : String} {e : Expr}
    {value : Value} {random : Random} (heval : e.eval c s = (.ok value, random)) :
    c.perform s p (.set name e)
      = (.ok .more, c.goto (c.ip + 1),
        { s with world := s.world.write a fun vars => vars.insert name value, random }) := by
  rw [perform, heval, hagent]
  exact if_pos (World.isAlive_iff.mpr ⟨agent, hget⟩)

theorem perform_hatch {agent : Agent} (hagent : c.agent = some a)
    (hget : s.world.get? a = some agent) (p : Procedure) (breed : String) :
    c.perform s p (.hatch breed)
      = if c.tag.intersects Kind.turtle.mask then
          (.ok .more, c.goto (c.ip + 1),
            { s with
              world := (s.world.create .turtle breed).2.write (s.world.create .turtle breed).1
                fun _ => agent.vars })
        else (.error (.wrongKind "hatch" c.tag), c, s) := by
  rw [perform, Expr.ofAgent_of_get? hagent hget]
  rfl

theorem perform_killWho {who : Nat} {target : AgentId} (hagent : c.agent = some a)
    (hfind : s.world.findByWho who = some target) (p : Procedure) :
    c.perform s p (.killWho who)
      = (.ok (if a = target then .over else .more), c.goto (c.ip + 1),
        { s with world := s.world.kill target }) := by
  rw [perform, hfind, hagent]
  simp only [Option.some.injEq]

/-- The step that performs an instruction. -/
def performed (c : Context) (s : Scene) (p : Procedure) (i : Instruction) : Step :=
  ⟨some i, (c.perform s p i).1, (c.perform s p i).2.1, (c.perform s p i).2.2⟩

/-- **Twins perform an anonymous instruction alike.** -/
theorem lockstep_perform (hcd : c.Alike d a b) (h : s.Alike t)
    (htwins : s.world.Twins t.world a b) (p : Procedure) {i : Instruction}
    (hi : i.anonymous = true) : StepsAlike a b (c.performed s p i) (d.performed t p i) := by
  obtain ⟨first, second, hfirst, hsecond, hview⟩ := id htwins
  have hnext : (c.goto (c.ip + 1)).Alike (d.goto (d.ip + 1)) a b := hcd.ip_eq ▸ hcd.goto (c.ip + 1)
  cases i with
  | noop => exact ⟨rfl, rfl, hnext, h, fun _ => htwins⟩
  | print e =>
    simp only [performed, perform]
    rcases Expr.eval_cases hcd.agents h htwins hi with
      ⟨fault, random, hs, ht⟩ | ⟨value, random, hvalue, hs, ht⟩
    · rw [hs, ht]
      exact ⟨rfl, rfl, hcd, ⟨h.world, rfl⟩, fun _ => htwins⟩
    · rw [hs, ht]
      dsimp only
      rw [Value.render_eq_of_alike h.world value hvalue]
      have hworld := h.world.print (value.render t.world)
      exact ⟨rfl, rfl, hnext, ⟨hworld, rfl⟩,
        fun _ => htwins.apply (.print _) (.print _) hworld (by simp) (by simp)⟩
  | set name e =>
    rw [performed, performed]
    rcases Expr.eval_cases hcd.agents h htwins hi with
      ⟨fault, random, hs, ht⟩ | ⟨value, random, hvalue, hs, ht⟩
    · simp only [perform, hs, ht]
      exact ⟨rfl, rfl, hcd, ⟨h.world, rfl⟩, fun _ => htwins⟩
    · rw [perform_set hcd.agents.1 hfirst p hs, perform_set hcd.agents.2 hsecond p ht]
      have hworld := h.world.insert htwins name hvalue
      exact ⟨rfl, rfl, hnext, ⟨hworld, rfl⟩,
        fun _ => htwins.apply (.write _ _) (.write _ _) hworld (by simp) (by simp)⟩
  | hatch breed =>
    rw [performed, performed, perform_hatch hcd.agents.1 hfirst, perform_hatch hcd.agents.2 hsecond,
      ← hcd.tag_eq]
    split
    · have hworld := h.world.hatch hfirst hview .turtle breed
      have hbetween := htwins.apply (.create .turtle breed) (.create .turtle breed)
        (h.world.create .turtle breed) (by simp) (by simp)
      exact ⟨rfl, rfl, hnext, ⟨hworld, h.random_eq⟩,
        fun _ => hbetween.apply (.write _ _) (.write _ _) hworld (by simp) (by simp)⟩
    · exact ⟨rfl, rfl, hcd, h, fun _ => htwins⟩
  | die =>
    simp only [performed, perform, hcd.agents.1, hcd.agents.2]
    exact ⟨rfl, rfl, hcd, ⟨h.world.kill htwins, h.random_eq⟩, fun hover => absurd rfl hover⟩
  | killWho who =>
    rcases h.world.findByWho_cases who with ⟨hs, ht⟩ | ⟨target, other, hs, ht, htargets⟩
    · simp only [performed, perform, hs, ht]
      exact ⟨rfl, rfl, hnext, h, fun _ => htwins⟩
    · rw [performed, performed, perform_killWho hcd.agents.1 hs, perform_killWho hcd.agents.2 ht]
      have hself := h.world.eq_iff_eq htwins htargets
      have hworld := h.world.kill htargets
      refine ⟨rfl, by simp only [hself], hnext, ⟨hworld, h.random_eq⟩, fun hmore => ?_⟩
      -- the run goes on, so that somebody else has been killed
      have hne : a ≠ target := fun heq => hmore (by rw [if_pos heq])
      exact htwins.apply (.kill target) (.kill other) hworld
        (fun heq => hne (Change.kill.inj heq).symm)
        (fun heq => hne (hself.mpr (Change.kill.inj heq).symm))
  | call callee =>
    simp only [performed, perform]
    cases callee.role with
    | command =>
      dsimp only
      rw [hcd.ip_eq]
      exact ⟨rfl, rfl, hcd.push .., ⟨h.world, h.random_eq⟩, fun _ => htwins⟩
    | reporter => exact ⟨rfl, rfl, hcd, h, fun _ => htwins⟩
  | leave =>
    obtain ⟨houtcome, hcontext⟩ := hcd.leave
    exact ⟨rfl, congrArg Except.ok houtcome, hcontext, h, fun _ => htwins⟩
  | done => exact ⟨rfl, rfl, hcd, h, fun _ => htwins⟩
  | report e =>
    simp only [performed, perform]
    cases p.role with
    | command => exact ⟨rfl, rfl, hcd, h, fun _ => htwins⟩
    | reporter =>
      rcases Expr.eval_cases hcd.agents h htwins hi with
        ⟨fault, random, hs, ht⟩ | ⟨value, random, -, hs, ht⟩
      · simp only [hs, ht]
        exact ⟨rfl, rfl, hcd, ⟨h.world, rfl⟩, fun _ => htwins⟩
      · simp only [hs, ht]
        exact ⟨rfl, rfl, hcd, ⟨h.world, rfl⟩, fun _ => htwins⟩
  | fail message => exact ⟨rfl, rfl, hcd, h, fun _ => htwins⟩

/-- **Alike contexts take their next steps in the same way**: the steps are refused, or they perform
the same instruction, or they leave the body at its end. -/
theorem Alike.step_cases (hcd : c.Alike d a b) (s t : Scene) :
    (∃ fault, c.step s = ⟨none, .error fault, c, s⟩ ∧ d.step t = ⟨none, .error fault, d, t⟩)
      ∨ (∃ frame i, c.frame = some frame ∧ frame.procedure.code[c.ip]? = some i
        ∧ c.step s = c.performed s frame.procedure i
        ∧ d.step t = d.performed t frame.procedure i)
      ∨ (c.step s = ⟨none, .ok c.leave.1, c.leave.2, s⟩
        ∧ d.step t = ⟨none, .ok d.leave.1, d.leave.2, t⟩) := by
  obtain ⟨f, g, hf, hg, hlike⟩ := hcd.frames
  have hprocedure := hlike.procedure_eq
  by_cases htag : c.tag.intersects f.procedure.usableBy = true
  · have htag' : d.tag.intersects g.procedure.usableBy = true := by
      rw [← hcd.tag_eq, ← hprocedure]
      exact htag
    rcases Nat.lt_trichotomy c.ip f.procedure.size with hlt | heq | hgt
    · obtain ⟨i, hi⟩ : ∃ i, f.procedure.code[c.ip]? = some i := ⟨_, List.getElem?_eq_getElem hlt⟩
      have hi' : g.procedure.code[d.ip]? = some i := by rw [← hprocedure, ← hcd.ip_eq, hi]
      exact .inr (.inl ⟨f, i, hf, hi, step_of_getElem? hf htag hi,
        hprocedure ▸ step_of_getElem? hg htag' hi'⟩)
    · exact .inr (.inr ⟨step_of_eq_size hf htag heq,
        step_of_eq_size hg htag' (by rw [← hcd.ip_eq, ← hprocedure, heq])⟩)
    · refine .inl ⟨_, step_of_size_lt hf htag hgt, ?_⟩
      rw [step_of_size_lt hg htag' (by rw [← hcd.ip_eq, ← hprocedure]; exact hgt), ← hprocedure,
        ← hcd.ip_eq]
  · have htag' : ¬ d.tag.intersects g.procedure.usableBy = true := by
      rw [← hcd.tag_eq, ← hprocedure]
      exact htag
    refine .inl ⟨_, step_of_not_intersects hf htag, ?_⟩
    rw [step_of_not_intersects hg htag', ← hprocedure, ← hcd.tag_eq]

/-- **Twins take their next steps alike** where the code is anonymous. -/
theorem lockstep_step (hcd : c.Alike d a b) (h : s.Alike t) (htwins : s.world.Twins t.world a b)
    (hcode : ∀ frame, c.frame = some frame → frame.procedure.anonymous = true) :
    StepsAlike a b (c.step s) (d.step t) := by
  rcases hcd.step_cases s t with ⟨fault, hs, ht⟩ | ⟨frame, i, hframe, hi, hs, ht⟩ | ⟨hs, ht⟩
  · rw [hs, ht]
    exact ⟨rfl, rfl, hcd, h, fun _ => htwins⟩
  · rw [hs, ht]
    exact lockstep_perform hcd h htwins _ (Procedure.anonymous_of_getElem? (hcode frame hframe) hi)
  · obtain ⟨houtcome, hcontext⟩ := hcd.leave
    rw [hs, ht]
    exact ⟨rfl, congrArg Except.ok houtcome, hcontext, h, fun _ => htwins⟩

/-! ## Whole runs -/

/-- **Two runs go alike.** -/
structure CoursesAlike {α : Type} (a b : AgentId) (first second : Course α) : Prop where
  result_eq : first.result = second.result
  context : first.context.Alike second.context a b
  scene : first.scene.Alike second.scene
  size_steps_eq : first.steps.size = second.steps.size

/-- **States in lockstep**: twins run in worlds that look the same, with calls that stand above a
frame with anonymous code. -/
structure Lockstep (entry : Frame) (a b : AgentId) (x y : Context × Scene) : Prop where
  stands : x.1.StandsOn entry
  context : x.1.Alike y.1 a b
  scene : x.2.Alike y.2
  twins : x.2.world.Twins y.2.world a b

theorem Lockstep.step {entry : Frame} (hentry : entry.procedure.anonymous = true)
    {x y : Context × Scene} (h : Lockstep entry a b x y) :
    StepsAlike a b (x.1.step x.2) (y.1.step y.2) := by
  obtain ⟨f, hf, habove⟩ := h.stands
  exact lockstep_step h.context h.scene h.twins fun g hg => by
    cases hf.symm.trans hg
    exact habove.anonymous hentry

/-- Twins that have more to do are in lockstep again after a step. -/
theorem inStep_lockstep {entry : Frame} (hentry : entry.procedure.anonymous = true)
    (a b : AgentId) : InStep (Lockstep entry a b) := by
  intro x y h
  have hstep := h.step hentry
  exact ⟨hstep.outcome_eq, fun hmore => ⟨h.stands.next ⟨hmore, rfl⟩, hstep.context, hstep.scene,
    hstep.twins (by rw [hmore]; rintro ⟨⟩)⟩⟩

/-- **Twins take all their steps alike**, from any state on in which their calls stand above a frame
with anonymous code. They are twins in the end unless their runs are over. -/
theorem lockstep_drive {entry : Frame} (hentry : entry.procedure.anonymous = true)
    (hstands : c.StandsOn entry) (hcd : c.Alike d a b) (h : s.Alike t)
    (htwins : s.world.Twins t.world a b) {taken taken' : Array StepRecord}
    (htaken : taken.size = taken'.size) :
    CoursesAlike a b (c.drive s taken) (d.drive t taken')
      ∧ ((c.drive s taken).result ≠ .ok .over →
        (c.drive s taken).scene.world.Twins (d.drive t taken').scene.world a b) := by
  have hstart : Lockstep entry a b (c, s) (d, t) := ⟨hstands, hcd, h, htwins⟩
  have hlockstep := inStep_lockstep hentry a b
  obtain ⟨hresult, x, y, hxy, hx, hy, hlast⟩ := hlockstep.drive hstart taken taken'
  have hstep := hxy.step hentry
  obtain ⟨hcontext, hscene, -⟩ := hx.drive_eq_last hlast taken
  obtain ⟨hcontext', hscene', -⟩ := hy.drive_eq_last (hstep.outcome_eq ▸ hlast) taken'
  refine ⟨⟨hresult, ?_, ?_, ?_⟩, fun hnot => ?_⟩
  · rw [hcontext, hcontext']
    exact hstep.context
  · rw [hscene, hscene']
    exact hstep.scene
  · rw [size_steps_drive, size_steps_drive, htaken, (hlockstep.trail hstart).length_eq]
  · rw [hscene, hscene']
    exact hstep.twins fun hover => hnot (hx.result_drive_of_over hover taken)

/-- **The runs of twins go alike**, if they begin with anonymous code. If they fail, the twins are
alive and twins still. -/
theorem lockstep_run {entry : Frame} (hentry : entry.procedure.anonymous = true)
    (hframe : c.frame = some entry) (hcalls : c.calls = 0) (hfinished : c.finished = false)
    (hcd : c.Alike d a b) (h : s.Alike t) (htwins : s.world.Twins t.world a b) :
    CoursesAlike a b (c.run s) (d.run t)
      ∧ ∀ fault, (c.run s).result = .error fault →
        (c.run s).scene.world.Twins (d.run t).scene.world a b := by
  have hstands : c.StandsOn entry := ⟨entry, hframe, hcalls ▸ .entry⟩
  have hnot := Bool.eq_false_iff.mp hfinished
  obtain ⟨⟨hresult, hcontext, hscene, hsize⟩, hlive⟩ := lockstep_drive hentry hstands hcd h htwins
    (rfl : (#[] : Array StepRecord).size = (#[] : Array StepRecord).size)
  rw [run, run, if_neg hnot, if_neg (hcd.finished_eq ▸ hnot)]
  dsimp only
  rw [← hresult]
  cases hend : (c.drive s #[]).result with
  | error fault =>
    exact ⟨⟨rfl, hcontext, hscene, hsize⟩, fun _ _ => hlive (by rw [hend]; rintro ⟨⟩)⟩
  | ok ending =>
    rcases ending with _ | value
    · exact ⟨⟨rfl, hcontext.finish, hscene, hsize⟩, by rintro _ ⟨⟩⟩
    · exact ⟨⟨rfl, hcontext, hscene, hsize⟩, fun _ _ => hlive (by rw [hend]; rintro ⟨⟩)⟩

end Context

end AgentSweep
