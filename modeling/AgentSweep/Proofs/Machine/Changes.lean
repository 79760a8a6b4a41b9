import AgentSweep.Proofs.Machine.Course
import AgentSweep.Proofs.World.History
import Mathlib.Data.List.Chain
import Mathlib.Data.List.Forall2

/-!
# What running code does to a world

Code touches the world through its instructions only, and each of them makes at most two changes:
`print` prints a line, `set` writes a variable of the current agent, `hatch` makes a turtle and
then writes its variables, and `die` and `killWho` kill. `Context.changes` reads the changes of the
next step off the state before it, and `world_step` says that they are all that the step does.

A run goes through a list of states, its `trail`, and its `history` is what all their steps change.
-/

namespace AgentSweep

/-! ## One step -/

/-- The changes that an instruction makes. -/
def Instruction.changes (c : Context) (s : Scene) : Instruction → List Change
  | .print e =>
    match (e.eval c s).1 with
    | .ok value => [.print (value.render s.world)]
    | .error _ => []
  | .set name e =>
    match (e.eval c s).1, c.agent with
    | .ok value, some id =>
      if s.world.isAlive id then [.write id fun vars => vars.insert name value] else []
    | _, _ => []
  | .hatch breed =>
    match Expr.ofAgent c s.world .ok with
    | .ok parent =>
      if c.tag.intersects Kind.turtle.mask then
        [.create .turtle breed, .write s.world.agents.nextId fun _ => parent.vars]
      else []
    | .error _ => []
  | .die => c.agent.toList.map .kill
  | .killWho who => (s.world.findByWho who).toList.map .kill
  | _ => []

namespace Context

variable {c : Context} {s : Scene}

/-- **The changes that the next step makes.** -/
def changes (c : Context) (s : Scene) : List Change :=
  match (c.step s).instruction with
  | some instruction => instruction.changes c s
  | none => []

theorem world_perform (c : Context) (s : Scene) (p : Procedure) (i : Instruction) :
    (c.perform s p i).2.2.world = s.world.after (i.changes c s) := by
  cases i with
  | print e =>
    simp only [perform, Instruction.changes]
    obtain ⟨_ | value, random⟩ := e.eval c s <;> rfl
  | set name e =>
    simp only [perform, Instruction.changes]
    obtain ⟨_ | value, random⟩ := e.eval c s
    · rfl
    · cases c.agent with
      | none => rfl
      | some id => dsimp only; split <;> rfl
  | hatch breed =>
    simp only [perform, Instruction.changes]
    cases Expr.ofAgent c s.world .ok with
    | error fault => split <;> rfl
    | ok parent => dsimp only; split <;> rfl
  | die =>
    simp only [perform, Instruction.changes]
    cases c.agent <;> rfl
  | killWho who =>
    simp only [perform, Instruction.changes]
    cases s.world.findByWho who <;> rfl
  | call callee =>
    simp only [perform]
    split <;> rfl
  | report e =>
    simp only [perform]
    obtain ⟨_ | value, random⟩ := e.eval c s <;> split <;> rfl
  | noop | leave | done | fail => rfl

/-- **A step changes the world by its changes.** -/
theorem world_step (c : Context) (s : Scene) :
    (c.step s).scene.world = s.world.after (c.changes s) := by
  unfold changes step
  split
  · rfl
  · dsimp only
    split
    · split
      · exact world_perform c s _ _
      · split <;> rfl
    · rfl

/-! ## A whole run -/

/-- **The states of a run**, each as it is before its step. -/
def trail (c : Context) (s : Scene) : List (Context × Scene) :=
  (c, s) ::
    match _h : (c.step s).outcome with
    | .ok .more => trail (c.step s).context (c.step s).scene
    | _ => []
termination_by c.weight
decreasing_by exact weight_lt_of_step ‹_›

/-- **The changes that a run makes**, in their order. -/
def history (c : Context) (s : Scene) : List Change :=
  (c.trail s).flatMap fun state => state.1.changes state.2

theorem trail_of_more (h : (c.step s).outcome = .ok .more) :
    c.trail s = (c, s) :: (c.step s).context.trail (c.step s).scene := by
  rw [trail]
  split <;> simp_all

theorem trail_of_last (h : (c.step s).outcome ≠ .ok .more) : c.trail s = [(c, s)] := by
  rw [trail]
  split
  · next hmore => exact absurd hmore h
  · rfl

theorem exists_trail_eq_cons (c : Context) (s : Scene) : ∃ later, c.trail s = (c, s) :: later := by
  rw [trail]
  exact ⟨_, rfl⟩

/-- **A trail ends with the one state from which no other follows.** -/
theorem exists_trail_eq_concat (c : Context) (s : Scene) :
    ∃ before last, c.trail s = before ++ [last] ∧ (last.1.step last.2).outcome ≠ .ok .more := by
  induction c, s using run_induction with
  | more c s h ih =>
    obtain ⟨before, last, heq, hlast⟩ := ih
    exact ⟨(c, s) :: before, last, by rw [trail_of_more h, heq, List.cons_append], hlast⟩
  | last c s h => exact ⟨[], (c, s), trail_of_last h, h⟩

/-- Each state of a trail is followed by the next one. -/
theorem isChain_trail (c : Context) (s : Scene) : (c.trail s).IsChain Next := by
  induction c, s using run_induction with
  | more c s h ih =>
    rw [trail_of_more h]
    refine List.isChain_cons.mpr ⟨fun b hb => ?_, ih⟩
    rw [trail, List.head?_cons] at hb
    exact ⟨h, (Option.some.inj hb).symm⟩
  | last c s h =>
    rw [trail_of_last h]
    exact .singleton _

/-- The states of a run are those to which it comes. -/
theorem mem_trail_iff {b : Context × Scene} : b ∈ c.trail s ↔ Reaches (c, s) b := by
  rw [Reaches, Relation.ReflTransGen.cases_head_iff]
  induction c, s using run_induction with
  | more c s h ih =>
    rw [trail_of_more h, List.mem_cons, ih, ← Relation.ReflTransGen.cases_head_iff]
    refine or_congr eq_comm ⟨fun hlater => ⟨_, ⟨h, rfl⟩, hlater⟩, ?_⟩
    rintro ⟨_, ⟨-, rfl⟩, hlater⟩
    exact hlater
  | last c s h =>
    rw [trail_of_last h, List.mem_singleton, eq_comm]
    refine (or_iff_left ?_).symm
    rintro ⟨_, ⟨hmore, -⟩, -⟩
    exact h hmore

/-- **A run takes one step in each of its states**, and records it. -/
theorem toList_steps_drive (c : Context) (s : Scene) (steps : Array StepRecord) :
    (c.drive s steps).steps.toList
      = steps.toList ++ (c.trail s).map fun b => b.1.recordOf b.2 := by
  induction c, s using run_induction generalizing steps with
  | more c s h ih =>
    rw [drive_eq, h, trail_of_more h, List.map_cons]
    dsimp only
    rw [ih, Array.toList_push, List.append_assoc, List.singleton_append]
  | last c s h =>
    rw [(drive_of_last h steps).2.2, trail_of_last h, Array.toList_push, List.map_singleton]

theorem size_steps_drive (c : Context) (s : Scene) (steps : Array StepRecord) :
    (c.drive s steps).steps.size = steps.size + (c.trail s).length := by
  rw [← Array.length_toList, toList_steps_drive, List.length_append, List.length_map,
    Array.length_toList]

theorem toList_steps_run (h : c.finished = false) :
    (c.run s).steps.toList = (c.trail s).map fun b => b.1.recordOf b.2 := by
  have hsteps : (c.run s).steps = (c.drive s #[]).steps := by
    rw [run, if_neg (Bool.eq_false_iff.mp h)]
    dsimp only
    split <;> rfl
  rw [hsteps, toList_steps_drive]
  rfl

theorem toList_steps_evaluate (c : Context) (s : Scene) (frame : Frame) :
    (c.evaluate s frame).steps.toList
      = ((c.enter frame).trail s).map fun b => b.1.recordOf b.2 := by
  have hsteps : (c.evaluate s frame).steps = ((c.enter frame).drive s #[]).steps := by
    rw [evaluate]
    split <;> rfl
  rw [hsteps, toList_steps_drive]
  rfl

theorem history_of_more (h : (c.step s).outcome = .ok .more) :
    c.history s = c.changes s ++ (c.step s).context.history (c.step s).scene := by
  rw [history, trail_of_more h, List.flatMap_cons]
  rfl

theorem history_of_last (h : (c.step s).outcome ≠ .ok .more) : c.history s = c.changes s := by
  rw [history, trail_of_last h, List.flatMap_singleton]

/-- **A run changes the world by its history.** -/
theorem world_drive (c : Context) (s : Scene) (steps : Array StepRecord) :
    (c.drive s steps).scene.world = s.world.after (c.history s) := by
  induction c, s using run_induction generalizing steps with
  | more c s h ih =>
    rw [drive_eq, h, history_of_more h, World.after_append, ← world_step]
    exact ih _
  | last c s h => rw [(drive_of_last h steps).2.1, history_of_last h, world_step]

/-- A run that is not over from the start changes the world by its history. -/
theorem world_run (h : c.finished = false) :
    (c.run s).scene.world = s.world.after (c.history s) := by
  rw [scene_run h, world_drive]

theorem world_evaluate (c : Context) (s : Scene) (frame : Frame) :
    (c.evaluate s frame).scene.world = s.world.after ((c.enter frame).history s) := by
  rw [scene_evaluate, world_drive]

/-! ## Two runs in step -/

/-- **A relation that two runs keep in step**: in related states the next steps have the same
outcome, and where there is more to do they lead to related states. -/
def InStep (R : Context × Scene → Context × Scene → Prop) : Prop :=
  ∀ a b, R a b → (a.1.step a.2).outcome = (b.1.step b.2).outcome
    ∧ ((a.1.step a.2).outcome = .ok .more →
      R ((a.1.step a.2).context, (a.1.step a.2).scene)
        ((b.1.step b.2).context, (b.1.step b.2).scene))

section

variable {R : Context × Scene → Context × Scene → Prop} {d : Context} {t : Scene}

/-- Runs in step go through related states, one by one. -/
theorem InStep.trail (hR : InStep R) (h : R (c, s) (d, t)) :
    List.Forall₂ R (c.trail s) (d.trail t) := by
  induction c, s using run_induction generalizing d t with
  | more c s hmore ih =>
    obtain ⟨houtcome, hnext⟩ := hR _ _ h
    rw [trail_of_more hmore, trail_of_more (houtcome.symm.trans hmore)]
    exact .cons h (ih (hnext hmore))
  | last c s hlast =>
    rw [trail_of_last hlast, trail_of_last ((hR _ _ h).1 ▸ hlast)]
    exact .cons h .nil

/-- What is the same in related states is the same all the way along two runs in step. -/
theorem InStep.map_trail_eq (hR : InStep R) (h : R (c, s) (d, t)) {α : Type}
    {f : Context × Scene → α} (hf : ∀ a b, R a b → f a = f b) :
    (c.trail s).map f = (d.trail t).map f := by
  rw [← List.forall₂_eq_eq_eq, List.forall₂_map_left_iff, List.forall₂_map_right_iff]
  exact (hR.trail h).imp hf

/-- **Runs in step come to the same result**, by last steps from related states. -/
theorem InStep.drive (hR : InStep R) (h : R (c, s) (d, t)) (taken taken' : Array StepRecord) :
    (c.drive s taken).result = (d.drive t taken').result
      ∧ ∃ a b, R a b ∧ Reaches (c, s) a ∧ Reaches (d, t) b
        ∧ (a.1.step a.2).outcome ≠ .ok .more := by
  induction c, s using run_induction generalizing d t taken taken' with
  | more c s hmore ih =>
    obtain ⟨houtcome, hnext⟩ := hR _ _ h
    have hmore' := houtcome.symm.trans hmore
    obtain ⟨hresult, a, b, hab, ha, hb, hlast⟩ :=
      ih (hnext hmore) (taken.push (c.recordOf s)) (taken'.push (d.recordOf t))
    rw [drive_eq, drive_eq d, ← houtcome, hmore]
    exact ⟨hresult, a, b, hab, (reaches_step hmore).trans ha, (reaches_step hmore').trans hb,
      hlast⟩
  | last c s hlast =>
    refine ⟨?_, (c, s), (d, t), h, .refl, .refl, hlast⟩
    rw [drive_eq, drive_eq d, ← (hR _ _ h).1]
    cases houtcome : (c.step s).outcome with
    | error fault => rfl
    | ok outcome =>
      cases outcome with
      | more => exact absurd houtcome hlast
      | _ => rfl

/-- **Two runs come to the same**, after as many steps, and leave related states. -/
structure CoursesMatch {α : Type} (Q : Context × Scene → Context × Scene → Prop)
    (first second : Course α) : Prop where
  result_eq : first.result = second.result
  ends : Q (first.context, first.scene) (second.context, second.scene)
  size_steps_eq : first.steps.size = second.steps.size

variable {Q : Context × Scene → Context × Scene → Prop}

/-- Runs in step match by whatever their steps lead to. -/
theorem InStep.coursesMatch_drive (hR : InStep R)
    (hstep : ∀ a b, R a b → Q ((a.1.step a.2).context, (a.1.step a.2).scene)
      ((b.1.step b.2).context, (b.1.step b.2).scene))
    (h : R (c, s) (d, t)) : CoursesMatch Q (c.drive s #[]) (d.drive t #[]) := by
  obtain ⟨hresult, a, b, hab, ha, hb, hlast⟩ := hR.drive h #[] #[]
  obtain ⟨hcontext, hscene, -⟩ := ha.drive_eq_last hlast #[]
  obtain ⟨hcontext', hscene', -⟩ := hb.drive_eq_last ((hR a b hab).1 ▸ hlast) #[]
  refine ⟨hresult, ?_, ?_⟩
  · rw [hcontext, hscene, hcontext', hscene']
    exact hstep a b hab
  · rw [size_steps_drive, size_steps_drive, (hR.trail h).length_eq]

/-- **Runs of commands match** if they begin in step. -/
theorem InStep.coursesMatch_run (hR : InStep R)
    (hstep : ∀ a b, R a b → Q ((a.1.step a.2).context, (a.1.step a.2).scene)
      ((b.1.step b.2).context, (b.1.step b.2).scene))
    (hfinish : ∀ a b, Q a b → Q (a.1.finish, a.2) (b.1.finish, b.2)) (h : R (c, s) (d, t))
    (hc : c.finished = false) (hd : d.finished = false) :
    CoursesMatch Q (c.run s) (d.run t) := by
  obtain ⟨hresult, hends, hsize⟩ := hR.coursesMatch_drive hstep h
  rw [run, run, if_neg (Bool.eq_false_iff.mp hc), if_neg (Bool.eq_false_iff.mp hd)]
  dsimp only
  rw [← hresult]
  rcases (c.drive s #[]).result with fault | _ | value
  · exact ⟨rfl, hends, hsize⟩
  · exact ⟨rfl, hfinish _ _ hends, hsize⟩
  · exact ⟨rfl, hends, hsize⟩

/-- **Evaluations of reporters match** if they begin in step, with reporters of one name. -/
theorem InStep.coursesMatch_evaluate (hR : InStep R)
    (hstep : ∀ a b, R a b → Q ((a.1.step a.2).context, (a.1.step a.2).scene)
      ((b.1.step b.2).context, (b.1.step b.2).scene))
    (hfinish : ∀ a b, Q a b → Q (a.1.finish, a.2) (b.1.finish, b.2)) {f g : Frame}
    (h : R (c.enter f, s) (d.enter g, t)) (hname : f.procedure.name = g.procedure.name) :
    CoursesMatch Q (c.evaluate s f) (d.evaluate t g) := by
  obtain ⟨hresult, hends, hsize⟩ := hR.coursesMatch_drive hstep h
  rw [evaluate, evaluate, ← hresult, ← hname]
  rcases ((c.enter f).drive s #[]).result with fault | _ | value
  · exact ⟨rfl, hends, hsize⟩
  · exact ⟨rfl, hfinish _ _ hends, hsize⟩
  · exact ⟨rfl, hfinish _ _ hends, hsize⟩

end

end Context

end AgentSweep
