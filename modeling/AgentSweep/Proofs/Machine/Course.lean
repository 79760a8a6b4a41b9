import AgentSweep.Machine.Run
import Mathlib.Logic.Relation

/-!
# The course of a run

How a run hangs together with its steps. `Context.run_induction` is the induction over the steps of
a run, `drive_eq` says what the first step makes of the rest, and `Context.Reaches` relates a state
of a run to those that come after it.

Throughout its course a run belongs to the same owner, the same agent and the same tag
(`Context.SameRun`): steps change the other parts of a context only.
-/

namespace AgentSweep

theorem Expr.ofAgent_of_get? {α : Type} {c : Context} {s : Scene} {id : AgentId} {agent : Agent}
    (hagent : c.agent = some id) (hget : s.world.get? id = some agent)
    (f : Agent → Except Fault α) : ofAgent c s.world f = f agent := by
  simp only [ofAgent, hagent, hget]

namespace Context

variable {c : Context} {s : Scene} {frame : Frame}

/-! ## Single steps -/

/-- A step of a body that the tag may run performs the instruction at the address. -/
theorem step_of_getElem? (hframe : c.frame = some frame)
    (htag : c.tag.intersects frame.procedure.usableBy = true) {i : Instruction}
    (hi : frame.procedure.code[c.ip]? = some i) :
    c.step s = ⟨some i, (c.perform s frame.procedure i).1, (c.perform s frame.procedure i).2.1,
      (c.perform s frame.procedure i).2.2⟩ := by
  unfold step
  rw [hframe]
  dsimp only
  rw [if_pos htag, hi]

/-- A step at the end of a body leaves it. -/
theorem step_of_eq_size (hframe : c.frame = some frame)
    (htag : c.tag.intersects frame.procedure.usableBy = true)
    (hip : c.ip = frame.procedure.size) : c.step s = ⟨none, .ok c.leave.1, c.leave.2, s⟩ := by
  have hnone : frame.procedure.code[c.ip]? = none :=
    List.getElem?_eq_none (Nat.le_of_eq hip.symm)
  unfold step
  rw [hframe]
  dsimp only
  rw [if_pos htag, hnone]
  exact if_pos hip

/-- A body that the tag may not run is refused. -/
theorem step_of_not_intersects (hframe : c.frame = some frame)
    (htag : ¬ c.tag.intersects frame.procedure.usableBy = true) :
    c.step s = ⟨none, .error (.wrongKind frame.procedure.name c.tag), c, s⟩ := by
  unfold step
  rw [hframe]
  exact if_neg htag

/-- A step at an address behind the end of the body is refused. -/
theorem step_of_size_lt (hframe : c.frame = some frame)
    (htag : c.tag.intersects frame.procedure.usableBy = true)
    (hip : frame.procedure.size < c.ip) :
    c.step s = ⟨none, .error (.invalidAddress frame.procedure.name c.ip), c, s⟩ := by
  have hnone : frame.procedure.code[c.ip]? = none :=
    List.getElem?_eq_none (Nat.le_of_lt hip)
  unfold step
  rw [hframe]
  dsimp only
  rw [if_pos htag, hnone]
  exact if_neg (Nat.ne_of_gt hip)

/-- **What a step can be**, in any frame: it is refused, or it performs an instruction, or it leaves
the body at its end. -/
theorem step_cases (hframe : c.frame = some frame) (s : Scene) :
    (∃ fault, c.step s = ⟨none, .error fault, c, s⟩)
      ∨ (∃ i, frame.procedure.code[c.ip]? = some i
        ∧ c.step s = ⟨some i, (c.perform s frame.procedure i).1,
          (c.perform s frame.procedure i).2.1, (c.perform s frame.procedure i).2.2⟩)
      ∨ (c.ip = frame.procedure.size ∧ c.step s = ⟨none, .ok c.leave.1, c.leave.2, s⟩) := by
  by_cases htag : c.tag.intersects frame.procedure.usableBy = true
  · rcases Nat.lt_trichotomy c.ip frame.procedure.size with hlt | heq | hgt
    · have hi := List.getElem?_eq_getElem hlt
      exact .inr (.inl ⟨_, hi, step_of_getElem? hframe htag hi⟩)
    · exact .inr (.inr ⟨heq, step_of_eq_size hframe htag heq⟩)
    · exact .inl ⟨_, step_of_size_lt hframe htag hgt⟩
  · exact .inl ⟨_, step_of_not_intersects hframe htag⟩

/-- An instruction is run only if the tag may run the body in which it stands. -/
theorem step_of_instruction {i : Instruction} (h : (c.step s).instruction = some i) :
    ∃ frame, c.frame = some frame ∧ c.tag.intersects frame.procedure.usableBy = true
      ∧ c.step s = ⟨some i, (c.perform s frame.procedure i).1,
        (c.perform s frame.procedure i).2.1, (c.perform s frame.procedure i).2.2⟩ := by
  cases hframe : c.frame with
  | none =>
    rw [step, hframe] at h
    cases h
  | some frame =>
    have htag : c.tag.intersects frame.procedure.usableBy = true := by
      refine Decidable.byContradiction fun htag => ?_
      rw [step_of_not_intersects hframe htag] at h
      cases h
    rcases step_cases hframe s with ⟨fault, hstep⟩ | ⟨j, -, hstep⟩ | ⟨-, hstep⟩
    · rw [hstep] at h
      cases h
    · have hj : j = i := Option.some.inj (by rw [hstep] at h; exact h)
      exact ⟨frame, rfl, htag, hj ▸ hstep⟩
    · rw [hstep] at h
      cases h

/-! ## Induction over the steps -/

/-- **Induction over the steps of a run.** What holds where a run ends, and holds before every step
if it holds after it, holds everywhere. -/
theorem run_induction {motive : Context → Scene → Prop}
    (more : ∀ c s, (c.step s).outcome = .ok .more →
      motive (c.step s).context (c.step s).scene → motive c s)
    (last : ∀ c s, (c.step s).outcome ≠ .ok .more → motive c s) (c : Context) (s : Scene) :
    motive c s := by
  by_cases h : (c.step s).outcome = .ok .more
  · exact more c s h (run_induction more last _ _)
  · exact last c s h
termination_by c.weight
decreasing_by exact weight_lt_of_step h

/-- The record of a step. -/
def recordOf (c : Context) (s : Scene) : StepRecord :=
  ⟨c, (c.step s).instruction, (c.step s).outcome, (c.step s).context.ip⟩

/-- **A run is its first step, and the rest of the run if there is more to do.** -/
theorem drive_eq (c : Context) (s : Scene) (steps : Array StepRecord) :
    c.drive s steps
      = match (c.step s).outcome with
        | .ok .more => (c.step s).context.drive (c.step s).scene (steps.push (c.recordOf s))
        | .ok .over =>
          ⟨.ok .over, (c.step s).context, (c.step s).scene, steps.push (c.recordOf s)⟩
        | .ok (.reported value) =>
          ⟨.ok (.reported value), (c.step s).context, (c.step s).scene,
            steps.push (c.recordOf s)⟩
        | .error fault =>
          ⟨.error fault, (c.step s).context, (c.step s).scene, steps.push (c.recordOf s)⟩ := by
  rw [drive]
  split <;> simp_all [recordOf]

/-- The last step of a run leaves context and scene as the run does, and is the last one that the
run records. -/
theorem drive_of_last (h : (c.step s).outcome ≠ .ok .more) (steps : Array StepRecord) :
    (c.drive s steps).context = (c.step s).context
      ∧ (c.drive s steps).scene = (c.step s).scene
      ∧ (c.drive s steps).steps = steps.push (c.recordOf s) := by
  rw [drive_eq]
  split
  · next hmore => exact absurd hmore h
  · exact ⟨rfl, rfl, rfl⟩
  · exact ⟨rfl, rfl, rfl⟩
  · exact ⟨rfl, rfl, rfl⟩

/-- The first step to be added to those already taken is the one from here. -/
theorem steps_drive (c : Context) (s : Scene) (steps : Array StepRecord) :
    ∃ later, (c.drive s steps).steps.toList = steps.toList ++ c.recordOf s :: later := by
  induction c, s using run_induction generalizing steps with
  | more c s h ih =>
    obtain ⟨later, hlater⟩ := ih (steps.push (c.recordOf s))
    refine ⟨(c.step s).context.recordOf (c.step s).scene :: later, ?_⟩
    rw [drive_eq, h]
    rw [Array.toList_push, List.append_assoc, List.singleton_append] at hlater
    exact hlater
  | last c s h =>
    rw [(drive_of_last h steps).2.2]
    exact ⟨[], Array.toList_push⟩

/-- A run that is not over from the start begins with a step from where it stands. -/
theorem steps_run (h : c.finished = false) :
    ∃ later, (c.run s).steps.toList = c.recordOf s :: later := by
  obtain ⟨later, hlater⟩ := steps_drive c s #[]
  refine ⟨later, Eq.trans ?_ hlater⟩
  rw [run, if_neg (Bool.eq_false_iff.mp h)]
  dsimp only
  split <;> rfl

/-- A run that is not over from the start ends where its steps end. -/
theorem scene_run (h : c.finished = false) : (c.run s).scene = (c.drive s #[]).scene := by
  rw [run, if_neg (Bool.eq_false_iff.mp h)]
  dsimp only
  split <;> rfl

theorem scene_evaluate (c : Context) (s : Scene) (frame : Frame) :
    (c.evaluate s frame).scene = ((c.enter frame).drive s #[]).scene := by
  unfold evaluate
  dsimp only
  split <;> rfl

/-! ## States that a run goes through -/

/-- One state of a run is followed by another. -/
def Next (a b : Context × Scene) : Prop :=
  (a.1.step a.2).outcome = .ok .more ∧ b = ((a.1.step a.2).context, (a.1.step a.2).scene)

/-- **One state of a run comes before another**, any number of steps before it. -/
abbrev Reaches : Context × Scene → Context × Scene → Prop := Relation.ReflTransGen Next

theorem reaches_step (h : (c.step s).outcome = .ok .more) :
    Reaches (c, s) ((c.step s).context, (c.step s).scene) :=
  .single ⟨h, rfl⟩

/-- A run ends as it does from any of its states on. -/
theorem Reaches.exists_drive_eq {b : Context × Scene} (h : Reaches (c, s) b)
    (steps : Array StepRecord) : ∃ taken, c.drive s steps = b.1.drive b.2 taken := by
  suffices hall : ∀ a : Context × Scene, Reaches a b → ∀ steps,
      ∃ taken, a.1.drive a.2 steps = b.1.drive b.2 taken from hall (c, s) h steps
  intro a hab
  induction hab using Relation.ReflTransGen.head_induction_on with
  | refl => exact fun steps => ⟨steps, rfl⟩
  | head hnext _ ih =>
    obtain ⟨hmore, rfl⟩ := hnext
    intro steps
    rw [drive_eq, hmore]
    exact ih _

/-- **A run ends with the step that is taken in a state from which no other follows.** -/
theorem Reaches.drive_eq_last {b : Context × Scene} (h : Reaches (c, s) b)
    (hlast : (b.1.step b.2).outcome ≠ .ok .more) (steps : Array StepRecord) :
    (c.drive s steps).context = (b.1.step b.2).context
      ∧ (c.drive s steps).scene = (b.1.step b.2).scene
      ∧ (c.drive s steps).steps.back? = some (b.1.recordOf b.2) := by
  obtain ⟨taken, htaken⟩ := h.exists_drive_eq steps
  obtain ⟨hcontext, hscene, hsteps⟩ := drive_of_last hlast taken
  rw [htaken]
  exact ⟨hcontext, hscene, by rw [hsteps, Array.back?_push]⟩

/-- A run in which a step ends it is over. -/
theorem Reaches.result_drive_of_over {b : Context × Scene} (h : Reaches (c, s) b)
    (hover : (b.1.step b.2).outcome = .ok .over) (steps : Array StepRecord) :
    (c.drive s steps).result = .ok .over := by
  obtain ⟨taken, htaken⟩ := h.exists_drive_eq steps
  rw [htaken, drive_eq, hover]

/-- A run records a step in each of its states. -/
theorem Reaches.recordOf_mem_steps {b : Context × Scene} (h : Reaches (c, s) b)
    (steps : Array StepRecord) : b.1.recordOf b.2 ∈ (c.drive s steps).steps := by
  obtain ⟨taken, htaken⟩ := h.exists_drive_eq steps
  obtain ⟨later, hlater⟩ := steps_drive b.1 b.2 taken
  rw [htaken, ← Array.mem_toList_iff, hlater]
  exact List.mem_append_right _ List.mem_cons_self

/-- Every run comes to a last state. -/
theorem exists_last (c : Context) (s : Scene) :
    ∃ b, Reaches (c, s) b ∧ (b.1.step b.2).outcome ≠ .ok .more := by
  induction c, s using run_induction with
  | more c s h ih =>
    obtain ⟨b, hreaches, hlast⟩ := ih
    exact ⟨b, (reaches_step h).trans hreaches, hlast⟩
  | last c s h => exact ⟨(c, s), .refl, h⟩

/-- **A run records the steps that are taken in its states.** -/
theorem exists_reaches_of_mem_drive {steps : Array StepRecord} {record : StepRecord}
    (h : record ∈ (c.drive s steps).steps) :
    record ∈ steps ∨ ∃ b, Reaches (c, s) b ∧ record = b.1.recordOf b.2 := by
  have hpush {c : Context} {s : Scene} {steps : Array StepRecord}
      (h : record ∈ steps.push (c.recordOf s)) :
      record ∈ steps ∨ ∃ b, Reaches (c, s) b ∧ record = b.1.recordOf b.2 :=
    (Array.mem_push.mp h).imp id fun heq => ⟨(c, s), .refl, heq⟩
  induction c, s using run_induction generalizing steps with
  | more c s hmore ih =>
    rw [drive_eq, hmore] at h
    rcases ih h with hfirst | ⟨b, hreaches, heq⟩
    · exact hpush hfirst
    · exact .inr ⟨b, (reaches_step hmore).trans hreaches, heq⟩
  | last c s hlast =>
    rw [(drive_of_last hlast steps).2.2] at h
    exact hpush h

/-! ## What a run does not change -/

/-- **Two states of one agent's run**: owner, agent and tag agree. -/
structure SameRun (c d : Context) : Prop where
  owner_eq : c.owner = d.owner
  agent_eq : c.agent = d.agent
  tag_eq : c.tag = d.tag

namespace SameRun

theorem refl (c : Context) : c.SameRun c := ⟨rfl, rfl, rfl⟩

theorem trans {c d e : Context} (h : c.SameRun d) (h' : d.SameRun e) : c.SameRun e :=
  ⟨h.owner_eq.trans h'.owner_eq, h.agent_eq.trans h'.agent_eq, h.tag_eq.trans h'.tag_eq⟩

end SameRun

theorem sameRun_leave (c : Context) : c.leave.2.SameRun c := by
  unfold leave pop?
  split
  · next d hd =>
    split at hd
    · cases hd; exact ⟨rfl, rfl, rfl⟩
    · cases hd
  · exact .refl c

theorem sameRun_perform (c : Context) (s : Scene) (p : Procedure) (i : Instruction) :
    (c.perform s p i).2.1.SameRun c := by
  cases i with
  | leave => exact sameRun_leave c
  | _ => simp only [perform]; (repeat' split) <;> exact ⟨rfl, rfl, rfl⟩

/-- **A step belongs to the run in which it is taken.** -/
theorem sameRun_step (c : Context) (s : Scene) : (c.step s).context.SameRun c := by
  unfold step
  split
  · exact .refl c
  · dsimp only
    split
    · split
      · exact sameRun_perform c s _ _
      · split
        · exact sameRun_leave c
        · exact .refl c
    · exact .refl c

theorem sameRun_drive (c : Context) (s : Scene) (steps : Array StepRecord) :
    (c.drive s steps).context.SameRun c := by
  induction c, s using run_induction generalizing steps with
  | more c s h ih => rw [drive_eq, h]; exact (ih _).trans (sameRun_step c s)
  | last c s h => rw [(drive_of_last h steps).1]; exact sameRun_step c s

theorem Reaches.sameRun {a b : Context × Scene} (h : Reaches a b) : b.1.SameRun a.1 := by
  induction h with
  | refl => exact .refl _
  | tail _ hnext ih =>
    obtain ⟨-, rfl⟩ := hnext
    exact (sameRun_step _ _).trans ih

/-- Every step of a run is taken in that run. -/
theorem sameRun_of_mem_run {record : StepRecord} (h : record ∈ (c.run s).steps) :
    record.before.SameRun c := by
  unfold run at h
  split at h
  · exact absurd h (Array.not_mem_empty record)
  · have hdrive : record ∈ (c.drive s #[]).steps := by
      dsimp only at h
      split at h <;> exact h
    obtain ⟨b, hreaches, rfl⟩ :=
      (exists_reaches_of_mem_drive hdrive).resolve_left (Array.not_mem_empty record)
    exact hreaches.sameRun

/-- **At its end a run belongs to whom it belonged at its beginning.** -/
theorem sameRun_run (c : Context) (s : Scene) : (c.run s).context.SameRun c := by
  have hdrive := sameRun_drive c s #[]
  unfold run
  split
  · exact .refl c
  · dsimp only
    split
    · exact ⟨hdrive.owner_eq, hdrive.agent_eq, hdrive.tag_eq⟩
    · exact hdrive
    · exact hdrive

end Context

end AgentSweep
