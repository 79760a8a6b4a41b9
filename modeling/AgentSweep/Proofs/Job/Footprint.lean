import AgentSweep.Proofs.Job.Reachable
import AgentSweep.Proofs.Machine.CallStack
import AgentSweep.Proofs.World.Numbers

/-!
# What the run of an agent leaves alone

The run of an agent writes the variables of that agent, kills it or whoever has one of the numbers
that its code names, makes turtles in the breeds that its code names, and prints. It does nothing
else, however deep its calls nest and however it ends. `World.DueTo` says of two worlds that all
differences between them are of these sorts. As it is transitive, it holds of a whole run because it
holds of each step (`Context.dueTo_step`, `Context.dueTo_run`).

The slots of the dead are used again in the course of a run. An agent that was there before can be
told from a newcomer all the same, by its number, and by its id as long as no slot is killed too
often. So everybody else is what it was or dead, and in each breed the survivors come before the
newcomers (`Context.footprint_run`).
-/

namespace AgentSweep

/-! ## What a procedure contains -/

/-- **An instruction stands in a procedure**, or in one that is called there. -/
inductive Procedure.Contains : Procedure → Instruction → Prop where
  | code {p : Procedure} {i : Instruction} (mem : i ∈ p.code) : Contains p i
  | called {p callee : Procedure} {i : Instruction} (mem : .call callee ∈ p.code)
      (contains : Contains callee i) : Contains p i

/-- What stands in a procedure that is called stands in the one in which the calls began. -/
theorem Frame.Above.contains {entry frame : Frame} {calls : Nat} (h : entry.Above calls frame)
    {i : Instruction} (hi : frame.procedure.Contains i) : entry.procedure.Contains i := by
  induction h with
  | entry => exact hi
  | call _ code _ ih => exact ih (.called (List.mem_of_getElem? code) hi)

namespace World

variable {a id : AgentId} {p : Procedure} {u v w : World} {agent now : Agent}

/-! ## Differences that are due to a run -/

/-- **An agent that the code of `p` has made** since the world was `w`. -/
structure Newcomer (p : Procedure) (w : World) (agent : Agent) : Prop where
  kind_eq : agent.kind = .turtle
  contains_hatch : p.Contains (.hatch agent.breed)
  nextWho_le : w.nextWho ≤ agent.who

/-- **All that is different in `v` from what it was in `w` is due to `a` and the code of `p`.** -/
structure DueTo (a : AgentId) (p : Procedure) (w v : World) : Prop where
  /-- Whoever is no longer there, or no longer the same, has had its number killed by the code. -/
  fate : ∀ {id agent}, id ≠ a → w.get? id = some agent →
    v.get? id = some agent ∨ p.Contains (.killWho agent.who)
  /-- Whoever is there was there before, or was made by the code. -/
  origin : ∀ {id now}, v.get? id = some now →
    (∃ agent, w.get? id = some agent ∧ now.SameAs agent ∧ (id ≠ a → now = agent))
      ∨ Newcomer p w now
  nextWho_le : w.nextWho ≤ v.nextWho

theorem Newcomer.of_sameAs (h : Newcomer p w agent) (hsame : now.SameAs agent) :
    Newcomer p w now where
  kind_eq := hsame.kind_eq.trans h.kind_eq
  contains_hatch := by
    rw [hsame.breed_eq]
    exact h.contains_hatch
  nextWho_le := by
    rw [hsame.who_eq]
    exact h.nextWho_le

namespace DueTo

/-- No difference is due to anybody. -/
theorem of_get?_eq (hget : ∀ id, v.get? id = w.get? id) (hwho : v.nextWho = w.nextWho) :
    DueTo a p w v where
  fate _ hold := .inl ((hget _).trans hold)
  origin hnow := .inl ⟨_, (hget _).symm.trans hnow, .refl _, fun _ => rfl⟩
  nextWho_le := Nat.le_of_eq hwho.symm

theorem trans (h : DueTo a p w u) (h' : DueTo a p u v) : DueTo a p w v where
  fate hne hold := by
    rcases h.fate hne hold with hmid | hkilled
    · exact h'.fate hne hmid
    · exact .inr hkilled
  origin hnow := by
    rcases h'.origin hnow with ⟨mid, hmid, hsame, heq⟩ | hnew
    · rcases h.origin hmid with ⟨agent, hagent, hsame', heq'⟩ | hnew
      · exact .inl ⟨agent, hagent, hsame.trans hsame', fun hne => (heq hne).trans (heq' hne)⟩
      · exact .inr (hnew.of_sameAs hsame)
    · exact .inr ⟨hnew.kind_eq, hnew.contains_hatch, Nat.le_trans h.nextWho_le hnew.nextWho_le⟩
  nextWho_le := Nat.le_trans h.nextWho_le h'.nextWho_le

/-- An agent may write its own variables. -/
theorem write (f : Bindings Value → Bindings Value) : DueTo a p w (w.write a f) where
  fate hne hold := .inl (by rw [get?_write, if_neg hne, hold])
  origin hnow := by
    obtain ⟨agent, hagent, hsame⟩ := exists_of_get?_write hnow
    refine .inl ⟨agent, hagent, hsame, fun hne => ?_⟩
    rw [get?_write, if_neg hne] at hnow
    exact Option.some.inj (hnow.symm.trans hagent)
  nextWho_le := Nat.le_refl _

/-- An agent may kill itself, and whoever has a number that its code kills. -/
theorem kill {target : AgentId} (h : ∀ agent, w.get? target = some agent →
    target = a ∨ p.Contains (.killWho agent.who)) : DueTo a p w (w.kill target) where
  fate {id agent} hne hold := by
    rw [get?_kill]
    split
    · next heq =>
      exact .inr ((h agent (heq ▸ hold)).resolve_left fun hself => hne (heq.trans hself))
    · exact .inl hold
  origin hnow := by
    rw [get?_kill] at hnow
    split at hnow
    · cases hnow
    · exact .inl ⟨_, hnow, .refl _, fun _ => rfl⟩
  nextWho_le := Nat.le_of_eq (w.nextWho_kill target).symm

/-- An agent may make a turtle in a breed that its code names, and give it variables. -/
theorem hatch {breed : String} (h : p.Contains (.hatch breed))
    (f : Bindings Value → Bindings Value) :
    DueTo a p w ((w.create .turtle breed).2.write (w.create .turtle breed).1 f) where
  fate {id agent} _ hold := by
    have hne : id ≠ (w.create .turtle breed).1 := by
      rintro rfl
      rw [get?_fst_create] at hold
      cases hold
    exact .inl (by rw [get?_write, if_neg hne, get?_create, if_neg hne, hold])
  origin {id now} hnow := by
    by_cases hid : id = (w.create .turtle breed).1
    · rw [get?_write, if_pos hid, get?_create, if_pos rfl] at hnow
      cases hnow
      exact .inr ⟨rfl, h, Nat.le_refl _⟩
    · rw [get?_write, if_neg hid, get?_create, if_neg hid] at hnow
      exact .inl ⟨now, hnow, .refl now, fun _ => rfl⟩
  nextWho_le := Nat.le_succ _

end DueTo

end World

/-- Whether a step has made an agent. -/
def StepRecord.hatched (record : StepRecord) : Bool :=
  match record.instruction, record.outcome with
  | some (.hatch _), .ok _ => true
  | _, _ => false

namespace Context

open World (DueTo)

variable {c : Context} {s : Scene} {a : AgentId} {p : Procedure} {entry : Frame}

/-! ## One step -/

/-- **Whatever an instruction does is due to the current agent and the instruction.** -/
theorem dueTo_perform (hagent : c.agent = some a) {i : Instruction} (hi : p.Contains i)
    (s : Scene) (q : Procedure) : DueTo a p s.world (c.perform s q i).2.2.world := by
  have hnothing : DueTo a p s.world s.world := .of_get?_eq (fun _ => rfl) rfl
  cases i with
  | noop | leave | done | fail => exact hnothing
  | print e =>
    simp only [perform]
    split
    · exact .of_get?_eq (fun _ => rfl) rfl
    · exact hnothing
  | set name e =>
    simp only [perform, hagent]
    split
    · next value _ _ =>
      split
      · exact .write fun vars => vars.insert name value
      · exact hnothing
    · exact hnothing
  | hatch breed =>
    simp only [perform]
    split
    · split
      · next parent _ => exact .hatch hi fun _ => parent.vars
      · exact hnothing
    · exact hnothing
  | die =>
    simp only [perform, hagent]
    exact .kill fun _ _ => .inl rfl
  | killWho who =>
    simp only [perform]
    split
    · next target hfind =>
      refine .kill fun agent hget => .inr ?_
      obtain ⟨found, hfound, hwho⟩ := SlotTable.get?_of_findId? hfind
      cases hfound.symm.trans hget
      rw [eq_of_beq hwho]
      exact hi
    · exact hnothing
  | call callee =>
    simp only [perform]
    split <;> exact hnothing
  | report e =>
    simp only [perform]
    split
    · split <;> exact hnothing
    · exact hnothing

/-- **Whatever a step does is due to the current agent and the code.** -/
theorem dueTo_step (hagent : c.agent = some a) (hstands : c.StandsOn entry) (s : Scene) :
    DueTo a entry.procedure s.world (c.step s).scene.world := by
  obtain ⟨frame, hframe, habove⟩ := hstands
  rcases step_cases hframe s with ⟨fault, hstep⟩ | ⟨i, hi, hstep⟩ | ⟨-, hstep⟩
  · rw [hstep]
    exact .of_get?_eq (fun _ => rfl) rfl
  · rw [hstep]
    exact dueTo_perform hagent (habove.contains (.code (List.mem_of_getElem? hi))) s _
  · rw [hstep]
    exact .of_get?_eq (fun _ => rfl) rfl

/-- Only `hatch` makes an agent. -/
theorem nextWho_perform {i : Instruction} (hi : ∀ breed, i ≠ .hatch breed) (q : Procedure) :
    (c.perform s q i).2.2.world.nextWho = s.world.nextWho := by
  cases i with
  | hatch breed => exact absurd rfl (hi breed)
  | die =>
    simp only [perform]
    split
    · rfl
    · exact s.world.nextWho_kill _
  | killWho who =>
    simp only [perform]
    split
    · exact s.world.nextWho_kill _
    · rfl
  | _ =>
    simp only [perform]
    repeat' split
    all_goals rfl

/-- **The next number grows by one if the step makes an agent**, and not otherwise. -/
theorem nextWho_step (c : Context) (s : Scene) :
    (c.step s).scene.world.nextWho
      = s.world.nextWho + if (c.recordOf s).hatched then 1 else 0 := by
  cases hframe : c.frame with
  | none =>
    rw [recordOf, step, hframe]
    rfl
  | some frame =>
    rcases step_cases hframe s with ⟨fault, hstep⟩ | ⟨i, -, hstep⟩ | ⟨-, hstep⟩
    · rw [recordOf, hstep]
      rfl
    · rw [recordOf, hstep]
      cases i with
      | hatch breed =>
        simp only [perform]
        split
        · split <;> rfl
        · rfl
      | _ => exact nextWho_perform (by rintro breed ⟨⟩) _
    · rw [recordOf, hstep]
      rfl

/-! ## A whole run -/

theorem dueTo_of_reaches {start b : Context × Scene} (hagent : start.1.agent = some a)
    (hstands : start.1.StandsOn entry) (h : Reaches start b) :
    DueTo a entry.procedure start.2.world b.2.world := by
  induction h with
  | refl => exact .of_get?_eq (fun _ => rfl) rfl
  | @tail b _ hreaches hnext ih =>
    rw [hnext.2]
    have hcurrent := (Reaches.sameRun hreaches).agent_eq.trans hagent
    exact ih.trans (dueTo_step hcurrent (hstands.of_reaches hreaches) b.2)

/-- **Whatever a run does is due to its agent and its code**, whether it fails or not. -/
theorem dueTo_run (c : Context) (s : Scene) (a : AgentId) (frame : Frame) (address : Nat) :
    DueTo a frame.procedure s.world ((c.reset a frame address).run s).scene.world := by
  have hstands : (c.reset a frame address).StandsOn frame := ⟨frame, rfl, .entry⟩
  obtain ⟨last, hreaches, hlast⟩ := exists_last (c.reset a frame address) s
  rw [scene_run rfl, (hreaches.drive_eq_last hlast #[]).2.1]
  exact (dueTo_of_reaches rfl hstands hreaches).trans
    (dueTo_step (hreaches.sameRun.agent_eq.trans rfl) (hstands.of_reaches hreaches) last.2)

/-- **The next number grows with every agent that a run makes.** -/
theorem nextWho_drive (c : Context) (s : Scene) (steps : Array StepRecord) :
    (c.drive s steps).scene.world.nextWho
      = s.world.nextWho + (c.trail s).countP fun b => (b.1.recordOf b.2).hatched := by
  induction c, s using run_induction generalizing steps with
  | more c s h ih =>
    rw [drive_eq, h, trail_of_more h, List.countP_cons, Nat.add_comm (List.countP _ _),
      ← Nat.add_assoc, ← nextWho_step]
    exact ih _
  | last c s h =>
    rw [(drive_of_last h steps).2.1, trail_of_last h, List.countP_singleton, nextWho_step]

/-! ## The footprint -/

/-- **The footprint of a run** of the agent `a` and of the code of `p`, which finds the world `w`,
leaves the world `v`, and makes a number of agents. -/
structure Footprint (a : AgentId) (p : Procedure) (w v : World) (hatched : Nat) : Prop where
  /-- Another agent is what it was. Or else it is dead, and the code kills its number. -/
  other : ∀ id agent, id ≠ a → w.get? id = some agent →
    v.get? id = some agent ∨ v.get? id = none ∧ p.Contains (.killWho agent.who)
  /-- The agent itself, if it is alive, has changed in its variables at most. -/
  own : ∀ agent now, w.get? a = some agent → v.get? a = some now → now.SameAs agent
  /-- Whoever was not there before has been made by the code. -/
  newcomer : ∀ id now, w.get? id = none → v.get? id = some now → World.Newcomer p w now
  /-- In each breed the survivors stand in their old order before the newcomers. -/
  members_eq : ∀ breed, ∃ newcomers,
    v.members breed = (w.members breed).filter v.isAlive ++ newcomers
      ∧ ∀ id ∈ newcomers, w.isAlive id = false
  /-- What was printed before comes first. -/
  output_eq : ∃ lines, v.output = w.output ++ lines
  /-- Every agent that was made has got a number of its own. -/
  nextWho_eq : v.nextWho = w.nextWho + hatched

/-- **The run of an agent touches nothing but the agent, its victims and its children.** -/
theorem footprint_run (c : Context) {s : Scene} (a : AgentId) (frame : Frame) (address : Nat)
    (h : s.world.Reachable)
    (hkills : ∀ slot, s.world.kills slot ((c.reset a frame address).history s)
      < AgentId.generations) :
    Footprint a frame.procedure s.world ((c.reset a frame address).run s).scene.world
      (((c.reset a frame address).run s).steps.toList.countP StepRecord.hatched) := by
  have hdue := dueTo_run c s a frame address
  have hworld := world_run (c := c.reset a frame address) (s := s) rfl
  have hsame {id : AgentId} {agent now : Agent} (hold : s.world.get? id = some agent)
      (hnow : ((c.reset a frame address).run s).scene.world.get? id = some now) :
      now.SameAs agent := by
    rw [hworld] at hnow
    obtain ⟨found, hfound, hsame⟩ :=
      World.same_after hold (hkills _) (World.isAlive_iff.mpr ⟨now, hnow⟩)
    cases hfound.symm.trans hnow
    exact hsame
  refine ⟨fun id agent hne hold => ?_, fun _ _ => hsame, fun id now hnone hnow => ?_, ?_, ?_, ?_⟩
  · cases hnow : ((c.reset a frame address).run s).scene.world.get? id with
    | none => exact .inr ⟨rfl, (hdue.fate hne hold).resolve_left (by rw [hnow]; nofun)⟩
    | some now =>
      rcases hdue.origin hnow with ⟨first, hfirst, -, heq⟩ | hnew
      · cases hfirst.symm.trans hold
        exact .inl (congrArg some (heq hne))
      · -- a newcomer has a number that nobody had before
        have hlt := h.indexed.who_lt_nextWho hold
        rw [← (hsame hold hnow).who_eq] at hlt
        exact absurd hnew.nextWho_le (Nat.not_le_of_gt hlt)
  · rcases hdue.origin hnow with ⟨first, hfirst, -, -⟩ | hnew
    · cases hnone.symm.trans hfirst
    · exact hnew
  · rw [hworld]
    exact h.indexed.members_after hkills
  · rw [hworld]
    exact World.output_after _ _
  · rw [toList_steps_run rfl, List.countP_map, scene_run rfl]
    exact nextWho_drive _ s #[]

end Context

/-- The code kills the third agent that was ever made, and makes a cow. -/
def Frame.weaning : Frame where
  number := 0
  procedure := .command "wean" [.call (.command "calve" [.killWho 2, .hatch "cows"]), .print .who]
  parent := none
  returnAddress := 0

/-- The oldest cow is about to run that code. -/
def Context.weaning : Context := (new default none Kind.turtle.mask).reset ⟨1, 0⟩ .weaning 0

/-- The calf is in the slot of the dead cow, and has a number that nobody had before. -/
theorem Context.footprint_run_weaning :
    Scene.pasture.world.Reachable
      ∧ (∀ slot, Scene.pasture.world.kills slot (weaning.history .pasture) < AgentId.generations)
      ∧ Scene.pasture.world.members "cows" = [⟨1, 0⟩, ⟨3, 0⟩]
      ∧ (weaning.run .pasture).scene.world.members "cows" = [⟨1, 0⟩, ⟨3, 1⟩]
      ∧ (weaning.run .pasture).scene.world.nextWho = 5
      ∧ (weaning.run .pasture).scene.world.output = #["0"]
      ∧ Footprint ⟨1, 0⟩ Frame.weaning.procedure Scene.pasture.world
        (weaning.run .pasture).scene.world 1 := by
  have hkills (slot : Nat) :
      Scene.pasture.world.kills slot (weaning.history .pasture) < AgentId.generations :=
    Nat.lt_of_le_of_lt (World.kills_le_length _ slot _) (by decide +kernel)
  have hhatched : (weaning.run .pasture).steps.toList.countP StepRecord.hatched = 1 := by
    decide +kernel
  have hfootprint : Footprint ⟨1, 0⟩ Frame.weaning.procedure Scene.pasture.world
      (weaning.run .pasture).scene.world
      ((weaning.run .pasture).steps.toList.countP StepRecord.hatched) :=
    footprint_run (new default none Kind.turtle.mask) ⟨1, 0⟩ .weaning 0
      World.Reachable.pasture hkills
  rw [hhatched] at hfootprint
  exact ⟨World.Reachable.pasture, hkills, by decide +kernel, by decide +kernel,
    by decide +kernel, by decide +kernel, hfootprint⟩

end AgentSweep
