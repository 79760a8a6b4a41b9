import AgentSweep.Proofs.Job.Trails
import AgentSweep.Proofs.World.Numbers

/-!
# Numbers identify agents

Whoever makes an agent gives out a number with it: 0, then 1, and so on. The numbers that a history
gives out (`World.numbers`) are therefore all different and all below the next one, whoever has died
in between and whatever slots are used again.

Which numbers a world has given out is a matter of how it was reached, and a `World.Chronicle` is
the way from the empty world to a given one: whatever was done from outside, and the changes that
running code has made in runs, reports or single steps. The law of numbers (`World.NumberLaw`) says
that a number names one agent for good, so that looking for a number finds whoever has it and
`killWho` kills that agent alone. It holds at the end of every chronicle (`World.number_law`), and
all states through which a run goes lie at the end of one (`World.Chronicle.of_mem_trail`).
-/

namespace AgentSweep

namespace World

variable {w : World}

/-! ## The numbers that a history gives out -/

/-- The number that a change gives out, if it makes an agent: that of the new agent. -/
def number? (w : World) : Change → Option Nat
  | .create kind breed => ((w.create kind breed).2.get? (w.create kind breed).1).map Agent.who
  | _ => none

/-- **The numbers that a history gives out**, in their order. -/
def numbers : World → List Change → List Nat
  | _, [] => []
  | w, change :: history => (w.number? change).toList ++ numbers (w.apply change) history

theorem number?_create (w : World) (kind : Kind) (breed : String) :
    w.number? (.create kind breed) = some w.nextWho := by
  rw [number?, get?_create_fst, Option.map_some]

/-- **Numbers are given out one after the other.** Those below the next one at first, and those that
a history gives out, are those below the next one at last. -/
theorem range_append_numbers (w : World) (history : List Change) :
    List.range w.nextWho ++ w.numbers history = List.range (w.after history).nextWho := by
  induction history generalizing w with
  | nil => exact List.append_nil _
  | cons change history ih =>
    rw [after_cons, ← ih, numbers, ← List.append_assoc]
    refine congrArg (· ++ _) ?_
    cases change with
    | create kind breed =>
      rw [number?_create]
      show List.range w.nextWho ++ [w.nextWho] = List.range (w.nextWho + 1)
      exact List.range_succ.symm
    | kill id =>
      show List.range w.nextWho ++ [] = List.range (w.kill id).nextWho
      rw [List.append_nil, nextWho_kill]
    | write id f => exact List.append_nil _
    | print line => exact List.append_nil _

theorem numbers_empty (history : List Change) :
    empty.numbers history = List.range (empty.after history).nextWho :=
  range_append_numbers empty history

/-! ## Chronicles -/

/-- **How a world was reached from the empty one**, with all that was changed on the way. -/
inductive Chronicle : List Change → World → Prop where
  | empty : Chronicle [] .empty
  | create {history : List Change} {w : World} (h : Chronicle history w) (kind : Kind)
      (breed : String) : Chronicle (history ++ [.create kind breed]) (w.create kind breed).2
  | createTurtles {history : List Change} {w : World} (h : Chronicle history w) (breed : String)
      (number : Nat) :
      Chronicle (history ++ .replicate number (.create .turtle breed))
        (w.createTurtles breed number).2
  /-- Any id can be killed, whether it names somebody or not. -/
  | kill {history : List Change} {w : World} (h : Chronicle history w) (id : AgentId) :
      Chronicle (history ++ [.kill id]) (w.kill id)
  | write {history : List Change} {w : World} (h : Chronicle history w) (id : AgentId)
      (f : Bindings Value → Bindings Value) : Chronicle (history ++ [.write id f]) (w.write id f)
  | run {history : List Change} {s : Scene} (h : Chronicle history s.world) (job : Job)
      (traceAgents : Bool) (halt : HaltSignal) :
      Chronicle (history ++ job.history s halt) (job.run s traceAgents halt).scene.world
  | report {history : List Change} {s : Scene} (h : Chronicle history s.world) (job : Job) :
      Chronicle (history ++ job.reportHistory s) (job.report s).scene.world
  /-- Running code takes one step, in whatever context. -/
  | step {history : List Change} {s : Scene} (h : Chronicle history s.world) (c : Context) :
      Chronicle (history ++ c.changes s) (c.step s).scene.world

namespace Chronicle

variable {history : List Change}

/-- **A chronicle leads to its world.** -/
theorem world_eq (h : Chronicle history w) : w = World.empty.after history := by
  induction h with
  | empty => rfl
  | create _ kind breed ih | kill _ id ih | write _ id f ih => rw [after_append, ← ih]; rfl
  | createTurtles _ breed number ih => rw [after_append, ← ih, createTurtles_eq_after]
  | run _ job traceAgents halt ih => rw [after_append, ← ih, Job.world_run]
  | report _ job ih => rw [after_append, ← ih, Job.world_report]
  | step _ c ih => rw [after_append, ← ih, Context.world_step]

/-- Every reachable world has a chronicle. -/
theorem exists_of_reachable (h : w.Reachable) : ∃ history, Chronicle history w := by
  induction h with
  | empty => exact ⟨_, .empty⟩
  | create _ kind breed ih => exact ih.elim fun _ h => ⟨_, h.create kind breed⟩
  | createTurtles _ breed number ih => exact ih.elim fun _ h => ⟨_, h.createTurtles breed number⟩
  | kill _ id ih => exact ih.elim fun _ h => ⟨_, h.kill id⟩
  | write _ id f ih => exact ih.elim fun _ h => ⟨_, h.write id f⟩
  | run _ job traceAgents halt ih => exact ih.elim fun _ h => ⟨_, h.run job traceAgents halt⟩
  | report _ job ih => exact ih.elim fun _ h => ⟨_, h.report job⟩

/-- **In the midst of a run the world has a chronicle, too**, and it goes on from that of the world
before the run. -/
theorem of_mem_trail {s : Scene} (h : Chronicle history s.world) {job : Job} {halt : HaltSignal}
    {b : Context × Scene} (hb : b ∈ job.trail s halt) :
    ∃ later, Chronicle (history ++ later) b.2.world := by
  refine Job.trail_induction (motive := fun v => ∃ later, Chronicle (history ++ later) v)
    ⟨[], by rw [List.append_nil]; exact h⟩ (fun d _ hd => ?_) hb
  obtain ⟨later, hlater⟩ := hd
  exact ⟨later ++ d.1.changes d.2, by rw [← List.append_assoc]; exact hlater.step d.1⟩

theorem indexed (h : Chronicle history w) : w.Indexed := by
  rw [h.world_eq]
  exact Indexed.empty.after history

theorem numbered (h : Chronicle history w) : w.Numbered := by
  rw [h.world_eq]
  exact Numbered.empty.after .empty history

/-- The numbers that have been given out are those below the next one. -/
theorem numbers_eq (h : Chronicle history w) :
    World.empty.numbers history = List.range w.nextWho := by
  rw [numbers_empty, ← h.world_eq]

end Chronicle

end World

/-! ## The law of numbers -/

namespace Context

/-- To kill whoever has a number is to kill whom a search for the number finds. -/
theorem world_step_killWho {c : Context} {s : Scene} {who : Nat}
    (h : (c.step s).instruction = some (.killWho who)) :
    (c.step s).scene.world
      = match s.world.findByWho who with
        | some id => s.world.kill id
        | none => s.world := by
  rw [world_step, changes, h]
  show s.world.after ((s.world.findByWho who).toList.map .kill) = _
  cases s.world.findByWho who <;> rfl

end Context

namespace World

/-- **The law of numbers** in a world, given all that was changed on the way to it. -/
structure NumberLaw (history : List Change) (w : World) : Prop where
  /-- Every number that was ever given out is below the next one. -/
  lt_nextWho : ∀ who ∈ empty.numbers history, who < w.nextWho
  /-- No number was given out twice, whoever has died in between. -/
  nodup_numbers : (empty.numbers history).Nodup
  /-- The number of a living agent is one of those that were given out. -/
  who_mem : ∀ id agent, w.get? id = some agent → agent.who ∈ empty.numbers history
  /-- No two living agents share a number. -/
  eq_of_who_eq : ∀ a b first second, w.get? a = some first → w.get? b = some second →
    first.who = second.who → a = b
  /-- Who is found under a number is whoever has it, in whatever slot. -/
  findByWho_iff : ∀ who id,
    w.findByWho who = some id ↔ ∃ agent, w.get? id = some agent ∧ agent.who = who
  /-- A step that kills the agent with a number kills that agent and nobody else. -/
  killWho : ∀ (c : Context) (s : Scene) who, s.world = w →
    (c.step s).instruction = some (.killWho who) →
    ∀ id agent, w.get? id = some agent → agent.who = who →
      (c.step s).scene.world = w.kill id
        ∧ ∀ other, (c.step s).scene.world.get? other = if other = id then none else w.get? other
  /-- If nobody has the number, the step changes nothing in the world. -/
  killWho_nobody : ∀ (c : Context) (s : Scene) who, s.world = w →
    (c.step s).instruction = some (.killWho who) →
    (∀ id agent, w.get? id = some agent → agent.who ≠ who) → (c.step s).scene.world = w

/-- **Numbers identify agents**, in every world that can be reached and in the midst of every
run. -/
theorem number_law {history : List Change} (h : Chronicle history w) : NumberLaw history w := by
  have hfind {who : Nat} {id : AgentId} :
      w.findByWho who = some id ↔ ∃ agent, w.get? id = some agent ∧ agent.who = who :=
    h.numbered.findByWho_eq_some_iff
  refine ⟨fun who hwho => ?_, ?_, fun id agent hget => ?_, fun a b first second =>
    h.numbered.eq_of_who_eq, fun who id => hfind, ?_, ?_⟩
  · rw [h.numbers_eq] at hwho
    exact List.mem_range.mp hwho
  · rw [h.numbers_eq]
    exact List.nodup_range
  · rw [h.numbers_eq]
    exact List.mem_range.mpr (h.indexed.who_lt_nextWho hget)
  · rintro c s who rfl hinstruction id agent hget hwho
    have hworld : (c.step s).scene.world = s.world.kill id := by
      rw [Context.world_step_killWho hinstruction, hfind.mpr ⟨agent, hget, hwho⟩]
    refine ⟨hworld, fun other => ?_⟩
    rw [hworld, get?_kill]
  · rintro c s who rfl hinstruction hnobody
    have hnone : s.world.findByWho who = none := by
      refine Option.eq_none_iff_forall_ne_some.mpr fun id hid => ?_
      obtain ⟨agent, hget, hwho⟩ := hfind.mp hid
      exact hnobody id agent hget hwho
    rw [Context.world_step_killWho hinstruction, hnone]

/-- How the pasture was reached, and what breeding has changed there. -/
theorem Chronicle.breeding :
    Chronicle (.replicate 3 (.create .turtle "cows") ++ [.kill ⟨2, 0⟩, .create .turtle "goats"]
        ++ Job.breeding.history .pasture .never)
      (Job.breeding.run .pasture false .never).scene.world :=
  Chronicle.run (((Chronicle.empty.createTurtles "cows" 3).kill ⟨2, 0⟩).create .turtle "goats")
    Job.breeding false .never

end World

/-- A cow that is about to kill the agent with a number. -/
def Context.butting (who : Nat) : Context :=
  (Context.new default none Kind.turtle.mask).reset ⟨3, 0⟩
    ⟨0, .command "butt" [.killWho who], none, 0⟩ 0

/-- The second calf is in the slot of the cow that has died, under a number of its own. To look for
the number of the cow does not find it. -/
theorem World.number_law_breeding :
    ∃ history s, Chronicle history s.world ∧ s = (Job.breeding.run .pasture false .never).scene
      ∧ World.empty.numbers history = [0, 1, 2, 3, 4, 5]
      ∧ s.world.findByWho 0 = none ∧ s.world.findByWho 5 = some ⟨1, 1⟩
      ∧ ((Context.butting 0).step s).scene.world = s.world
      ∧ ∀ id, ((Context.butting 5).step s).scene.world.get? id
        = if id = ⟨1, 1⟩ then none else s.world.get? id := by
  have hlaw := number_law Chronicle.breeding
  have hcow : (Job.breeding.run .pasture false .never).scene.world.findByWho 0 = none := by
    decide +kernel
  have hcalf : (Job.breeding.run .pasture false .never).scene.world.findByWho 5
      = some ⟨1, 1⟩ := by
    decide +kernel
  obtain ⟨agent, hget, hwho⟩ := (hlaw.findByWho_iff 5 ⟨1, 1⟩).mp hcalf
  refine ⟨_, _, Chronicle.breeding, rfl, by decide +kernel, hcow, hcalf, ?_, ?_⟩
  · refine hlaw.killWho_nobody _ _ 0 rfl rfl fun id agent hget hwho => ?_
    cases hcow.symm.trans ((hlaw.findByWho_iff 0 id).mpr ⟨agent, hget, hwho⟩)
  · exact (hlaw.killWho _ _ 5 rfl rfl _ agent hget hwho).2

end AgentSweep
