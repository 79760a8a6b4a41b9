import AgentSweep.Proofs.Job.Turns
import AgentSweep.Proofs.World.BreedIndex

/-!
# Reachable worlds

What a job does to a world is a history: that of its turns, one after the other, for a run
(`Job.world_run`), and that of a single agent for a report (`Job.world_report`). A world that can
be reached from the empty one by making and killing agents, by writing their variables and by jobs
is therefore nothing but what some history leads to (`World.Reachable.exists_history`), and
whatever every change preserves holds in it.

The main result is that in every reachable world the breeds are an index of the agents
(`World.Reachable.breed_index`).
-/

namespace AgentSweep

/-! ## What a job does to a world -/

/-- The changes that the run of a turn's agent makes. -/
def Turn.history (t : Turn) : List Change :=
  match t.start with
  | some c => c.history t.scene
  | none => []

theorem Turn.world_after {id : AgentId} {s : Scene} {c : Context} (h : c.finished = false) :
    (Turn.mk id s (some c)).after.world = s.world.after (Turn.mk id s (some c)).history :=
  Context.world_run h

namespace Job

variable {job : Job} {halt : HaltSignal}

/-- **The changes that a run makes**, in their order. -/
def history (job : Job) (s : Scene) (halt : HaltSignal) : List Change :=
  (job.turns s halt).flatMap Turn.history

/-- Some turns, from the first one on, change the world by their histories. -/
theorem Takes.world_sceneAfter {entry : Frame} {ids : List AgentId} {c : Context} {s : Scene}
    {steps : Nat} {turns before : List Turn} (h : job.Takes halt entry ids c s steps turns)
    (hbefore : before <+: turns) :
    (Turn.sceneAfter s before).world = s.world.after (before.flatMap Turn.history) := by
  induction h generalizing before with
  | nil | halted =>
    rw [List.prefix_nil.mp hbefore]
    rfl
  | skipped _ _ ih =>
    cases before with
    | nil => rfl
    | cons first before =>
      obtain ⟨rfl, hrest⟩ := List.cons_prefix_cons.mp hbefore
      exact (ih hrest :)
  | passed _ _ _ ih =>
    cases before with
    | nil => rfl
    | cons first before =>
      obtain ⟨rfl, hrest⟩ := List.cons_prefix_cons.mp hbefore
      rw [List.flatMap_cons, World.after_append, ← Turn.world_after rfl]
      exact ih hrest
  | failed =>
    -- there are no turns after this one
    cases before with
    | nil => rfl
    | cons first before =>
      obtain ⟨rfl, hrest⟩ := List.cons_prefix_cons.mp hbefore
      rw [List.prefix_nil.mp hrest, List.flatMap_singleton, ← Turn.world_after rfl]
      rfl

theorem scene_run (job : Job) (s : Scene) (traceAgents : Bool) (halt : HaltSignal) :
    (job.run s traceAgents halt).scene
      = Turn.sceneAfter (job.opening s) (job.turns s halt) := by
  rw [run_eq]
  dsimp only
  split
  · rfl
  · split <;> rfl

/-- **A run changes the world by its history.** -/
theorem world_run (job : Job) (s : Scene) (traceAgents : Bool) (halt : HaltSignal) :
    (job.run s traceAgents halt).scene.world = s.world.after (job.history s halt) := by
  rw [scene_run, (job.takes_turns s halt).world_sceneAfter List.prefix_rfl, world_opening]
  rfl

/-- The changes that a report makes: those of the agent for which it is made. -/
def reportHistory (job : Job) (s : Scene) : List Change :=
  match job.set.first? s.world with
  | none => []
  | some agent =>
    ((Context.new job.owner (some agent) job.set.tag).enter
      (s.makeFrame job.procedure none 0).1).history (s.makeFrame job.procedure none 0).2

/-- A report changes the world by its history. -/
theorem world_report (job : Job) (s : Scene) :
    (job.report s).scene.world = s.world.after (job.reportHistory s) := by
  unfold report reportHistory
  cases job.set.first? s.world with
  | none => rfl
  | some agent =>
    refine Eq.trans ?_ (Context.world_evaluate (.new job.owner (some agent) job.set.tag)
      (s.makeFrame job.procedure none 0).2 (s.makeFrame job.procedure none 0).1)
    dsimp only
    split <;> rfl

end Job

/-! ## Reachable worlds -/

namespace World

/-- **The worlds that can be reached from the empty one.** -/
inductive Reachable : World → Prop where
  | empty : Reachable .empty
  | create {w : World} (h : Reachable w) (kind : Kind) (breed : String) :
      Reachable (w.create kind breed).2
  | createTurtles {w : World} (h : Reachable w) (breed : String) (number : Nat) :
      Reachable (w.createTurtles breed number).2
  /-- Any id can be killed, whether it names somebody or not. -/
  | kill {w : World} (h : Reachable w) (id : AgentId) : Reachable (w.kill id)
  | write {w : World} (h : Reachable w) (id : AgentId) (f : Bindings Value → Bindings Value) :
      Reachable (w.write id f)
  | run {s : Scene} (h : Reachable s.world) (job : Job) (traceAgents : Bool)
      (halt : HaltSignal) : Reachable (job.run s traceAgents halt).scene.world
  | report {s : Scene} (h : Reachable s.world) (job : Job) :
      Reachable (job.report s).scene.world

namespace Reachable

variable {w : World}

/-- **A reachable world is what a history leads to.** -/
theorem exists_history (h : w.Reachable) : ∃ history, w = World.empty.after history := by
  induction h with
  | empty => exact ⟨[], rfl⟩
  | create _ kind breed ih =>
    obtain ⟨history, rfl⟩ := ih
    exact ⟨_, (World.empty.after_append history [.create kind breed]).symm⟩
  | createTurtles _ breed number ih =>
    obtain ⟨history, rfl⟩ := ih
    exact ⟨history ++ .replicate number (.create .turtle breed), by
      rw [createTurtles_eq_after, after_append]⟩
  | kill _ id ih =>
    obtain ⟨history, rfl⟩ := ih
    exact ⟨_, (World.empty.after_append history [.kill id]).symm⟩
  | write _ id f ih =>
    obtain ⟨history, rfl⟩ := ih
    exact ⟨_, (World.empty.after_append history [.write id f]).symm⟩
  | run _ job traceAgents halt ih =>
    obtain ⟨history, heq⟩ := ih
    exact ⟨history ++ job.history _ halt, by rw [Job.world_run, heq, after_append]⟩
  | report _ job ih =>
    obtain ⟨history, heq⟩ := ih
    exact ⟨history ++ job.reportHistory _, by rw [Job.world_report, heq, after_append]⟩

theorem indexed (h : w.Reachable) : w.Indexed := by
  obtain ⟨history, rfl⟩ := h.exists_history
  exact Indexed.empty.after history

/-- **In every reachable world the breeds are an index of the agents.** A living agent stands once
in the list of its breed and in no other, the lists name the living agents of their breeds and
nobody else, each in the order of their numbers, and together they are as long as there are
agents. -/
theorem breed_index (h : w.Reachable) :
    (∀ id agent, w.get? id = some agent →
        (w.members agent.breed).count id = 1
          ∧ ∀ breed, breed ≠ agent.breed → id ∉ w.members breed)
      ∧ (∀ breed, ∀ id ∈ w.members breed, ∃ agent, w.get? id = some agent ∧ agent.breed = breed)
      ∧ (∀ breed, (w.members breed).Pairwise w.Older)
      ∧ w.breeds.names.Nodup
      ∧ (∀ breed, breed ∉ w.breeds.names → w.members breed = [])
      ∧ w.count = (w.breeds.names.map fun breed => (w.members breed).length).sum := by
  have hindexed := h.indexed
  refine ⟨fun id agent hget => ⟨?_, fun breed hne hmem => ?_⟩,
    fun breed id hmem => hindexed.mem_members_iff.mp hmem, hindexed.pairwise_older,
    hindexed.nodup_names, fun breed hnotMem => ?_, hindexed.count_eq_sum⟩
  · have hmem : id ∈ w.members agent.breed := hindexed.mem_members_iff.mpr ⟨agent, hget, rfl⟩
    exact (hindexed.nodup_members agent.breed).count.trans (if_pos hmem)
  · exact hne (hindexed.breed_eq_of_mem_members hget hmem)
  · rw [members, Bindings.get?_eq_none_of_notMem_names hnotMem]

end Reachable

end World

/-- Three cows, the second of whom has died and left its slot to a goat. -/
def Scene.pasture : Scene :=
  ⟨(((World.empty.createTurtles "cows" 3).2.kill ⟨2, 0⟩).create .turtle "goats").2, .ofSeed 7, 0⟩

/-- Every cow has a calf, and the oldest one dies of it. -/
def Job.breeding : Job where
  owner := default
  set := .breed .turtle "cows"
  procedure := .command "breed" [.call (.command "calve" [.hatch "cows", .killWho 0])]
  address := 0
  caller := none

theorem World.Reachable.pasture : Scene.pasture.world.Reachable :=
  ((empty.createTurtles "cows" 3).kill ⟨2, 0⟩).create .turtle "goats"

/-- The second calf is in the slot of the dead cow, and stands after the first one. -/
theorem World.Reachable.breed_index_breeding :
    (Job.breeding.run .pasture false .never).scene.world.Reachable
      ∧ (Job.breeding.run .pasture false .never).scene.world.members "cows"
          = [⟨3, 0⟩, ⟨4, 0⟩, ⟨1, 1⟩]
      ∧ ((Job.breeding.run .pasture false .never).scene.world.members "cows").Pairwise
          (Job.breeding.run .pasture false .never).scene.world.Older
      ∧ (Job.breeding.run .pasture false .never).scene.world.count
          = ((Job.breeding.run .pasture false .never).scene.world.breeds.names.map fun breed =>
              ((Job.breeding.run .pasture false .never).scene.world.members breed).length).sum := by
  have h := pasture.run Job.breeding false .never
  obtain ⟨-, -, hpairwise, -, -, hcount⟩ := breed_index h
  exact ⟨h, by decide +kernel, hpairwise "cows", hcount⟩

end AgentSweep
