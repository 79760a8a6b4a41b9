import AgentSweep.Proofs.Job.Reachable
import AgentSweep.Proofs.World.Generations

/-!
# Whom a run visits

A run draws a snapshot of its set before anything else happens, and everything that becomes of its
entries can be said in terms of that snapshot and of the worlds in which their turns come
(`Job.VisitLaw`). The agents that run may make others and kill whom they like, themselves and those
already visited included. The law holds all the same (`Job.visit_law`): every entry has its turn
unless an agent before it fails, at its turn it is run if it is alive and counted as skipped if it
is not, and the counts in the summary are those of the turns.

Ids of dead agents are given out again in the end, and an agent made in the course of the run could
come by the id of a dead entry. It takes `AgentId.generations` kills in one slot for that to
happen.
-/

namespace AgentSweep

namespace Turn

variable {turn : Turn}

/-- What shows of a turn in the result of a run: whether an agent was run, and how it failed. -/
def account (turn : Turn) : Bool × Option JobFailure := (turn.started, turn.failure?)

theorem started_of_failure? (h : turn.failure? ≠ none) : turn.started = true := by
  obtain ⟨id, scene, _ | start⟩ := turn
  · exact absurd rfl h
  · rfl

end Turn

namespace Job

variable {job : Job} {s : Scene} {traceAgents : Bool}

/-! ## The law of visits -/

/-- **The law of visits** of a run that nobody calls off. -/
structure VisitLaw (job : Job) (s : Scene) (traceAgents : Bool) : Prop where
  /-- The snapshot holds the members that the set had before the run. -/
  perm_snapshot : (job.snapshot s).Perm (job.set.members s.world)
  /-- The entries take their turns in their order. -/
  prefix_snapshot : (job.turns s .never).map Turn.id <+: job.snapshot s
  /-- The entries whose agents are run stand in the snapshot in the order in which they are
  run. -/
  sublist_snapshot :
    (((job.turns s .never).filter Turn.started).map Turn.id).Sublist (job.snapshot s)
  /-- A turn comes in what the turns before it have left. -/
  scene_eq : ∀ before turn later, job.turns s .never = before ++ turn :: later →
    turn.scene = Turn.sceneAfter (job.opening s) before
  /-- An agent is run if and only if it is alive when its turn comes. -/
  started_eq : ∀ turn ∈ job.turns s .never, turn.started = turn.scene.world.isAlive turn.id
  /-- Every entry has its turn, unless an agent fails. -/
  map_id_eq : (∀ turn ∈ job.turns s .never, turn.failure? = none) →
    (job.turns s .never).map Turn.id = job.snapshot s
  /-- The run leaves behind what its last turn leaves. -/
  scene_run :
    (job.run s traceAgents .never).scene = Turn.sceneAfter (job.opening s) (job.turns s .never)
  /-- The history of the run leads from the world before it to the world that it leaves. -/
  world_run :
    (job.run s traceAgents .never).scene.world = s.world.after (job.history s .never)
  /-- The steps of the run are those of the agents that are run. -/
  steps_eq : (job.run s traceAgents .never).steps = (job.turns s .never).flatMap Turn.steps
  /-- An agent that is run takes a step at least, and all the steps of its turn are its own. -/
  agent_eq : ∀ turn ∈ job.turns s .never, (turn.started = true ↔ turn.steps ≠ [])
    ∧ ∀ record ∈ turn.steps, record.before.agent = some turn.id
  /-- A run that comes to its end has dealt with every entry, and counts what it did. -/
  of_ok : ∀ summary, (job.run s traceAgents .never).result = .ok summary →
    (job.turns s .never).map Turn.id = job.snapshot s
      ∧ summary.snapshot = (job.snapshot s).length
      ∧ summary.executed = (job.turns s .never).countP Turn.started
      ∧ summary.skipped
        = (job.turns s .never).countP (fun turn => !turn.scene.world.isAlive turn.id)
      ∧ summary.executed + summary.skipped = summary.snapshot
  /-- A run that fails does so in its last turn, and not in one before. -/
  of_error : ∀ failure, (job.run s traceAgents .never).result = .error failure →
    ∃ before last, job.turns s .never = before ++ [last]
      ∧ last.started = true ∧ last.failure? = some failure
      ∧ ∀ turn ∈ before, turn.failure? = none
  /-- No agent made in the course of the run is run: whoever is run was alive before. -/
  unborn : s.world.Reachable →
    (∀ slot, s.world.kills slot (job.history s .never) < AgentId.generations) →
    ∀ turn ∈ job.turns s .never, turn.started = true →
      turn.id ∉ s.world.born (job.history s .never)
        ∧ ∃ first now, s.world.get? turn.id = some first
          ∧ turn.scene.world.get? turn.id = some now ∧ now.SameAs first
          ∧ now.who < s.world.nextWho

/-! ## The snapshot -/

theorem perm_snapshot (job : Job) (s : Scene) :
    (job.snapshot s).Perm (job.set.members s.world) :=
  Roster.perm_upcoming_ofSet job.set s.world s.random

/-! ## How a run ends -/

theorem result_run (job : Job) (s : Scene) (traceAgents : Bool) (halt : HaltSignal) :
    (job.run s traceAgents halt).result
      = match (job.turns s halt).findSome? Turn.failure? with
        | some failure => .error failure
        | none =>
          if (job.turns s halt).length = (job.snapshot s).length then
            .ok ⟨(job.snapshot s).length, (job.turns s halt).countP Turn.started,
              (job.turns s halt).countP fun turn => !turn.started⟩
          else .error .halted := by
  rw [run_eq]
  dsimp only
  cases (job.turns s halt).findSome? Turn.failure? with
  | some failure => rfl
  | none => dsimp only; split <;> rfl

/-- The result of a run is told by the accounts of its turns. -/
theorem result_run_congr {other : Job} {t : Scene} {halt : HaltSignal}
    (hsnapshot : (job.snapshot s).length = (other.snapshot t).length)
    (hturns : (job.turns s halt).map Turn.account = (other.turns t halt).map Turn.account) :
    (job.run s traceAgents halt).result = (other.run t traceAgents halt).result := by
  have hlength := congrArg List.length hturns
  have hfailures := congrArg (List.findSome? Prod.snd) hturns
  have hcounts (p : Bool → Bool) := congrArg (List.countP fun account => p account.1) hturns
  simp only [List.length_map] at hlength
  simp only [List.findSome?_map, List.countP_map] at hfailures hcounts
  have hfailure : (job.turns s halt).findSome? Turn.failure?
      = (other.turns t halt).findSome? Turn.failure? := hfailures
  have hstarted : (job.turns s halt).countP Turn.started
      = (other.turns t halt).countP Turn.started := hcounts id
  have hskipped : (job.turns s halt).countP (fun turn => !turn.started)
      = (other.turns t halt).countP fun turn => !turn.started := hcounts not
  rw [result_run, result_run, hfailure, hlength, hsnapshot, hstarted, hskipped]

/-- A run in which no agent fails comes to its end. -/
theorem result_run_of_passed (h : ∀ turn ∈ job.turns s .never, turn.failure? = none) :
    (job.run s traceAgents .never).result
      = .ok ⟨(job.snapshot s).length, (job.turns s .never).countP Turn.started,
          (job.turns s .never).countP fun turn => !turn.started⟩ := by
  have hlength : (job.turns s .never).length = (job.snapshot s).length := by
    rw [← (job.takes_turns s .never).map_id_eq h, List.length_map]
  rw [result_run, List.findSome?_eq_none_iff.mpr h]
  exact if_pos hlength

/-- A run in which an agent fails ends with that agent. -/
theorem exists_last_of_failed (h : ¬ ∀ turn ∈ job.turns s .never, turn.failure? = none) :
    ∃ before last failure, job.turns s .never = before ++ [last]
      ∧ last.failure? = some failure ∧ (∀ turn ∈ before, turn.failure? = none)
      ∧ (job.run s traceAgents .never).result = .error failure := by
  cases hfind : (job.turns s .never).findSome? Turn.failure? with
  | none => exact absurd (List.findSome?_eq_none_iff.mp hfind) h
  | some failure =>
    obtain ⟨before, last, later, hturns, hlast, hbefore⟩ := List.findSome?_eq_some_iff.mp hfind
    have hlater := (job.takes_turns s .never).eq_nil_of_failure? hturns (by rw [hlast]; nofun)
    rw [hlater] at hturns
    exact ⟨before, last, failure, hturns, hlast, hbefore, by rw [result_run, hfind]⟩

/-! ## Who is run -/

/-- Whoever is run was alive before the run, and is still the same agent. -/
theorem unborn (h : s.world.Reachable)
    (hkills : ∀ slot, s.world.kills slot (job.history s .never) < AgentId.generations)
    {turn : Turn} (hturn : turn ∈ job.turns s .never) (hstarted : turn.started = true) :
    turn.id ∉ s.world.born (job.history s .never)
      ∧ ∃ first now, s.world.get? turn.id = some first
        ∧ turn.scene.world.get? turn.id = some now ∧ now.SameAs first
        ∧ now.who < s.world.nextWho := by
  have htakes := job.takes_turns s .never
  have hmem : turn.id ∈ job.set.members s.world :=
    (job.perm_snapshot s).mem_iff.mp
      (htakes.map_id_prefix.subset (List.mem_map.mpr ⟨turn, hturn, rfl⟩))
  obtain ⟨first, hfirst⟩ :=
    World.isAlive_iff.mp (AgentSet.isAlive_of_mem_members h.indexed hmem)
  obtain ⟨before, later, hturns⟩ := List.append_of_mem hturn
  have hworld : turn.scene.world = s.world.after (before.flatMap Turn.history) := by
    rw [htakes.scene_eq hturns, htakes.world_sceneAfter ⟨_, hturns.symm⟩, world_opening]
  -- what has happened before the turn is a part of the history, with no more kills than the whole
  have hbefore : s.world.kills turn.id.slot (before.flatMap Turn.history)
      < AgentId.generations := by
    have hall := hkills turn.id.slot
    rw [history, hturns, List.flatMap_append, World.kills_append] at hall
    omega
  have halive := (htakes.started_eq hturn).symm.trans hstarted
  rw [hworld] at halive ⊢
  obtain ⟨now, hnow, hsame⟩ := World.same_after hfirst hbefore halive
  refine ⟨World.notMem_born hfirst (hkills turn.id.slot), first, now, hfirst, hnow, hsame, ?_⟩
  rw [hsame.who_eq]
  exact h.indexed.who_lt_nextWho hfirst

theorem agent_of_mem_turns {halt : HaltSignal} {turn : Turn} (hturn : turn ∈ job.turns s halt) :
    (turn.started = true ↔ turn.steps ≠ [])
      ∧ ∀ record ∈ turn.steps, record.before.agent = some turn.id := by
  obtain ⟨id, scene, start⟩ := turn
  cases start with
  | none =>
    have hsteps : (Turn.mk id scene none).steps = [] := rfl
    rw [hsteps]
    exact ⟨⟨nofun, fun h => absurd rfl h⟩, fun _ hrecord => absurd hrecord List.not_mem_nil⟩
  | some start =>
    have hstate := (job.takes_turns s halt).start_eq hturn rfl
    have hfinished : start.finished = false := by rw [hstate]
    obtain ⟨later, hlater⟩ := Context.steps_run (s := scene) hfinished
    refine ⟨⟨fun _ => ?_, fun _ => rfl⟩, fun record hrecord => ?_⟩
    · show (start.run scene).steps.toList ≠ []
      rw [hlater]
      exact List.cons_ne_nil _ _
    · have hagent := (Context.sameRun_of_mem_run (Array.mem_toList_iff.mp hrecord)).agent_eq
      rw [hagent, hstate]

/-- **The law of visits.** -/
theorem visit_law (job : Job) (s : Scene) (traceAgents : Bool) : job.VisitLaw s traceAgents := by
  have htakes := job.takes_turns s .never
  refine ⟨job.perm_snapshot s, htakes.map_id_prefix, ?_, fun _ _ _ => htakes.scene_eq,
    fun _ => htakes.started_eq, htakes.map_id_eq, job.scene_run s traceAgents .never,
    job.world_run s traceAgents .never, job.steps_run s traceAgents .never,
    fun _ => agent_of_mem_turns, fun summary hok => ?_, fun failure herror => ?_,
    fun h hkills _ => unborn h hkills⟩
  · exact (List.filter_sublist.map Turn.id).trans htakes.map_id_prefix.sublist
  · by_cases hpassed : ∀ turn ∈ job.turns s .never, turn.failure? = none
    · have hsnapshot := htakes.map_id_eq hpassed
      rw [result_run_of_passed hpassed] at hok
      cases hok
      have hdead : (job.turns s .never).countP (fun turn => !turn.started)
          = (job.turns s .never).countP fun turn => !turn.scene.world.isAlive turn.id :=
        List.countP_congr fun turn hturn => by rw [htakes.started_eq hturn]
      have hrest : (job.turns s .never).countP (fun turn => !turn.started)
          = (job.turns s .never).countP fun turn => ¬turn.started = true :=
        List.countP_congr fun turn _ => by simp
      refine ⟨hsnapshot, rfl, rfl, hdead, ?_⟩
      show _ + _ = (job.snapshot s).length
      rw [hrest, ← hsnapshot, List.length_map, ← List.length_eq_countP_add_countP]
    · obtain ⟨_, _, _, _, _, _, herror⟩ := exists_last_of_failed hpassed
      rw [herror] at hok
      cases hok
  · -- nobody calls the run off, so that it can only have failed through an agent
    have hfailed : ¬ ∀ turn ∈ job.turns s .never, turn.failure? = none := by
      intro hpassed
      rw [result_run_of_passed hpassed] at herror
      cases herror
    obtain ⟨before, last, _, hturns, hlast, hbefore, hresult⟩ := exists_last_of_failed hfailed
    rw [hresult] at herror
    cases herror
    exact ⟨before, last, hturns, Turn.started_of_failure? (by rw [hlast]; nofun), hlast, hbefore⟩

/-- Every cow kills the third agent that was ever made, and has a calf. -/
def culling : Job where
  owner := default
  set := .breed .turtle "cows"
  procedure := .command "cull" [.killWho 2, .hatch "cows"]
  address := 0
  caller := none

/-- When its turn comes, the second cow is dead and its slot belongs to the calf of the first one.
The cow is skipped, and the calf is not run. -/
theorem visit_law_culling :
    Scene.pasture.world.Reachable
      ∧ (∀ slot,
        Scene.pasture.world.kills slot (culling.history .pasture .never) < AgentId.generations)
      ∧ (culling.run .pasture true .never).result.toOption = some ⟨2, 1, 1⟩
      ∧ (culling.turns .pasture .never).map (fun turn => (turn.id, turn.started))
        = [(⟨1, 0⟩, true), (⟨3, 0⟩, false)]
      ∧ Scene.pasture.world.born (culling.history .pasture .never) = [⟨3, 1⟩]
      ∧ ∀ turn ∈ culling.turns .pasture .never, turn.started = true →
        turn.id ∉ Scene.pasture.world.born (culling.history .pasture .never) := by
  have hlength : (culling.history .pasture .never).length = 3 := by decide +kernel
  have hkills (slot : Nat) :
      Scene.pasture.world.kills slot (culling.history .pasture .never) < AgentId.generations := by
    have hle := Scene.pasture.world.kills_le_length slot (culling.history .pasture .never)
    rw [hlength] at hle
    exact Nat.lt_of_le_of_lt hle (by decide)
  have hlaw := visit_law culling .pasture true
  refine ⟨World.Reachable.pasture, hkills, by decide +kernel, by decide +kernel,
    by decide +kernel, fun turn hturn hstarted => ?_⟩
  exact (hlaw.unborn World.Reachable.pasture hkills turn hturn hstarted).1

end Job

end AgentSweep
