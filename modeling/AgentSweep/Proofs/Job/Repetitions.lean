import AgentSweep.Proofs.Job.Visits
import Mathlib.Data.List.Dedup

/-!
# How often an agent is in a set

A breed set names each agent once. A fixed set lists ids as somebody wrote them down, and nobody
looks for repetitions: an agent that is listed twice counts as two members, and a run over the set
runs it twice.

So it depends on its list whether a fixed set is a set of agents (`AgentSet.NamesOnce`). If no
living agent is listed more than once, the set holds every agent once, its count is the number of
different agents in it, and a run starts nobody a second time. In general each of the three is a
matter of how often agents are listed (`Job.repetition_law`).
-/

namespace AgentSweep

namespace AgentSet

variable {set : AgentSet} {w : World} {id : AgentId}

/-- **How often a set names an agent.** A breed set names whoever says that it is in the breed. -/
def mentions (set : AgentSet) (w : World) (id : AgentId) : Nat :=
  match set with
  | breed _ name => if (w.get? id).any fun agent => agent.breed == name then 1 else 0
  | fixed _ ids => ids.count id

/-- **No living agent is named twice.** -/
def NamesOnce (set : AgentSet) (w : World) : Prop :=
  ∀ id, w.isAlive id = true → set.mentions w id ≤ 1

/-- How many different members there are. -/
def distinct (set : AgentSet) (w : World) : Nat := (set.members w).dedup.length

theorem any_breed_iff {name : String} :
    ((w.get? id).any fun agent => agent.breed == name) = true
      ↔ ∃ agent, w.get? id = some agent ∧ agent.breed = name := by
  simp [Option.any_eq_true]

/-- **A living agent is a member as often as the set names it**, and a dead one is none. -/
theorem count_members (h : w.Indexed) (set : AgentSet) (id : AgentId) :
    (set.members w).count id = if w.isAlive id then set.mentions w id else 0 := by
  cases set with
  | breed kind name =>
    rw [members, (h.nodup_members name).count, mentions]
    by_cases hmem : id ∈ w.members name
    · rw [if_pos hmem, if_pos (h.isAlive_of_mem_members hmem),
        if_pos (any_breed_iff.mpr (h.mem_members_iff.mp hmem))]
    · rw [if_neg hmem, if_neg fun hany => hmem (h.mem_members_iff.mpr (any_breed_iff.mp hany)),
        ite_self]
  | fixed kind ids =>
    rw [members, mentions]
    by_cases halive : w.isAlive id = true
    · rw [if_pos halive, List.count_filter halive]
    · rw [if_neg halive, List.count_eq_zero]
      exact fun hmem => halive (List.mem_filter.mp hmem).2

/-- The members are different agents if and only if no living agent is named twice. -/
theorem nodup_members_iff (h : w.Indexed) : (set.members w).Nodup ↔ set.NamesOnce w := by
  rw [List.nodup_iff_count_le_one]
  refine forall_congr' fun id => ?_
  rw [count_members h]
  by_cases halive : w.isAlive id = true
  · rw [if_pos halive]
    exact ⟨fun h _ => h, fun h => h halive⟩
  · rw [if_neg halive]
    exact iff_of_true (Nat.zero_le 1) fun h => absurd h halive

theorem namesOnce_breed (w : World) (kind : Kind) (name : String) :
    (breed kind name).NamesOnce w := by
  intro id _
  rw [mentions]
  split
  · exact Nat.le_refl 1
  · exact Nat.zero_le 1

theorem namesOnce_fixed (w : World) (kind : Kind) {ids : List AgentId} (h : ids.Nodup) :
    (fixed kind ids).NamesOnce w :=
  fun id _ => List.nodup_iff_count_le_one.mp h id

/-- A set has at least as many members as there are agents in it. -/
theorem distinct_le_count (set : AgentSet) (w : World) : set.distinct w ≤ set.count w := by
  rw [distinct, count_eq_length]
  exact (List.dedup_sublist _).length_le

theorem distinct_eq_count_iff : set.distinct w = set.count w ↔ (set.members w).Nodup := by
  rw [distinct, count_eq_length, ← List.dedup_eq_self]
  exact ⟨(List.dedup_sublist _).eq_of_length, congrArg List.length⟩

end AgentSet

namespace Job

variable {job : Job} {s : Scene} {traceAgents : Bool} {halt : HaltSignal}

/-- **The agents that a run starts**, in the order in which it does. -/
def started (job : Job) (s : Scene) (halt : HaltSignal) : List AgentId :=
  ((job.turns s halt).filter Turn.started).map Turn.id

theorem sublist_started (job : Job) (s : Scene) (halt : HaltSignal) :
    (job.started s halt).Sublist (job.snapshot s) := by
  have htakes := job.takes_turns s halt
  exact (List.filter_sublist.map Turn.id).trans htakes.map_id_prefix.sublist

/-- **Nobody is started more often than it is a member.** -/
theorem count_started_le (job : Job) (s : Scene) (halt : HaltSignal) (id : AgentId) :
    (job.started s halt).count id ≤ (job.set.members s.world).count id := by
  rw [← (job.perm_snapshot s).count_eq id]
  exact (job.sublist_started s halt).count_le id

theorem nodup_started (halt : HaltSignal) (h : (job.set.members s.world).Nodup) :
    (job.started s halt).Nodup :=
  (job.sublist_started s halt).nodup ((job.perm_snapshot s).nodup_iff.mpr h)

/-- A run that comes to its end has gone through its snapshot, and counts those that it started. -/
theorem turns_of_ok {summary : Summary}
    (h : (job.run s traceAgents halt).result = .ok summary) :
    (job.turns s halt).map Turn.id = job.snapshot s
      ∧ summary.executed = (job.started s halt).length := by
  have htakes := job.takes_turns s halt
  rw [result_run] at h
  split at h
  · cases h
  · split at h
    · next hlength =>
      cases h
      rw [started, List.length_map, ← List.countP_eq_length_filter]
      exact ⟨htakes.map_id_prefix.eq_of_length (by rw [List.length_map, hlength]), rfl⟩
    · cases h

/-- **Whoever is alive whenever its turn comes is started as often as it is a member.** -/
theorem count_started_eq {summary : Summary} {id : AgentId}
    (h : (job.run s traceAgents halt).result = .ok summary)
    (halive : ∀ turn ∈ job.turns s halt, turn.id = id → turn.scene.world.isAlive id = true) :
    (job.started s halt).count id = (job.set.members s.world).count id := by
  have htakes := job.takes_turns s halt
  rw [← (job.perm_snapshot s).count_eq id, ← (turns_of_ok h).1, started, List.count_eq_countP,
    List.count_eq_countP, List.countP_map, List.countP_map, List.countP_filter]
  refine List.countP_congr fun turn hturn => ?_
  rw [Bool.and_eq_true, htakes.started_eq hturn]
  refine and_iff_left_of_imp fun hid => ?_
  have hid : turn.id = id := eq_of_beq hid
  rw [hid]
  exact halive turn hturn hid

/-- **What a run makes of the repetitions in its set.** -/
structure Repeats (job : Job) (s : Scene) (traceAgents : Bool) (halt : HaltSignal) : Prop where
  /-- Whoever is started was a living member before the run, and is started no more often than it
  was one. -/
  count_le : ∀ id, (job.started s halt).count id ≤ (job.set.members s.world).count id
  isAlive : ∀ id ∈ job.started s halt, s.world.isAlive id = true
  /-- Where nobody is named twice, nobody is started twice. -/
  nodup : job.set.NamesOnce s.world → (job.started s halt).Nodup
  /-- A run that comes to its end counts those whom it started, repetitions and all. -/
  executed_eq : ∀ summary, (job.run s traceAgents halt).result = .ok summary →
    summary.executed = (job.started s halt).length
      ∧ summary.executed ≤ job.set.count s.world
      ∧ (job.set.NamesOnce s.world → summary.executed ≤ job.set.distinct s.world)
  /-- Whoever does not die in the course of it is started as often as it was a member. -/
  count_eq : ∀ summary, (job.run s traceAgents halt).result = .ok summary →
    ∀ id, (∀ turn ∈ job.turns s halt, turn.id = id → turn.scene.world.isAlive id = true) →
      (job.started s halt).count id = (job.set.members s.world).count id

theorem repeats (job : Job) (s : Scene) (traceAgents : Bool) (halt : HaltSignal)
    (h : s.world.Indexed) : job.Repeats s traceAgents halt := by
  have hnodup (honce : job.set.NamesOnce s.world) := (AgentSet.nodup_members_iff h).mpr honce
  have hlength : (job.started s halt).length ≤ job.set.count s.world := by
    rw [AgentSet.count_eq_length, ← (job.perm_snapshot s).length_eq]
    exact (job.sublist_started s halt).length_le
  refine ⟨job.count_started_le s halt, fun id hid => ?_, fun honce => nodup_started halt
    (hnodup honce), fun summary hok => ?_, fun summary hok id => count_started_eq hok⟩
  · exact AgentSet.isAlive_of_mem_members h
      ((job.perm_snapshot s).mem_iff.mp ((job.sublist_started s halt).subset hid))
  · rw [(turns_of_ok hok).2]
    exact ⟨rfl, hlength, fun honce => AgentSet.distinct_eq_count_iff.mpr (hnodup honce) ▸ hlength⟩

/-- **A set is a set of agents as far as it names each of them once.** A living agent is a member of
a set as often as the set names it. If no living agent is named twice – as it is with every breed
set, and with a fixed set whose list is without repetitions – the members are different agents,
there are as many of them as the count says, and a run starts each of them at most once. Otherwise
some agent stands among the members more than once, the count is larger than the number of different
members, and a run starts an agent up to as often as it is listed. -/
theorem repetition_law (job : Job) (s : Scene) (traceAgents : Bool) (halt : HaltSignal)
    (h : s.world.Reachable) :
    (∀ set : AgentSet,
        (∀ id, (set.members s.world).count id
          = if s.world.isAlive id then set.mentions s.world id else 0)
        ∧ ((set.members s.world).Nodup ↔ set.NamesOnce s.world)
        ∧ set.distinct s.world ≤ set.count s.world
        ∧ (set.distinct s.world = set.count s.world ↔ set.NamesOnce s.world))
      ∧ (∀ kind name, (AgentSet.breed kind name).NamesOnce s.world)
      ∧ (∀ kind ids, ids.Nodup → (AgentSet.fixed kind ids).NamesOnce s.world)
      ∧ job.Repeats s traceAgents halt := by
  have hindexed := h.indexed
  refine ⟨fun set => ⟨AgentSet.count_members hindexed set, AgentSet.nodup_members_iff hindexed,
      set.distinct_le_count s.world,
      AgentSet.distinct_eq_count_iff.trans (AgentSet.nodup_members_iff hindexed)⟩,
    AgentSet.namesOnce_breed s.world, fun kind ids => AgentSet.namesOnce_fixed s.world kind,
    job.repeats s traceAgents halt hindexed⟩

/-- The first cow is called twice, the second one once, and the dead one in between. -/
def callingTwice : Job where
  owner := default
  set := .fixed .turtle [⟨1, 0⟩, ⟨2, 0⟩, ⟨3, 0⟩, ⟨1, 0⟩]
  procedure := .command "call" [.print .who]
  address := 0
  caller := none

/-- The same agents without a repetition. -/
def callingOnce : Job := { callingTwice with set := .fixed .turtle [⟨1, 0⟩, ⟨2, 0⟩, ⟨3, 0⟩] }

/-- Two members of three are different agents, and the one that is listed twice is run twice. -/
theorem repetition_law_calling :
    Scene.pasture.world.Reachable
      ∧ [(⟨1, 0⟩ : AgentId), ⟨2, 0⟩, ⟨3, 0⟩].Nodup
      ∧ callingOnce.set.NamesOnce Scene.pasture.world
      ∧ (callingOnce.started .pasture .never).Nodup
      ∧ (callingOnce.run .pasture false .never).result = .ok ⟨2, 2, 0⟩
      ∧ 2 ≤ callingOnce.set.distinct Scene.pasture.world
      ∧ (callingTwice.run .pasture false .never).result = .ok ⟨3, 3, 0⟩
      ∧ (callingTwice.started .pasture .never).count ⟨1, 0⟩ = 2 := by
  obtain ⟨-, -, hfixed, honce⟩ := callingOnce.repetition_law .pasture false .never .pasture
  obtain ⟨hsets, -, -, htwice⟩ := callingTwice.repetition_law .pasture false .never .pasture
  have hids : [(⟨1, 0⟩ : AgentId), ⟨2, 0⟩, ⟨3, 0⟩].Nodup := by decide
  have hnames := hfixed .turtle _ hids
  have hok : (callingOnce.run .pasture false .never).result = .ok ⟨2, 2, 0⟩ := by decide +kernel
  have hagain : (callingTwice.run .pasture false .never).result = .ok ⟨3, 3, 0⟩ := by
    decide +kernel
  have hmember : (callingTwice.set.members Scene.pasture.world).count ⟨1, 0⟩ = 2 := by
    decide +kernel
  have hliving : ∀ turn ∈ callingTwice.turns .pasture .never, turn.id = ⟨1, 0⟩ →
      turn.scene.world.isAlive ⟨1, 0⟩ = true := by
    decide +kernel
  exact ⟨.pasture, hids, hnames, honce.nodup hnames, hok,
    (honce.executed_eq _ hok).2.2 hnames, hagain,
    (htwice.count_eq _ hagain ⟨1, 0⟩ hliving).trans hmember⟩

/-- **A fixed set need not be a set**: an agent that is listed twice is two members, counts twice
and is run twice. -/
theorem callingTwice_repeats :
    Scene.pasture.world.Reachable
      ∧ callingTwice.set.members Scene.pasture.world = [⟨1, 0⟩, ⟨3, 0⟩, ⟨1, 0⟩]
      ∧ ¬ (callingTwice.set.members Scene.pasture.world).Nodup
      ∧ callingTwice.set.distinct Scene.pasture.world = 2
      ∧ callingTwice.set.count Scene.pasture.world = 3
      ∧ ¬ (callingTwice.started .pasture .never).Nodup
      ∧ (callingTwice.run .pasture false .never).result = .ok ⟨3, 3, 0⟩ :=
  ⟨.pasture, by decide +kernel, by decide +kernel, by decide +kernel, by decide +kernel,
    by decide +kernel, by decide +kernel⟩

end Job

end AgentSweep
