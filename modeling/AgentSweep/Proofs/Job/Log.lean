import AgentSweep.Proofs.Job.Trails
import AgentSweep.Proofs.Job.Visits

/-!
# The log of a run

The log tells of a run what can be seen of it (`Job.log_law`). It begins with the size of the
snapshot. Of every agent that is run it then tells, in the order of their turns, who the agent is –
if that is asked for – and each instruction to which its run comes. It closes with one entry, from
which it can be seen how the run has ended: `Job.lastEntry` is a function of the result.

Not every step has an entry. A step that leaves a body at its end, or that is refused before it
comes to an instruction, goes without one (`Context.present?`).
-/

namespace AgentSweep

/-- **The log of a job**: the entries of those events that have one. -/
def JobCourse.log {α : Type} (course : JobCourse α) : List LogEntry :=
  course.events.toList.filterMap Event.logEntry?

namespace Context

/-- **The instruction to which a context has come**, and the procedure in which it stands. There is
none in a body that the tag may not run, and none at the end of a body or behind it. -/
def present? (c : Context) : Option (Procedure × Instruction) :=
  match c.frame with
  | none => none
  | some frame =>
    if c.tag.intersects frame.procedure.usableBy then
      frame.procedure.code[c.ip]?.map fun i => (frame.procedure, i)
    else none

/-- What the log tells of the step that is taken in a context. -/
def stepLog? (c : Context) : Option LogEntry :=
  c.present?.map fun (p, i) =>
    ⟨.trace, "step", [("procedure", p.name), ("ip", toString c.ip), ("op", i.mnemonic)]⟩

/-- A step runs the instruction to which its context has come. -/
theorem instruction_step (c : Context) (s : Scene) :
    (c.step s).instruction = c.present?.map Prod.snd := by
  unfold step present?
  cases c.frame with
  | none => rfl
  | some frame =>
    dsimp only
    split
    · cases frame.procedure.code[c.ip]? with
      | some i => rfl
      | none => dsimp only; split <;> rfl
    · rfl

/-- The entry of a step is told by the context in which it is taken. -/
theorem log_recordOf (c : Context) (s : Scene) :
    Event.logEntry? (.step (c.recordOf s)) = c.stepLog? := by
  simp only [recordOf, instruction_step, Event.logEntry?, stepLog?, procedureName, present?]
  cases c.frame with
  | none => rfl
  | some frame =>
    dsimp only
    split
    · cases frame.procedure.code[c.ip]? <;> rfl
    · rfl

theorem message_of_stepLog? {c : Context} {entry : LogEntry} (h : c.stepLog? = some entry) :
    entry.message = "step" := by
  obtain ⟨_, -, rfl⟩ := Option.map_eq_some_iff.mp h
  rfl

end Context

namespace Turn

/-- What the log tells of an agent that is run. -/
def entries (traceAgents : Bool) (t : Turn) : List LogEntry :=
  (if traceAgents then [⟨.trace, "running agent", [("agent", t.scene.world.title t.id)]⟩] else [])
    ++ t.trail.filterMap fun b => b.1.stepLog?

theorem message_of_mem_entries {traceAgents : Bool} {t : Turn} {entry : LogEntry}
    (h : entry ∈ t.entries traceAgents) :
    entry.message = "running agent" ∨ entry.message = "step" := by
  rcases List.mem_append.mp h with hvisit | hstep
  · split at hvisit
    · exact .inl (by rw [List.mem_singleton.mp hvisit])
    · cases hvisit
  · obtain ⟨b, -, hb⟩ := List.mem_filterMap.mp hstep
    exact .inr (Context.message_of_stepLog? hb)

/-- Who is run is told on request only, and nothing else is told on request. -/
theorem entries_false (t : Turn) :
    t.entries false = (t.entries true).filter fun entry => entry.message != "running agent" := by
  have hsteps : (t.trail.filterMap fun b => b.1.stepLog?).filter
      (fun entry => entry.message != "running agent")
        = t.trail.filterMap fun b => b.1.stepLog? := by
    refine List.filter_eq_self.mpr fun entry hentry => ?_
    obtain ⟨b, -, hb⟩ := List.mem_filterMap.mp hentry
    rw [Context.message_of_stepLog? hb]
    rfl
  rw [entries, entries, if_pos rfl, List.filter_append, hsteps]
  rfl

end Turn

namespace Job

variable {job : Job} {s : Scene} {traceAgents : Bool} {halt : HaltSignal}

/-- The turns in which an agent is run. -/
def passes (job : Job) (s : Scene) (halt : HaltSignal) : List Turn :=
  (job.turns s halt).filter Turn.started

/-- How many agents are run without a failure. -/
def completed (job : Job) (s : Scene) (halt : HaltSignal) : Nat :=
  (job.passes s halt).countP fun turn => turn.failure?.isNone

/-- How the log of a run begins. -/
def firstEntry (job : Job) (s : Scene) : LogEntry :=
  ⟨.debug, "exclusive job started",
    [("owner", job.owner.name), ("procedure", job.procedure.name),
      ("agents", toString (job.snapshot s).length)]⟩

/-- **How the log of a run ends**, given how many agents have been run without a failure and what
the run comes to. -/
def lastEntry (job : Job) (completed : Nat) : Except JobFailure Summary → LogEntry
  | .ok summary =>
    ⟨.debug, "exclusive job finished",
      [("owner", job.owner.name), ("executed", toString summary.executed),
        ("skipped", toString summary.skipped)]⟩
  | .error .halted =>
    ⟨.warn, "exclusive job halted",
      [("owner", job.owner.name), ("executed", toString completed)]⟩
  | .error failure =>
    ⟨.warn, "exclusive job aborted", [("owner", job.owner.name), ("error", failure.message)]⟩

/-! ## The law of the log -/

/-- **The law of the log** of a run. -/
structure LogLaw (job : Job) (s : Scene) (traceAgents : Bool) (halt : HaltSignal) : Prop where
  /-- The log tells of the beginning of the run, of each agent that is run, and of its end. -/
  log_eq : (job.run s traceAgents halt).log
    = job.firstEntry s :: (job.passes s halt).flatMap (Turn.entries traceAgents)
      ++ [job.lastEntry (job.completed s halt) (job.run s traceAgents halt).result]
  /-- What it tells of the agents can be taken neither for its beginning nor for its end. -/
  message_of_mem : ∀ turn ∈ job.passes s halt, ∀ entry ∈ turn.entries traceAgents,
    entry.message = "running agent" ∨ entry.message = "step"
  /-- The agents are run in the order of the snapshot. -/
  sublist_snapshot : ((job.passes s halt).map Turn.id).Sublist (job.snapshot s)
  /-- An agent that is run is alive as its turn comes, and goes through the states of its run. -/
  trail_eq : ∀ turn ∈ job.passes s halt, turn.scene.world.isAlive turn.id = true
    ∧ turn.trail = (job.ready s turn.id).trail turn.scene
  /-- The end is told as a success if and only if the run is one. -/
  finished_iff :
    (job.lastEntry (job.completed s halt) (job.run s traceAgents halt).result).message
        = "exclusive job finished"
      ↔ ∃ summary, (job.run s traceAgents halt).result = .ok summary
  /-- It is told as a halt if and only if the run was called off. -/
  halted_iff :
    (job.lastEntry (job.completed s halt) (job.run s traceAgents halt).result).message
        = "exclusive job halted"
      ↔ (job.run s traceAgents halt).result = .error .halted
  /-- It is told as an error if and only if there was a fault. -/
  aborted_iff :
    (job.lastEntry (job.completed s halt) (job.run s traceAgents halt).result).message
        = "exclusive job aborted"
      ↔ ∃ procedure agent address cause, (job.run s traceAgents halt).result
        = .error (.fault procedure agent address cause)

/-! ## What an event has in the log -/

/-- The events of a turn are told if an agent is run in it. -/
theorem filterMap_events {turn : Turn} (hturn : turn ∈ job.turns s halt) :
    (turn.events traceAgents).filterMap Event.logEntry?
      = if turn.started then turn.entries traceAgents else [] := by
  rw [Turn.events, steps_turn_eq_map_trail hturn, List.filterMap_append, List.map_map,
    List.filterMap_map]
  have hsteps : Event.logEntry? ∘ Event.step ∘ (fun b : Context × Scene => b.1.recordOf b.2)
      = fun b => b.1.stepLog? :=
    funext fun b => Context.log_recordOf b.1 b.2
  rw [hsteps]
  cases hstarted : turn.started with
  | true => cases traceAgents <;> rfl
  | false =>
    rw [Turn.trail_of_skipped hstarted, Bool.and_false]
    rfl

theorem filterMap_flatMap_events (job : Job) (s : Scene) (traceAgents : Bool)
    (halt : HaltSignal) :
    ((job.turns s halt).flatMap (Turn.events traceAgents)).filterMap Event.logEntry?
      = (job.passes s halt).flatMap (Turn.entries traceAgents) := by
  have hfilter (turns : List Turn) :
      turns.flatMap (fun turn => if turn.started then turn.entries traceAgents else [])
        = (turns.filter Turn.started).flatMap (Turn.entries traceAgents) := by
    induction turns with
    | nil => rfl
    | cons turn turns ih =>
      rw [List.flatMap_cons, List.filter_cons, ih]
      split <;> rfl
  rw [List.filterMap_flatMap, passes, ← hfilter]
  exact List.flatMap_congr fun turn hturn => filterMap_events hturn

/-- If no agent fails, all who are run are run without a failure. -/
theorem completed_eq (h : ∀ turn ∈ job.turns s halt, turn.failure? = none) :
    job.completed s halt = (job.turns s halt).countP Turn.started := by
  rw [completed, passes, List.countP_eq_length_filter, List.countP_eq_length_filter]
  refine congrArg List.length (List.filter_eq_self.mpr fun turn hturn => ?_)
  rw [h turn (List.mem_filter.mp hturn).1]
  rfl

/-- Only a fault makes an agent's run fail. -/
theorem exists_fault_of_failure? {turn : Turn} {failure : JobFailure}
    (h : turn.failure? = some failure) :
    ∃ procedure agent address cause, failure = .fault procedure agent address cause := by
  obtain ⟨course, -, hcourse⟩ := Option.bind_eq_some_iff.mp h
  cases hresult : course.result with
  | ok => rw [hresult] at hcourse; cases hcourse
  | error fault =>
    rw [hresult] at hcourse
    exact ⟨_, _, _, _, (Option.some.inj hcourse).symm⟩

/-- **How a run can end.** -/
theorem result_run_cases (job : Job) (s : Scene) (traceAgents : Bool) (halt : HaltSignal) :
    (∃ summary, (job.run s traceAgents halt).result = .ok summary)
      ∨ (job.run s traceAgents halt).result = .error .halted
      ∨ ∃ procedure agent address cause, (job.run s traceAgents halt).result
        = .error (.fault procedure agent address cause) := by
  rw [result_run]
  cases hfind : (job.turns s halt).findSome? Turn.failure? with
  | some failure =>
    obtain ⟨turn, -, hturn⟩ := List.exists_of_findSome?_eq_some hfind
    obtain ⟨procedure, agent, address, cause, rfl⟩ := exists_fault_of_failure? hturn
    exact .inr (.inr ⟨procedure, agent, address, cause, rfl⟩)
  | none =>
    dsimp only
    split
    · exact .inl ⟨_, rfl⟩
    · exact .inr (.inl rfl)

theorem log_run (job : Job) (s : Scene) (traceAgents : Bool) (halt : HaltSignal) :
    (job.run s traceAgents halt).log
      = job.firstEntry s :: (job.passes s halt).flatMap (Turn.entries traceAgents)
        ++ [job.lastEntry (job.completed s halt) (job.run s traceAgents halt).result] := by
  have haround (first last : Event) (firstEntry lastEntry : LogEntry)
      (hfirst : Event.logEntry? first = some firstEntry)
      (hlast : Event.logEntry? last = some lastEntry) :
      (#[first] ++ ((job.turns s halt).flatMap (Turn.events traceAgents)).toArray
          |>.push last).toList.filterMap Event.logEntry?
        = firstEntry :: (job.passes s halt).flatMap (Turn.entries traceAgents)
          ++ [lastEntry] := by
    rw [Array.toList_push, Array.toList_append, List.filterMap_append, List.filterMap_append,
      filterMap_flatMap_events]
    simp [hfirst, hlast]
  rw [result_run, run_eq, JobCourse.log]
  dsimp only
  cases hfind : (job.turns s halt).findSome? Turn.failure? with
  | some failure =>
    obtain ⟨turn, -, hturn⟩ := List.exists_of_findSome?_eq_some hfind
    obtain ⟨procedure, agent, address, cause, rfl⟩ := exists_fault_of_failure? hturn
    exact haround _ _ _ _ rfl rfl
  | none =>
    dsimp only
    split
    · exact haround _ _ _ _ rfl rfl
    · rw [completed_eq (List.findSome?_eq_none_iff.mp hfind)]
      exact haround _ _ _ _ rfl rfl

/-- The log of a run of which nobody asks whom it runs is the log of the same run, less the entries
that answer the question. -/
theorem log_run_false (job : Job) (s : Scene) (halt : HaltSignal) :
    (job.run s false halt).log
      = (job.run s true halt).log.filter fun entry => entry.message != "running agent" := by
  have hresult : (job.run s false halt).result = (job.run s true halt).result := by
    rw [result_run, result_run]
  have hlast (completed : Nat) (result : Except JobFailure Summary) :
      [job.lastEntry completed result].filter (fun entry => entry.message != "running agent")
        = [job.lastEntry completed result] := by
    rcases result with (_ | _ | _) | _ <;> rfl
  rw [log_run, log_run, hresult, List.filter_append, hlast, List.filter_cons_of_pos rfl,
    List.filter_flatMap]
  simp only [← Turn.entries_false]

/-- **The log is faithful to the run**, whoever is run and however the run ends. Whether it tells
whom the run visits makes no difference to the run, nor to the rest of the log. -/
theorem log_law (job : Job) (s : Scene) (halt : HaltSignal) :
    (∀ traceAgents, job.LogLaw s traceAgents halt)
      ∧ (job.run s false halt).result = (job.run s true halt).result
      ∧ (job.run s false halt).scene = (job.run s true halt).scene
      ∧ (job.run s false halt).log
        = (job.run s true halt).log.filter fun entry => entry.message != "running agent" := by
  have htakes := job.takes_turns s halt
  refine ⟨fun traceAgents => ?_, by rw [result_run, result_run], by rw [scene_run, scene_run],
    job.log_run_false s halt⟩
  refine ⟨job.log_run s traceAgents halt, fun _ _ _ => Turn.message_of_mem_entries, ?_,
    fun turn hturn => ?_, ?_, ?_, ?_⟩
  · exact (List.filter_sublist.map Turn.id).trans htakes.map_id_prefix.sublist
  · obtain ⟨hturn, hstarted⟩ := List.mem_filter.mp hturn
    exact ⟨(htakes.started_eq hturn).symm.trans hstarted, trail_of_started hturn hstarted⟩
  all_goals
    rcases job.result_run_cases s traceAgents halt with
      ⟨summary, hresult⟩ | hresult | ⟨_, _, _, _, hresult⟩
    all_goals
      rw [hresult]
      simp [lastEntry]

/-- The second cow has been killed by the first one, so that nothing is told of it. Leaving the body
at its end is not told either. -/
example : (culling.run .pasture true .never).log
    = [⟨.debug, "exclusive job started", [("owner", ""), ("procedure", "cull"), ("agents", "2")]⟩,
        ⟨.trace, "running agent", [("agent", "turtle 0")]⟩,
        ⟨.trace, "step", [("procedure", "cull"), ("ip", "0"), ("op", "kill-who")]⟩,
        ⟨.trace, "step", [("procedure", "cull"), ("ip", "1"), ("op", "hatch")]⟩,
        ⟨.debug, "exclusive job finished",
          [("owner", ""), ("executed", "1"), ("skipped", "1")]⟩] := by
  decide +kernel

end Job

end AgentSweep
