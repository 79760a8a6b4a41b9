import AgentSweep.Proofs.Job.Trails
import AgentSweep.Proofs.Job.Visits
import AgentSweep.Proofs.Machine.Faults

/-!
# How the run of a job fails

An agent is run only if it is alive when its turn comes, and it is alive in every state of its run
(`Job.lives_of_mem_trail`). So the run of a job fails for reasons that lie in the code, and for no
others (`Job.run_safe`).

A run that fails ends with the step that fails, and this step has done nothing. What is said of it
afterwards is read off the state that it leaves behind, which is the one in which it was taken. The
failure therefore names the right procedure, the right address and the right agent
(`Job.failure_law`).
-/

namespace AgentSweep

open Context (FailsWith)

/-- Nobody is called `nobody`. -/
theorem Agent.title_ne_nobody (agent : Agent) : agent.title ≠ "nobody" := by
  intro h
  have hhead := congrArg (fun t : String => t.toList.head?) h
  obtain ⟨kind, breed, who, vars⟩ := agent
  cases kind <;> simp [Agent.title, Kind.name, toString] at hhead

/-- The procedure that an instruction calls, if it calls one. -/
def Instruction.callee? : Instruction → Option Procedure
  | .call callee => some callee
  | _ => none

theorem Instruction.eq_call_of_callee? {i : Instruction} {callee : Procedure}
    (h : i.callee? = some callee) : i = .call callee := by
  cases i <;> cases h
  rfl

namespace Job

variable {job : Job} {s : Scene} {traceAgents : Bool} {halt : HaltSignal} {turn : Turn}
  {b : Context × Scene} {failure : JobFailure}

/-! ## No step is taken for the dead -/

/-- **In every state of a run there is a frame, and the current agent is alive.** -/
theorem lives_of_mem_trail (hb : b ∈ job.trail s halt) :
    b.1.frame.isSome ∧ b.1.Lives b.2.world := by
  obtain ⟨turn, -, halive, hreaches⟩ := exists_turn_of_mem_trail hb
  have hstart : (job.ready s turn.id).StandsOn (job.entry s) := ⟨_, rfl, .entry⟩
  have hlives : (job.ready s turn.id).Lives turn.scene.world := ⟨turn.id, rfl, halive⟩
  obtain ⟨frame, hframe, -⟩ := hstart.of_reaches hreaches
  exact ⟨Option.isSome_iff_exists.mpr ⟨frame, hframe⟩, hlives.of_reaches hreaches⟩

theorem tag_of_mem_trail (hb : b ∈ job.trail s halt) : b.1.tag = job.set.tag := by
  obtain ⟨turn, -, -, hreaches⟩ := exists_turn_of_mem_trail hb
  exact hreaches.sameRun.tag_eq

/-- **Steps are taken for living entries of the snapshot only.** -/
theorem exists_agent_of_mem_trail (hb : b ∈ job.trail s halt) :
    ∃ id ∈ job.snapshot s, ∃ agent, b.1.agent = some id ∧ b.2.world.get? id = some agent := by
  obtain ⟨turn, hturn, -, hreaches⟩ := exists_turn_of_mem_trail hb
  have htakes := job.takes_turns s halt
  have hagent : b.1.agent = some turn.id := hreaches.sameRun.agent_eq
  have hmem : turn.id ∈ job.snapshot s :=
    htakes.map_id_prefix.subset (List.mem_map.mpr ⟨turn, hturn, rfl⟩)
  obtain ⟨-, id, hid, halive⟩ := lives_of_mem_trail hb
  cases hid.symm.trans hagent
  obtain ⟨agent, hget⟩ := World.isAlive_iff.mp halive
  exact ⟨turn.id, hmem, agent, hagent, hget⟩

/-! ## The turn that fails -/

/-- A run fails as one of its agents does. -/
theorem result_run_of_failure? (hturn : turn ∈ job.turns s halt)
    (h : turn.failure? = some failure) :
    (job.run s traceAgents halt).result = .error failure := by
  obtain ⟨before, later, hturns⟩ := List.append_of_mem hturn
  have hbefore : ∀ earlier ∈ before, earlier.failure? = none := by
    intro earlier hearlier
    obtain ⟨first, rest, rfl⟩ := List.append_of_mem hearlier
    refine Decidable.byContradiction fun hfailed => ?_
    -- nobody would have had a turn after that
    rw [List.append_assoc, List.cons_append] at hturns
    have hnil := (job.takes_turns s halt).eq_nil_of_failure? hturns hfailed
    exact absurd hnil (List.append_ne_nil_of_right_ne_nil _ (List.cons_ne_nil _ _))
  have hfind : (job.turns s halt).findSome? Turn.failure? = some failure :=
    List.findSome?_eq_some_iff.mpr ⟨before, turn, later, hturns, h, hbefore⟩
  rw [result_run, hfind]

/-- **A run that fails through an agent ends with the turn of that agent.** -/
theorem exists_last_of_fault {procedure agent : String} {address : Nat} {cause : Fault}
    (h : (job.run s traceAgents halt).result = .error (.fault procedure agent address cause)) :
    ∃ before last, job.turns s halt = before ++ [last]
      ∧ last.failure? = some (.fault procedure agent address cause) := by
  rw [result_run] at h
  split at h
  · next failure hfind =>
    cases h
    obtain ⟨before, last, later, hturns, hlast, -⟩ := List.findSome?_eq_some_iff.mp hfind
    have hlater := (job.takes_turns s halt).eq_nil_of_failure? hturns (by rw [hlast]; nofun)
    exact ⟨before, last, hlater ▸ hturns, hlast⟩
  · split at h <;> cases h

/-! ## What is said of a failure -/

/-- **What the failure of a run says of its last state**, which comes after the states `before`. -/
structure Diagnosis (job : Job) (s : Scene) (traceAgents : Bool) (halt : HaltSignal)
    (before : List (Context × Scene)) (last : Context × Scene) (procedure agent : String)
    (address : Nat) (cause : Fault) : Prop where
  trail_eq : job.trail s halt = before ++ [last]
  steps_eq : (job.run s traceAgents halt).steps
    = (before ++ [last]).map fun b => b.1.recordOf b.2
  /-- The last step is the one that fails. -/
  failsWith : FailsWith last cause
  /-- Nothing has been changed by the step that fails, and nothing after it. -/
  world_eq : (job.run s traceAgents halt).scene.world = last.2.world
  /-- All that was changed by the steps before it is kept, whichever agent took them. -/
  world_eq_after : (job.run s traceAgents halt).scene.world
    = s.world.after (before.flatMap fun b => b.1.changes b.2)
  /-- A step that is refused has not drawn a random number either. -/
  scene_eq : (last.1.step last.2).outcome = .error cause →
    (job.run s traceAgents halt).scene = last.2
  /-- The procedure is the one that ran. -/
  exists_frame : ∃ frame, last.1.frame = some frame ∧ procedure = frame.procedure.name
  /-- The address is the one at which the step was taken. -/
  address_eq : address = last.1.ip
  /-- The agent is named by kind and number, and it is alive. -/
  exists_agent : ∃ id failing, last.1.agent = some id
    ∧ (job.run s traceAgents halt).scene.world.get? id = some failing
    ∧ agent = s!"{failing.kind.name} {failing.who}" ∧ agent ≠ "nobody"
  /-- If the tag may not run the procedure, then it has just been called, and is named with its
  first address, unless the agents begin in it. -/
  of_refused : ∀ frame, last.1.frame = some frame →
    job.set.tag.intersects frame.procedure.usableBy = false →
      cause = .wrongKind procedure job.set.tag
        ∧ ((∃ earlier caller, before = earlier ++ [caller]
            ∧ (caller.1.step caller.2).instruction = some (.call frame.procedure) ∧ address = 0)
          ∨ (frame = job.entry s ∧ address = job.address ∧ last.1.calls = 0))

/-- When a turn comes, the world is what the states of the turns before it have made of it. -/
theorem world_of_turns {before later : List Turn}
    (hturns : job.turns s halt = before ++ turn :: later) :
    turn.scene.world
      = s.world.after ((before.flatMap Turn.trail).flatMap fun b => b.1.changes b.2) := by
  have htakes := job.takes_turns s halt
  rw [htakes.scene_eq hturns, htakes.world_sceneAfter ⟨_, hturns.symm⟩, world_opening,
    Turn.flatMap_history]

/-- **The failure of an agent's run is read off the state in which its last step was taken.** -/
theorem failure?_of_failsWith (hturn : turn ∈ job.turns s halt) (hstarted : turn.started = true)
    (hb : b ∈ turn.trail) {cause : Fault} (hfails : FailsWith b cause) :
    turn.failure?
        = some (.fault b.1.procedureName (b.1.agentTitle b.2.world) b.1.ip cause)
      ∧ turn.after = (b.1.step b.2).scene := by
  have hlives := lives_of_mem_trail (List.mem_flatMap.mpr ⟨turn, hturn, hb⟩)
  rw [trail_of_started hturn hstarted, Context.mem_trail_iff] at hb
  obtain ⟨hresult, hcontext, hscene⟩ := hb.run_of_failsWith rfl hfails
  obtain ⟨hkept, hworld, -⟩ := hfails.step_eq hlives.2
  rw [Turn.failure?, Turn.after, course?_of_started hturn hstarted, Option.bind_some, hresult]
  dsimp only
  rw [failure, hcontext, hscene, hkept, hworld]
  exact ⟨rfl, rfl⟩

/-- An agent that fails does so with the last step of its run. -/
theorem exists_failsWith_of_failure? (hturn : turn ∈ job.turns s halt)
    (h : turn.failure? = some failure) :
    ∃ before last cause, turn.trail = before ++ [last] ∧ FailsWith last cause := by
  have hstarted := Turn.started_of_failure? (by rw [h]; nofun : turn.failure? ≠ none)
  rw [Turn.failure?, course?_of_started hturn hstarted, Option.bind_some] at h
  rw [trail_of_started hturn hstarted]
  cases hresult : ((job.ready s turn.id).run turn.scene).result with
  | ok =>
    rw [hresult] at h
    cases h
  | error cause =>
    obtain ⟨before, last, htrail, hfails⟩ := Context.exists_failsWith_of_run rfl hresult
    exact ⟨before, last, cause, htrail, hfails⟩

/-- **The failure of a run is diagnosed correctly.** -/
theorem exists_diagnosis {procedure agent : String} {address : Nat} {cause : Fault}
    (h : (job.run s traceAgents halt).result = .error (.fault procedure agent address cause)) :
    ∃ before last,
      job.Diagnosis s traceAgents halt before last procedure agent address cause := by
  obtain ⟨turns, turn, hturns, hfailure⟩ := exists_last_of_fault h
  have hturn : turn ∈ job.turns s halt := by rw [hturns]; simp
  have hstarted := Turn.started_of_failure? (by rw [hfailure]; nofun : turn.failure? ≠ none)
  obtain ⟨earlier, last, _, htrail, hfails⟩ := exists_failsWith_of_failure? hturn hfailure
  obtain ⟨heq, hafter⟩ := failure?_of_failsWith hturn hstarted (by rw [htrail]; simp) hfails
  cases hfailure.symm.trans heq
  have hrun := trail_of_started hturn hstarted
  have hall : job.trail s halt = turns.flatMap Turn.trail ++ earlier ++ [last] := by
    rw [trail, hturns, List.flatMap_append, List.flatMap_singleton, htrail, List.append_assoc]
  have hmem : last ∈ job.trail s halt := by rw [hall]; simp
  obtain ⟨hframe, id, hagent, halive⟩ := lives_of_mem_trail hmem
  obtain ⟨frame, hframe⟩ := Option.isSome_iff_exists.mp hframe
  obtain ⟨failing, hget⟩ := World.isAlive_iff.mp halive
  have hscene : (job.run s traceAgents halt).scene = (last.1.step last.2).scene := by
    rw [scene_run, hturns, Turn.sceneAfter, List.foldl_append]
    exact hafter
  have hworld : (job.run s traceAgents halt).scene.world = last.2.world := by
    rw [hscene]
    exact (hfails.step_eq ⟨id, hagent, halive⟩).2.1
  have htitle := Context.agentTitle_of_get? hagent hget
  refine ⟨_, last, hall, ?_, hfails, hworld, ?_, ?_, ⟨frame, hframe, ?_⟩, rfl,
    ⟨id, failing, hagent, hworld ▸ hget, htitle, htitle ▸ failing.title_ne_nobody⟩, ?_⟩
  · rw [steps_eq_map_trail, hall]
  · rw [hworld, Context.world_of_trail (hrun.symm.trans htrail), world_of_turns hturns,
      List.flatMap_append, World.after_append]
  · intro herror
    rw [hscene]
    exact (Context.step_of_error ⟨id, hagent, halive⟩ herror).2.1
  · rw [Context.procedureName, hframe]
  · intro current hcurrent hrefused
    cases hframe.symm.trans hcurrent
    have htag := tag_of_mem_trail hmem
    refine ⟨?_, ?_⟩
    · rw [hfails.of_refused hframe (htag ▸ hrefused), htag, Context.procedureName, hframe]
    · rcases Context.caller_of_refused rfl (hrun.symm.trans htrail) hframe hrefused with
        rfl | ⟨before, caller, rfl, hcall, hip⟩
      · exact .inr ⟨(Option.some.inj hframe).symm, rfl, rfl⟩
      · exact .inl ⟨turns.flatMap Turn.trail ++ before, caller,
          (List.append_assoc _ _ _).symm, hcall, hip⟩

/-- **The call of a command that the tag may not run makes the run of a job fail**, in that command
and at its first address. -/
theorem exists_result_of_call (hb : b ∈ job.trail s halt) {callee : Procedure}
    (hcall : (b.1.step b.2).instruction = some (.call callee)) (hrole : callee.role = .command)
    (hrefused : job.set.tag.intersects callee.usableBy = false) :
    ∃ agent, (job.run s traceAgents halt).result
      = .error (.fault callee.name agent 0 (.wrongKind callee.name job.set.tag)) := by
  obtain ⟨turn, hturn, halive, hreaches⟩ := exists_turn_of_mem_trail hb
  rw [← tag_of_mem_trail hb] at hrefused ⊢
  obtain ⟨d, hnext, hfails, hname, hip⟩ :=
    Context.exists_failsWith_of_call hcall hrole hrefused
  have hstarted := ((job.takes_turns s halt).started_eq hturn).trans halive
  have hd : d ∈ turn.trail := by
    rw [trail_of_started hturn hstarted, Context.mem_trail_iff]
    exact hreaches.tail hnext
  obtain ⟨hfailure, -⟩ := failure?_of_failsWith hturn hstarted hd hfails
  rw [hname, hip] at hfailure
  exact ⟨_, result_run_of_failure? hturn hfailure⟩

/-! ## The laws -/

/-- **No job can make code run for the dead.** Whenever a run takes a step, there is a frame and the
current agent is alive. If the run fails, it is for a reason that lies in the code. -/
theorem run_safe (job : Job) (s : Scene) (traceAgents : Bool) (halt : HaltSignal) :
    (job.run s traceAgents halt).steps = (job.trail s halt).map (fun b => b.1.recordOf b.2)
      ∧ (∀ b ∈ job.trail s halt, b.1.frame.isSome
        ∧ ∃ id, b.1.agent = some id ∧ b.2.world.isAlive id = true)
      ∧ ∀ procedure agent address cause,
        (job.run s traceAgents halt).result = .error (.fault procedure agent address cause) →
          cause.OfCode := by
  refine ⟨job.steps_eq_map_trail s traceAgents halt, fun b hb => lives_of_mem_trail hb,
    fun procedure agent address cause h => ?_⟩
  obtain ⟨before, last, hdiagnosis⟩ := exists_diagnosis h
  have hlast : last ∈ job.trail s halt := by rw [hdiagnosis.trail_eq]; simp
  obtain ⟨hframe, hlives⟩ := lives_of_mem_trail hlast
  exact (hdiagnosis.failsWith.step_eq hlives).2.2 hframe

/-- Every cow has a calf, the oldest one dies, and whoever is left looks for grass. -/
def grazing : Job where
  owner := default
  set := .breed .turtle "cows"
  procedure :=
    .command "graze" [.call (.command "cull" [.hatch "cows", .killWho 0]), .print (.own "grass")]
  address := 0
  caller := none

/-- The first cow dies in the middle of a call, and the second one finds no grass. -/
theorem run_safe_grazing :
    (grazing.run .pasture false .never).result
        = .error (.fault "graze" "turtle 2" 1 (.notOwned "turtle 2" "grass"))
      ∧ (Fault.notOwned "turtle 2" "grass").OfCode
      ∧ (grazing.trail .pasture .never).map (fun b => b.1.agent)
        = [some ⟨1, 0⟩, some ⟨1, 0⟩, some ⟨1, 0⟩, some ⟨3, 0⟩, some ⟨3, 0⟩, some ⟨3, 0⟩,
          some ⟨3, 0⟩, some ⟨3, 0⟩]
      ∧ ∀ b ∈ grazing.trail .pasture .never, b.1.frame.isSome
        ∧ ∃ id, b.1.agent = some id ∧ b.2.world.isAlive id = true := by
  have hresult : (grazing.run .pasture false .never).result
      = .error (.fault "graze" "turtle 2" 1 (.notOwned "turtle 2" "grass")) := by decide +kernel
  obtain ⟨-, hlives, hcode⟩ := grazing.run_safe .pasture false .never
  exact ⟨hresult, hcode _ _ _ _ hresult, by decide +kernel, hlives⟩

/-- **A step that fails leaves no trace, and its diagnosis is exact.** As long as the current agent
lives, a refused step leaves the context, the world and the generator as they were. A run that fails
therefore leaves the world in which its last step was taken, with all that the steps before it have
done, and its failure names the procedure that ran, the address of the step and the agent, who is
still alive. The call of a command that the tag may not run fails in that command, at its first
address. -/
theorem failure_law (job : Job) (s : Scene) (traceAgents : Bool) (halt : HaltSignal) :
    (∀ (c : Context) (t : Scene) (fault : Fault), c.Lives t.world →
        (c.step t).outcome = .error fault → (c.step t).context = c ∧ (c.step t).scene = t)
      ∧ (∀ procedure agent address cause,
        (job.run s traceAgents halt).result = .error (.fault procedure agent address cause) →
          ∃ before last,
            job.Diagnosis s traceAgents halt before last procedure agent address cause)
      ∧ ∀ b ∈ job.trail s halt, ∀ callee, (b.1.step b.2).instruction = some (.call callee) →
        callee.role = .command → job.set.tag.intersects callee.usableBy = false →
          ∃ agent, (job.run s traceAgents halt).result
            = .error (.fault callee.name agent 0 (.wrongKind callee.name job.set.tag)) := by
  refine ⟨fun c t fault hlives herror => ?_, fun _ _ _ _ => exists_diagnosis,
    fun b hb callee => exists_result_of_call hb⟩
  obtain ⟨hcontext, hscene, -⟩ := Context.step_of_error hlives herror
  exact ⟨hcontext, hscene⟩

/-- A command for patches only. -/
def trim : Procedure := ⟨"trim", .command, Kind.patch.mask, [.noop]⟩

/-- Every cow says who it is, and goes on to do what only patches may do. -/
def trimming : Job where
  owner := default
  set := .breed .turtle "cows"
  procedure := .command "visit" [.print .who, .call trim]
  address := 0
  caller := none

/-- The first cow has spoken before it fails, and the second one has no turn. -/
theorem failure_law_trimming :
    (trimming.run .pasture false .never).result
        = .error (.fault "trim" "turtle 0" 0 (.wrongKind "trim" Kind.turtle.mask))
      ∧ (trimming.run .pasture false .never).scene.world.output = #["0"]
      ∧ (∃ before last, trimming.Diagnosis .pasture false .never before last "trim" "turtle 0" 0
        (.wrongKind "trim" Kind.turtle.mask))
      ∧ (∃ b ∈ trimming.trail .pasture .never, ∃ callee,
        (b.1.step b.2).instruction = some (.call callee) ∧ ∃ agent,
          (trimming.run .pasture false .never).result
            = .error (.fault callee.name agent 0 (.wrongKind callee.name Kind.turtle.mask)))
      ∧ (((trimming.ready .pasture ⟨1, 0⟩).goto 9).step .pasture).scene = .pasture := by
  obtain ⟨hrefused, hdiagnosis, hcalls⟩ := trimming.failure_law .pasture false .never
  have hresult : (trimming.run .pasture false .never).result
      = .error (.fault "trim" "turtle 0" 0 (.wrongKind "trim" Kind.turtle.mask)) := by
    decide +kernel
  have hlives : ((trimming.ready .pasture ⟨1, 0⟩).goto 9).Lives Scene.pasture.world :=
    ⟨⟨1, 0⟩, rfl, by decide +kernel⟩
  -- one of the steps calls a command that only patches may run
  have hcallee : some (Role.command, Kind.patch.mask)
      ∈ (trimming.trail .pasture .never).map fun b =>
        ((b.1.step b.2).instruction.bind Instruction.callee?).map fun callee =>
          (callee.role, callee.usableBy) := by
    decide +kernel
  obtain ⟨b, hb, hcallee⟩ := List.mem_map.mp hcallee
  obtain ⟨callee, hcalled, heq⟩ := Option.map_eq_some_iff.mp hcallee
  obtain ⟨hrole, husable⟩ := Prod.mk.inj heq
  obtain ⟨i, hi, hcall⟩ := Option.bind_eq_some_iff.mp hcalled
  rw [Instruction.eq_call_of_callee? hcall] at hi
  exact ⟨hresult, by decide +kernel, hdiagnosis _ _ _ _ hresult,
    ⟨b, hb, callee, hi, hcalls b hb callee hi hrole (by rw [husable]; decide)⟩,
    (hrefused _ _ (.invalidAddress "visit" 9) hlives rfl).2⟩

end Job

end AgentSweep
