import AgentSweep.Proofs.Job.Failures
import AgentSweep.Proofs.Machine.Addresses

/-!
# Addresses of jobs

The address of a job is where each of its agents begins. It may be any number, and the body for
which it is meant need not be that of the job, since a caller's frame runs another one. Nobody looks
at the address before the first agent is run. Then it is found out at once if it is behind the end
of the body (`Job.run_of_firstAlive?`), and from any other address no run of an agent ever leaves
the bodies. So a run fails with an invalid address if it is its own address that is invalid and if
there is anybody to notice, and for no other reason (`Job.address_law`).
-/

namespace AgentSweep

/-- A failure at an address behind the end of a body. -/
def JobFailure.OfAddress (failure : JobFailure) : Prop :=
  ∃ procedure agent address name behind,
    failure = .fault procedure agent address (.invalidAddress name behind)

namespace Job

open Context (AddressesHold WithinBodies)

variable {job : Job} {s : Scene} {traceAgents : Bool} {halt : HaltSignal} {id : AgentId}

/-! ## The first agent that is run -/

/-- The first entry of the snapshot that is alive before the run. -/
def firstAlive? (job : Job) (s : Scene) : Option AgentId := (job.snapshot s).find? s.world.isAlive

/-- Dead entries in front are skipped, and nothing else becomes of them. -/
theorem turnsFrom_append_of_dead {entry : Frame} {c : Context} {steps : Nat}
    {dead : List AgentId} (hdead : ∀ id ∈ dead, s.world.isAlive id = false)
    (later : List AgentId) :
    job.turnsFrom halt entry (dead ++ later) c s steps
      = dead.map (fun id => ⟨id, s, none⟩) ++ job.turnsFrom halt entry later c s steps := by
  induction dead with
  | nil => rfl
  | cons first dead ih =>
    obtain ⟨hfirst, hrest⟩ := List.forall_mem_cons.mp hdead
    rw [List.cons_append, turnsFrom_of_dead hfirst, ih hrest]
    rfl

/-- If nobody is alive, or if the run is called off from the start, nobody is run. -/
theorem started_eq_false (h : job.firstAlive? s = none ∨ halt 0 = true) {turn : Turn}
    (hturn : turn ∈ job.turns s halt) : turn.started = false := by
  have hskipped {dead : List AgentId}
      (hturn : turn ∈ dead.map fun id => (⟨id, job.opening s, none⟩ : Turn)) :
      turn.started = false := by
    obtain ⟨id, -, rfl⟩ := List.mem_map.mp hturn
    rfl
  unfold turns at hturn
  cases hfirst : job.firstAlive? s with
  | none =>
    have hdead : ∀ id ∈ job.snapshot s, (job.opening s).world.isAlive id = false := by
      intro id hid
      rw [world_opening]
      exact Bool.eq_false_iff.mpr (List.find?_eq_none.mp hfirst id hid)
    rw [← List.append_nil (job.snapshot s), turnsFrom_append_of_dead hdead, turnsFrom,
      List.append_nil] at hturn
    exact hskipped hturn
  | some id =>
    have hhalt : halt 0 = true := h.resolve_left (by simp [hfirst])
    obtain ⟨halive, dead, later, hsnapshot, hdead⟩ := List.find?_eq_some_iff_append.mp hfirst
    rw [hsnapshot, turnsFrom_append_of_dead (by simpa using hdead),
      turnsFrom_of_halted (by simpa using halive) hhalt, List.append_nil] at hturn
    exact hskipped hturn

/-- **The first agent that is run** is the first entry that is alive. The turns before it are those
of dead entries. -/
theorem exists_turns_eq (hfirst : job.firstAlive? s = some id) (hhalt : halt 0 = false) :
    ∃ (dead : List AgentId) (later : List Turn), job.turns s halt
      = dead.map (fun id => ⟨id, job.opening s, none⟩)
        ++ ⟨id, job.opening s, some (job.ready s id)⟩ :: later := by
  obtain ⟨halive, dead, later, hsnapshot, hdead⟩ := List.find?_eq_some_iff_append.mp hfirst
  unfold turns
  rw [hsnapshot, turnsFrom_append_of_dead (by simpa using hdead),
    turnsFrom_of_alive (by simpa using halive) hhalt]
  exact ⟨dead, _, rfl⟩

/-! ## Addresses behind the end -/

/-- **An address behind the end is found out by the first agent**, and nothing but the order of the
agents has been drawn by then. -/
theorem run_of_firstAlive? (traceAgents : Bool)
    (hrunnable : job.set.tag.intersects (job.entry s).procedure.usableBy = true)
    (hsize : (job.entry s).procedure.size < job.address) (hfirst : job.firstAlive? s = some id)
    (hhalt : halt 0 = false) :
    (job.run s traceAgents halt).result
        = .error (.fault (job.entry s).procedure.name (s.world.title id) job.address
          (.invalidAddress (job.entry s).procedure.name job.address))
      ∧ (job.run s traceAgents halt).scene = job.opening s := by
  obtain ⟨dead, later, hturns⟩ := exists_turns_eq hfirst hhalt
  obtain ⟨hresult, hcontext, hscene⟩ := Context.run_of_size_lt (c := job.ready s id)
    (s := job.opening s) rfl hsize rfl
  have htag : (job.ready s id).tag.intersects (job.entry s).procedure.usableBy = true := hrunnable
  rw [if_pos htag] at hresult
  have hfailure : (⟨id, job.opening s, some (job.ready s id)⟩ : Turn).failure? = some _ :=
    Turn.failure?_of_error hresult
  have hlater : later = [] :=
    (job.takes_turns s halt).eq_nil_of_failure? hturns (by rw [hfailure]; nofun)
  refine ⟨?_, ?_⟩
  · have hturn : (⟨id, job.opening s, some (job.ready s id)⟩ : Turn) ∈ job.turns s halt := by
      rw [hturns]
      simp
    rw [result_run_of_failure? hturn hfailure, hcontext, hscene]
    show Except.error (JobFailure.fault _ ((job.opening s).world.title id) _ _) = _
    rw [world_opening]
    rfl
  · rw [scene_run, hturns, hlater, Turn.sceneAfter, List.foldl_append]
    exact hscene

/-! ## Addresses within bodies -/

/-- From an address that is not behind the end, a run of a job stays within bodies. -/
theorem withinBodies_of_mem_trail (hsize : job.address ≤ (job.entry s).procedure.size)
    {b : Context × Scene} (hb : b ∈ job.trail s halt) : b.1.WithinBodies (job.entry s) := by
  obtain ⟨turn, -, -, hreaches⟩ := exists_turn_of_mem_trail hb
  have hstart : (job.ready s turn.id).WithinBodies (job.entry s) := ⟨_, rfl, .entry, hsize⟩
  exact hstart.of_reaches hreaches

/-- A run can fail at an invalid address only if an agent is run, and only if the address of the job
is invalid. -/
theorem of_failure_ofAddress {failure : JobFailure}
    (h : (job.run s traceAgents halt).result = .error failure) (haddress : failure.OfAddress) :
    halt 0 = false ∧ (∃ id, job.firstAlive? s = some id)
      ∧ (job.entry s).procedure.size < job.address := by
  obtain ⟨procedure, agent, address, name, behind, rfl⟩ := haddress
  have hnobody : ¬ (job.firstAlive? s = none ∨ halt 0 = true) := by
    intro hnobody
    obtain ⟨before, last, hturns, hlast⟩ := exists_last_of_fault h
    have hstarted := Turn.started_of_failure? (by rw [hlast]; nofun : last.failure? ≠ none)
    have hskipped := started_eq_false hnobody (hturns ▸ by simp : last ∈ job.turns s halt)
    cases hstarted.symm.trans hskipped
  obtain ⟨hfirst, hhalt⟩ := not_or.mp hnobody
  refine ⟨Bool.eq_false_iff.mpr hhalt, Option.ne_none_iff_exists'.mp hfirst, ?_⟩
  refine Nat.lt_of_not_le fun hsize => ?_
  obtain ⟨before, last, hdiagnosis⟩ := exists_diagnosis h
  have hwithin := withinBodies_of_mem_trail hsize
    (hdiagnosis.trail_eq ▸ by simp : last ∈ job.trail s halt)
  rcases hdiagnosis.failsWith with herror | ⟨hreport, -⟩
  · exact hwithin.step_ne_invalidAddress herror
  · cases hreport

theorem exists_firstAlive?_iff :
    (∃ id, job.firstAlive? s = some id) ↔ ∃ id ∈ job.snapshot s, s.world.isAlive id = true := by
  rw [← Option.isSome_iff_exists, firstAlive?, List.find?_isSome]

/-! ## The law -/

/-- **The law of addresses.** In a frame whose procedure its agents may run, a run fails with an
invalid address if and only if it is not called off from the start, somebody in the snapshot is
alive, and the address of the job is behind the end of the body. It fails for the first in the
snapshot who is alive, and has touched nothing by then. From any other address on, no address in the
course of a run is ever behind the end of its body. -/
theorem address_law (job : Job) (s : Scene) (traceAgents : Bool) (halt : HaltSignal)
    (hrunnable : job.set.tag.intersects (job.entry s).procedure.usableBy = true) :
    ((∃ failure, (job.run s traceAgents halt).result = .error failure ∧ failure.OfAddress)
        ↔ halt 0 = false ∧ (∃ id ∈ job.snapshot s, s.world.isAlive id = true)
          ∧ (job.entry s).procedure.size < job.address)
      ∧ (∀ failure, (job.run s traceAgents halt).result = .error failure → failure.OfAddress →
        ∃ id, (job.snapshot s).find? s.world.isAlive = some id
          ∧ failure = .fault (job.entry s).procedure.name (s.world.title id) job.address
            (.invalidAddress (job.entry s).procedure.name job.address)
          ∧ (job.run s traceAgents halt).scene = job.opening s
          ∧ (job.run s traceAgents halt).scene.world = s.world)
      ∧ (job.run s traceAgents halt).steps = (job.trail s halt).map (fun b => b.1.recordOf b.2)
      ∧ (job.address ≤ (job.entry s).procedure.size →
        ∀ b ∈ job.trail s halt, ∃ frame, AddressesHold b frame
          ∧ frame.ancestor? b.1.calls = some (job.entry s)) := by
  rw [← exists_firstAlive?_iff]
  refine ⟨⟨fun ⟨failure, h, haddress⟩ => of_failure_ofAddress h haddress, ?_⟩, ?_,
    job.steps_eq_map_trail s traceAgents halt, ?_⟩
  · rintro ⟨hhalt, ⟨id, hfirst⟩, hsize⟩
    exact ⟨_, (run_of_firstAlive? traceAgents hrunnable hsize hfirst hhalt).1, _, _, _, _, _, rfl⟩
  · intro failure h haddress
    obtain ⟨hhalt, ⟨id, hfirst⟩, hsize⟩ := of_failure_ofAddress h haddress
    obtain ⟨hresult, hscene⟩ := run_of_firstAlive? traceAgents hrunnable hsize hfirst hhalt
    exact ⟨id, hfirst, Except.error.inj (h.symm.trans hresult), hscene, by
      rw [hscene, world_opening]⟩
  · intro hsize b hb
    have hwithin := withinBodies_of_mem_trail hsize hb
    obtain ⟨frame, hframe, habove, -⟩ := id hwithin
    obtain ⟨current, hholds⟩ := hwithin.exists_addressesHold
    cases hframe.symm.trans hholds.frame_eq
    exact ⟨frame, hholds, habove.ancestor?_eq⟩

/-- Every cow drives, in a frame that is not of the job's own making. -/
def drivingFrom (address : Nat) : Job where
  owner := default
  set := .breed .turtle "cows"
  procedure := .command "loiter" [.noop, .noop, .noop]
  address := address
  caller := some .driving

/-- The address 2 would do for the procedure of the job, but not for that of the frame. From the
address 0 there are calls and returns, and no address is invalid. -/
theorem address_law_driving :
    (drivingFrom 2).set.tag.intersects ((drivingFrom 2).entry .pasture).procedure.usableBy = true
      ∧ ((drivingFrom 2).run .pasture false .never).result
        = .error (.fault "drive" "turtle 0" 2 (.invalidAddress "drive" 2))
      ∧ ((drivingFrom 2).run .pasture false .never).scene.world = Scene.pasture.world
      ∧ ((drivingFrom 0).trail .pasture .never).map (fun b => (b.1.procedureName, b.1.ip))
        = [("drive", 0), ("walk", 0), ("rest", 0), ("walk", 1), ("drive", 1),
          ("drive", 0), ("walk", 0), ("rest", 0), ("walk", 1), ("drive", 1)]
      ∧ ∀ b ∈ (drivingFrom 0).trail .pasture .never, ∃ frame, AddressesHold b frame := by
  have hresult : ((drivingFrom 2).run .pasture false .never).result
      = .error (.fault "drive" "turtle 0" 2 (.invalidAddress "drive" 2)) := by decide +kernel
  obtain ⟨-, hinvalid, -⟩ := (drivingFrom 2).address_law .pasture false .never rfl
  obtain ⟨_, _, _, _, hworld⟩ := hinvalid _ hresult ⟨_, _, _, _, _, rfl⟩
  obtain ⟨-, -, -, hvalid⟩ := (drivingFrom 0).address_law .pasture false .never rfl
  refine ⟨rfl, hresult, hworld, by decide +kernel, fun b hb => ?_⟩
  obtain ⟨frame, hholds, -⟩ := hvalid (Nat.zero_le _) b hb
  exact ⟨frame, hholds⟩

end Job

end AgentSweep
