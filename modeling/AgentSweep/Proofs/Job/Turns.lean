import AgentSweep.Job.Job
import AgentSweep.Proofs.Machine.Changes

/-!
# The turns of a run

A run of a job takes the entries of its snapshot one after the other. What happens to one of them
is a *turn*: the entry, what running code can touch when its turn comes, and the context in which
its agent begins. An entry whose agent is dead by then has no such context. `Job.turns` lists the
turns to which a run comes, in their order. It ends early only if an agent's run fails or the halt
flag is up.

A run is told by its turns (`Job.run_eq`): its result, what it leaves behind and the events in its
course can all be read off them.
-/

namespace AgentSweep

/-- **What becomes of one entry of a snapshot.** -/
structure Turn where
  id : AgentId
  /-- What running code could touch when the turn came. -/
  scene : Scene
  /-- The context in which the agent began, if it was alive. -/
  start : Option Context

namespace Turn

/-- Whether the agent was run. -/
def started (t : Turn) : Bool := t.start.isSome

/-- What the agent's run came to. -/
def course? (t : Turn) : Option (Course Unit) := t.start.map fun c => c.run t.scene

/-- What running code can touch after the turn. -/
def after (t : Turn) : Scene :=
  match t.course? with
  | some course => course.scene
  | none => t.scene

/-- The failure of the agent's run. -/
def failure? (t : Turn) : Option JobFailure :=
  t.course?.bind fun course =>
    match course.result with
    | .ok () => none
    | .error fault => some (Job.failure course.context course.scene fault)

/-- The steps of the agent's run. -/
def steps (t : Turn) : List StepRecord :=
  match t.course? with
  | some course => course.steps.toList
  | none => []

/-- The events of a turn. -/
def events (traceAgents : Bool) (t : Turn) : List Event :=
  (if traceAgents && t.started then [.visiting (t.scene.world.title t.id)] else [])
    ++ t.steps.map Event.step

/-- What running code can touch after some turns. -/
def sceneAfter (s : Scene) (turns : List Turn) : Scene := turns.foldl (fun _ t => t.after) s

theorem failure?_of_ok {id : AgentId} {s : Scene} {c : Context} (h : (c.run s).result = .ok ()) :
    (Turn.mk id s (some c)).failure? = none := by
  simp only [failure?, course?, Option.map_some, Option.bind_some, h]

theorem failure?_of_error {id : AgentId} {s : Scene} {c : Context} {fault : Fault}
    (h : (c.run s).result = .error fault) :
    (Turn.mk id s (some c)).failure?
      = some (Job.failure (c.run s).context (c.run s).scene fault) := by
  simp only [failure?, course?, Option.map_some, Option.bind_some, h]

end Turn

namespace Job

/-- The ids over which a run goes, in the order in which it takes them. -/
def snapshot (job : Job) (s : Scene) : List AgentId :=
  (Roster.ofSet job.set s.world s.random).1.upcoming

/-- The frame in which every agent of a run begins: the caller's, or else the one root frame that
is made for the run. -/
def entry (job : Job) (s : Scene) : Frame :=
  job.caller.getD ⟨s.nextFrame, job.procedure, none, job.address⟩

/-- What running code can touch when the first turn comes: the snapshot has been drawn, and the
root frame has been made if there is one. -/
def opening (job : Job) (s : Scene) : Scene :=
  (job.entryFrame { s with random := (Roster.ofSet job.set s.world s.random).2 }).2

/-- The turns that the entries of a snapshot take from some point of a run on. -/
def turnsFrom (job : Job) (halt : HaltSignal) (entry : Frame) :
    List AgentId → Context → Scene → Nat → List Turn
  | [], _, _, _ => []
  | id :: rest, c, s, steps =>
    if !s.world.isAlive id then ⟨id, s, none⟩ :: job.turnsFrom halt entry rest c s steps
    else if halt steps then []
    else
      let start := c.reset id entry job.address
      let course := start.run s
      ⟨id, s, some start⟩ ::
        match course.result with
        | .ok () =>
          job.turnsFrom halt entry rest course.context.release course.scene
            (steps + course.steps.size)
        | .error _ => []

/-- **The turns of a run.** -/
def turns (job : Job) (s : Scene) (halt : HaltSignal) : List Turn :=
  job.turnsFrom halt (job.entry s) (job.snapshot s) (.new job.owner none job.set.tag)
    (job.opening s) 0

theorem fst_entryFrame (job : Job) (s : Scene) (random : Random) :
    (job.entryFrame { s with random }).1 = job.entry s := by
  unfold entryFrame entry
  cases job.caller <;> rfl

@[simp] theorem world_opening (job : Job) (s : Scene) : (job.opening s).world = s.world := by
  unfold opening entryFrame
  cases job.caller <;> rfl

theorem size_ofSet (job : Job) (s : Scene) :
    (Roster.ofSet job.set s.world s.random).1.size = (job.snapshot s).length :=
  Nat.zero_add _

/-! ## A run is told by its turns -/

/-- What going through a number of entries comes to, given the turns that they take: the agents run
and skipped so far, or the failure of one of them, or a halt if there are fewer turns than
entries. -/
def settle (job : Job) (traceAgents : Bool) (entries : Nat) (s : Scene) (events : Array Event)
    (executed skipped : Nat) (turns : List Turn) : JobCourse (Nat × Nat) :=
  let scene := Turn.sceneAfter s turns
  let events := events ++ (turns.flatMap (Turn.events traceAgents)).toArray
  let executed := executed + turns.countP Turn.started
  match turns.findSome? Turn.failure? with
  | some failure => ⟨.error failure, scene, events.push (.aborted job.owner.name failure)⟩
  | none =>
    if turns.length = entries then
      ⟨.ok (executed, skipped + turns.countP fun t => !t.started), scene, events⟩
    else ⟨.error .halted, scene, events.push (.halted job.owner.name executed)⟩

variable {job : Job} {traceAgents : Bool}

/-- A turn without a failure can be counted before the others. -/
theorem settle_cons {t : Turn} (ht : t.failure? = none) (entries : Nat) (s : Scene)
    (events : Array Event) (executed skipped : Nat) (turns : List Turn) :
    job.settle traceAgents (entries + 1) s events executed skipped (t :: turns)
      = job.settle traceAgents entries t.after (events ++ (t.events traceAgents).toArray)
          (executed + if t.started then 1 else 0) (skipped + if t.started then 0 else 1)
          turns := by
  have hevents : events ++ ((t :: turns).flatMap (Turn.events traceAgents)).toArray
      = events ++ (t.events traceAgents).toArray
        ++ (turns.flatMap (Turn.events traceAgents)).toArray := by
    rw [List.flatMap_cons, ← List.append_toArray, Array.append_assoc]
  have hexecuted : executed + (t :: turns).countP Turn.started
      = executed + (if t.started then 1 else 0) + turns.countP Turn.started := by
    rw [List.countP_cons, Nat.add_comm (List.countP _ _), Nat.add_assoc]
  have hskipped : skipped + (t :: turns).countP (fun t => !t.started)
      = skipped + (if t.started then 0 else 1) + turns.countP fun t => !t.started := by
    rw [List.countP_cons, Nat.add_comm (List.countP _ _), Nat.add_assoc]
    cases t.started <;> rfl
  simp only [settle, hevents, hexecuted, hskipped, List.findSome?_cons, ht, List.length_cons,
    Nat.add_right_cancel_iff]
  rfl

/-- The events of a turn whose agent is run, as the run records them. -/
theorem append_events_of_start (traceAgents : Bool) (events : Array Event) (id : AgentId)
    (s : Scene) (c : Context) :
    events ++ (Turn.events traceAgents ⟨id, s, some c⟩).toArray
      = (if traceAgents then events.push (.visiting (s.world.title id)) else events)
        ++ (c.run s).steps.map Event.step := by
  refine Array.ext' ?_
  cases traceAgents <;> simp [Turn.events, Turn.steps, Turn.course?, Turn.started]

/-- **Going through entries is told by their turns.** -/
theorem sweep_eq_settle (halt : HaltSignal) (entry : Frame) (ids : List AgentId)
    (p : Progress) :
    job.sweep traceAgents halt entry ids p
      = job.settle traceAgents ids.length p.scene p.events p.executed p.skipped
          (job.turnsFrom halt entry ids p.context p.scene p.steps) := by
  -- a turn that does not fail is counted in front, whatever was counted before
  induction ids generalizing p with
  | nil => simp [sweep, settle, turnsFrom, Turn.sceneAfter]
  | cons id rest ih =>
    rw [sweep, turnsFrom, List.length_cons]
    split
    · rw [ih, settle_cons rfl]
      simp [Turn.after, Turn.events, Turn.started, Turn.course?, Turn.steps]
    · split
      · simp [settle, Turn.sceneAfter]
      · have hevents := append_events_of_start traceAgents p.events id p.scene
          (p.context.reset id entry job.address)
        have hafter : (Turn.mk id p.scene (p.context.reset id entry job.address)).after
          = ((p.context.reset id entry job.address).run p.scene).scene := rfl
        dsimp only
        cases hresult : ((p.context.reset id entry job.address).run p.scene).result with
        | ok =>
          dsimp only
          rw [ih, settle_cons (Turn.failure?_of_ok hresult), hevents, hafter]
          rfl
        | error fault =>
          simp only [settle, List.findSome?_cons, Turn.failure?_of_error hresult,
            List.flatMap_singleton, hevents]
          rfl

/-- Where a run begins. -/
def outset (job : Job) (s : Scene) : Progress where
  context := .new job.owner none job.set.tag
  scene := job.opening s
  events := #[.started job.owner.name job.procedure.name (job.snapshot s).length]
  executed := 0
  skipped := 0
  steps := 0

/-- What a run comes to, given what going through its entries comes to. -/
def conclude (job : Job) (entries : Nat) (course : JobCourse (Nat × Nat)) : JobCourse Summary :=
  match course.result with
  | .ok (executed, skipped) =>
    ⟨.ok ⟨entries, executed, skipped⟩, course.scene,
      course.events.push (.finished job.owner.name executed skipped)⟩
  | .error failure => ⟨.error failure, course.scene, course.events⟩

/-- **To run is to go through the entries of a snapshot.** -/
theorem run_eq_conclude (job : Job) (s : Scene) (traceAgents : Bool) (halt : HaltSignal) :
    job.run s traceAgents halt
      = job.conclude (job.snapshot s).length
          (job.sweep traceAgents halt (job.entry s) (job.snapshot s) (job.outset s)) := by
  unfold run
  dsimp only
  rw [fst_entryFrame, size_ofSet]
  rfl

/-- **A run is told by its turns.** -/
theorem run_eq (job : Job) (s : Scene) (traceAgents : Bool) (halt : HaltSignal) :
    job.run s traceAgents halt
      = let turns := job.turns s halt
        let scene := Turn.sceneAfter (job.opening s) turns
        let executed := turns.countP Turn.started
        let skipped := turns.countP fun t => !t.started
        let events :=
          #[.started job.owner.name job.procedure.name (job.snapshot s).length]
            ++ (turns.flatMap (Turn.events traceAgents)).toArray
        match turns.findSome? Turn.failure? with
        | some failure => ⟨.error failure, scene, events.push (.aborted job.owner.name failure)⟩
        | none =>
          if turns.length = (job.snapshot s).length then
            ⟨.ok ⟨(job.snapshot s).length, executed, skipped⟩, scene,
              events.push (.finished job.owner.name executed skipped)⟩
          else ⟨.error .halted, scene, events.push (.halted job.owner.name executed)⟩ := by
  have hsweep : job.sweep traceAgents halt (job.entry s) (job.snapshot s) (job.outset s)
      = job.settle traceAgents (job.snapshot s).length (job.opening s)
          #[.started job.owner.name job.procedure.name (job.snapshot s).length] 0 0
          (job.turns s halt) :=
    sweep_eq_settle halt (job.entry s) (job.snapshot s) (job.outset s)
  rw [run_eq_conclude, hsweep, conclude, settle]
  dsimp only
  cases (job.turns s halt).findSome? Turn.failure? with
  | some failure => rfl
  | none =>
    by_cases hall : (job.turns s halt).length = (job.snapshot s).length
    · simp only [Nat.zero_add, if_pos hall]
    · simp only [Nat.zero_add, if_neg hall]

/-- The steps of a run are those of its turns. -/
theorem steps_run (job : Job) (s : Scene) (traceAgents : Bool) (halt : HaltSignal) :
    (job.run s traceAgents halt).steps = (job.turns s halt).flatMap Turn.steps := by
  have hevents : ((job.turns s halt).flatMap (Turn.events traceAgents)).filterMap Event.step?
      = (job.turns s halt).flatMap Turn.steps := by
    rw [List.filterMap_flatMap]
    refine congrArg (fun f => (job.turns s halt).flatMap f) (funext fun t => ?_)
    have hsteps : (t.steps.map Event.step).filterMap Event.step? = t.steps := by
      rw [List.filterMap_map]
      exact List.filterMap_some
    unfold Turn.events
    rw [List.filterMap_append, hsteps]
    split <;> rfl
  -- what stands before and after the events of the turns is not a step
  have haround (first last : Event) (hfirst : first.step? = none) (hlast : last.step? = none) :
      (#[first] ++ ((job.turns s halt).flatMap (Turn.events traceAgents)).toArray
          |>.push last).toList.filterMap Event.step?
        = (job.turns s halt).flatMap Turn.steps := by
    rw [Array.toList_push, Array.toList_append, List.filterMap_append, List.filterMap_append,
      hevents]
    simp [hfirst, hlast]
  rw [run_eq, JobCourse.steps]
  dsimp only
  split
  · exact haround _ _ rfl rfl
  · split
    · exact haround _ _ rfl rfl
    · exact haround _ _ rfl rfl

/-! ## What can become of an entry -/

/-- **The turns that entries take**, from a context, a scene and a number of steps on. There is one
case for each thing that can become of the next entry. -/
inductive Takes (job : Job) (halt : HaltSignal) (entry : Frame) :
    List AgentId → Context → Scene → Nat → List Turn → Prop where
  | nil {c s steps} : Takes job halt entry [] c s steps []
  | skipped {id rest c s steps turns} (hdead : s.world.isAlive id = false)
      (later : Takes job halt entry rest c s steps turns) :
      Takes job halt entry (id :: rest) c s steps (⟨id, s, none⟩ :: turns)
  | halted {id rest c s steps} (halive : s.world.isAlive id = true) (hhalt : halt steps = true) :
      Takes job halt entry (id :: rest) c s steps []
  | passed {id rest c s steps turns} (halive : s.world.isAlive id = true)
      (hok : ((c.reset id entry job.address).run s).result = .ok ())
      (later : Takes job halt entry rest ((c.reset id entry job.address).run s).context.release
        ((c.reset id entry job.address).run s).scene
        (steps + ((c.reset id entry job.address).run s).steps.size) turns) :
      Takes job halt entry (id :: rest) c s steps
        (⟨id, s, some (c.reset id entry job.address)⟩ :: turns)
  | failed {id rest c s steps fault} (halive : s.world.isAlive id = true)
      (herror : ((c.reset id entry job.address).run s).result = .error fault) :
      Takes job halt entry (id :: rest) c s steps [⟨id, s, some (c.reset id entry job.address)⟩]

section

variable {halt : HaltSignal} {entry : Frame} {id : AgentId} {rest : List AgentId} {c : Context}
  {s : Scene} {steps : Nat}

theorem turnsFrom_of_dead (hdead : s.world.isAlive id = false) :
    job.turnsFrom halt entry (id :: rest) c s steps
      = ⟨id, s, none⟩ :: job.turnsFrom halt entry rest c s steps := by
  rw [turnsFrom, if_pos (by rw [hdead]; rfl)]

theorem turnsFrom_of_halted (halive : s.world.isAlive id = true) (hhalt : halt steps = true) :
    job.turnsFrom halt entry (id :: rest) c s steps = [] := by
  rw [turnsFrom, if_neg (by rw [halive]; nofun), if_pos hhalt]

theorem turnsFrom_of_alive (halive : s.world.isAlive id = true) (hhalt : halt steps = false) :
    job.turnsFrom halt entry (id :: rest) c s steps
      = ⟨id, s, some (c.reset id entry job.address)⟩ ::
        match ((c.reset id entry job.address).run s).result with
        | .ok () =>
          job.turnsFrom halt entry rest ((c.reset id entry job.address).run s).context.release
            ((c.reset id entry job.address).run s).scene
            (steps + ((c.reset id entry job.address).run s).steps.size)
        | .error _ => [] := by
  rw [turnsFrom, if_neg (by rw [halive]; nofun), if_neg (Bool.eq_false_iff.mp hhalt)]

end

theorem takes_turnsFrom (job : Job) (halt : HaltSignal) (entry : Frame) (ids : List AgentId)
    (c : Context) (s : Scene) (steps : Nat) :
    job.Takes halt entry ids c s steps (job.turnsFrom halt entry ids c s steps) := by
  induction ids generalizing c s steps with
  | nil => exact .nil
  | cons id rest ih =>
    rw [turnsFrom]
    split
    · next hdead => exact .skipped (by simpa using hdead) (ih _ _ _)
    · next halive =>
      have halive : s.world.isAlive id = true := by simpa using halive
      split
      · next hhalt => exact .halted halive hhalt
      · dsimp only
        split
        · next hok => exact .passed halive hok (ih _ _ _)
        · next fault herror => exact .failed halive herror

theorem takes_turns (job : Job) (s : Scene) (halt : HaltSignal) :
    job.Takes halt (job.entry s) (job.snapshot s) (.new job.owner none job.set.tag)
      (job.opening s) 0 (job.turns s halt) :=
  job.takes_turnsFrom halt _ _ _ _ _

end Job

namespace Job.Takes

variable {job : Job} {halt : HaltSignal} {entry : Frame} {ids : List AgentId} {c : Context}
  {s : Scene} {steps : Nat} {turns : List Turn}

/-- Entries take their turns in their order. -/
theorem map_id_prefix (h : job.Takes halt entry ids c s steps turns) :
    turns.map Turn.id <+: ids := by
  induction h with
  | nil => exact List.prefix_rfl
  | skipped _ _ ih => exact (List.prefix_cons_inj _).mpr ih
  | halted => exact List.nil_prefix
  | passed _ _ _ ih => exact (List.prefix_cons_inj _).mpr ih
  | failed => exact (List.prefix_cons_inj _).mpr List.nil_prefix

/-- An agent is run if and only if it is alive when its turn comes. -/
theorem started_eq (h : job.Takes halt entry ids c s steps turns) {turn : Turn}
    (hturn : turn ∈ turns) : turn.started = turn.scene.world.isAlive turn.id := by
  induction h with
  | nil | halted => cases hturn
  | skipped hdead _ ih =>
    rcases List.mem_cons.mp hturn with rfl | hlater
    · exact hdead.symm
    · exact ih hlater
  | passed halive _ _ ih =>
    rcases List.mem_cons.mp hturn with rfl | hlater
    · exact halive.symm
    · exact ih hlater
  | failed halive _ =>
    rw [List.mem_singleton.mp hturn]
    exact halive.symm

/-- **Every agent begins in the same state but for itself**, whatever the agents before it did. -/
theorem start_eq (h : job.Takes halt entry ids c s steps turns) {turn : Turn}
    (hturn : turn ∈ turns) {start : Context} (hstart : turn.start = some start) :
    start = ⟨c.owner, some turn.id, some entry, job.address, false, 0, c.tag⟩ := by
  induction h with
  | nil | halted => cases hturn
  | skipped _ _ ih =>
    rcases List.mem_cons.mp hturn with rfl | hlater
    · cases hstart
    · exact ih hlater
  | @passed id _ c s _ _ _ _ _ ih =>
    rcases List.mem_cons.mp hturn with rfl | hlater
    · exact (Option.some.inj hstart).symm
    · -- the context goes from one agent to the next, but not its owner and its tag
      have hrun := (c.reset id entry job.address).sameRun_run s
      rw [ih hlater]
      show Context.mk ((c.reset id entry job.address).run s).context.owner _ _ _ _ _
        ((c.reset id entry job.address).run s).context.tag = _
      rw [hrun.owner_eq, hrun.tag_eq]
      rfl
  | failed =>
    rw [List.mem_singleton.mp hturn] at hstart ⊢
    exact (Option.some.inj hstart).symm

/-- A turn comes in the scene that the turns before it have left. -/
theorem scene_eq (h : job.Takes halt entry ids c s steps turns) {before later : List Turn}
    {turn : Turn} (hturns : turns = before ++ turn :: later) :
    turn.scene = Turn.sceneAfter s before := by
  induction h generalizing before with
  | nil | halted => simp at hturns
  | skipped _ _ ih =>
    cases before with
    | nil => rw [← (List.cons.inj hturns).1]; rfl
    | cons first before =>
      rw [ih (List.cons.inj hturns).2, ← (List.cons.inj hturns).1]
      rfl
  | passed _ _ _ ih =>
    cases before with
    | nil => rw [← (List.cons.inj hturns).1]; rfl
    | cons first before =>
      rw [ih (List.cons.inj hturns).2, ← (List.cons.inj hturns).1]
      rfl
  | failed =>
    cases before with
    | nil => rw [← (List.cons.inj hturns).1]; rfl
    | cons first before => simp at hturns

/-- After a failure there are no more turns. -/
theorem eq_nil_of_failure? (h : job.Takes halt entry ids c s steps turns)
    {before later : List Turn} {turn : Turn} (hturns : turns = before ++ turn :: later)
    (hfailure : turn.failure? ≠ none) : later = [] := by
  induction h generalizing before with
  | nil | halted => simp at hturns
  | skipped _ _ ih =>
    cases before with
    | nil => rw [← (List.cons.inj hturns).1] at hfailure; exact absurd rfl hfailure
    | cons first before => exact ih (List.cons.inj hturns).2
  | passed _ hok _ ih =>
    cases before with
    | nil =>
      rw [← (List.cons.inj hturns).1] at hfailure
      exact absurd (Turn.failure?_of_ok hok) hfailure
    | cons first before => exact ih (List.cons.inj hturns).2
  | failed =>
    cases before with
    | nil => exact (List.cons.inj hturns).2.symm
    | cons first before => simp at hturns

/-- Without a failure and without a halt, all entries take their turns. -/
theorem map_id_eq (h : job.Takes .never entry ids c s steps turns)
    (hpassed : ∀ turn ∈ turns, turn.failure? = none) : turns.map Turn.id = ids := by
  induction h with
  | nil => rfl
  | halted _ hhalt => cases hhalt
  | skipped _ _ ih =>
    rw [List.map_cons, ih fun turn hturn => hpassed turn (List.mem_cons_of_mem _ hturn)]
  | passed _ _ _ ih =>
    rw [List.map_cons, ih fun turn hturn => hpassed turn (List.mem_cons_of_mem _ hturn)]
  | failed _ herror =>
    have hnone := hpassed _ List.mem_cons_self
    rw [Turn.failure?_of_error herror] at hnone
    cases hnone

end Job.Takes

end AgentSweep
