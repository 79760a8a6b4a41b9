import AgentSweep.Proofs.Job.Failures

/-!
# Kinds and breeds

An agent set says of what kind its members are, and that is the tag under which code runs over it.
Nobody looks at the agents. What the set says can be relied on as far as each breed has one kind,
and this is a matter of everything that has been done to the world: of whoever made agents from
outside, and of all the code that has been run.

Code makes agents by `hatch` only. A hatched agent is a turtle, in whatever breed the code names, so
that a breed of patches can come by turtles, and these then run code that is for patches only
(`World.settled_fields`). There is no other way in which an agent gets into a breed of another kind.
In every state of a run the tag tells the truth about all agents but such turtles, whoever else is
in their breed, and turtles alone hatch in any case (`World.kind_law`).
-/

namespace AgentSweep

/-! ## Masks of a single kind -/

theorem Kind.contains_mask_of_intersects {kind : Kind} {m : KindMask}
    (h : kind.mask.intersects m = true) : m.contains kind.mask = true := by
  obtain ⟨⟨bits⟩⟩ := m
  revert bits
  cases kind <;> decide +kernel

theorem Kind.eq_of_intersects_mask {a b : Kind} (h : a.mask.intersects b.mask = true) : a = b := by
  revert h
  cases a <;> cases b <;> decide

/-! ## What holds of every living agent -/

namespace World

variable {P : AgentId → Agent → Prop} {w : World}

/-- Something holds of every living agent. -/
def All (P : AgentId → Agent → Prop) (w : World) : Prop :=
  ∀ id agent, w.get? id = some agent → P id agent

/-- A property that has nothing to do with variables. -/
def Lasting (P : AgentId → Agent → Prop) : Prop :=
  ∀ id agent now, Agent.SameAs now agent → P id agent → P id now

theorem All.apply (hP : Lasting P) (h : w.All P) (change : Change)
    (hcreate : ∀ kind breed, change = .create kind breed →
      ∀ id, P id ⟨kind, breed, w.nextWho, .empty⟩) : (w.apply change).All P := by
  intro id agent hget
  cases change with
  | create kind breed =>
    rw [World.apply, get?_create] at hget
    split at hget
    · cases hget
      exact hcreate kind breed rfl id
    · exact h id agent hget
  | kill other =>
    rw [World.apply, get?_kill] at hget
    split at hget
    · cases hget
    · exact h id agent hget
  | write other f =>
    obtain ⟨before, hbefore, hsame⟩ := exists_of_get?_write hget
    exact hP id before agent hsame (h id before hbefore)
  | print line => exact h id agent hget

/-- **What holds of all agents and of those that a history makes** holds of all agents after it. -/
theorem All.after (hP : Lasting P) (h : w.All P) {history : List Change}
    (hcreate : ∀ kind breed, .create kind breed ∈ history →
      ∀ id who, P id ⟨kind, breed, who, .empty⟩) : (w.after history).All P := by
  induction history generalizing w with
  | nil => exact h
  | cons change history ih =>
    refine ih (h.apply hP change ?_) fun kind breed hmem =>
      hcreate kind breed (List.mem_cons_of_mem _ hmem)
    rintro kind breed rfl id
    exact hcreate kind breed List.mem_cons_self id w.nextWho

end World

/-! ## How code makes agents -/

/-- The breed into which a step has hatched an agent, if it has. -/
def StepRecord.hatchedInto? (record : StepRecord) : Option String :=
  match record.instruction, record.outcome with
  | some (.hatch breed), .ok _ => some breed
  | _, _ => none

/-- **The breeds into which a run hatches agents**, in the order of the steps. -/
def Job.hatchedInto (job : Job) (s : Scene) (halt : HaltSignal) : List String :=
  (job.trail s halt).filterMap fun b => (b.1.recordOf b.2).hatchedInto?

namespace Context

variable {c : Context} {s : Scene} {breed : String}

/-- **Code makes agents by `hatch`**, under a tag that lets turtles run. -/
theorem hatchedInto?_of_mem_changes {kind : Kind} (h : .create kind breed ∈ c.changes s) :
    kind = .turtle ∧ (c.recordOf s).hatchedInto? = some breed := by
  unfold changes at h
  cases hinstruction : (c.step s).instruction with
  | none =>
    rw [hinstruction] at h
    cases h
  | some i =>
    rw [hinstruction] at h
    obtain ⟨frame, -, -, hstep⟩ := step_of_instruction hinstruction
    cases i with
    | hatch name =>
      simp only [Instruction.changes] at h
      cases hparent : Expr.ofAgent c s.world .ok with
      | error fault =>
        rw [hparent] at h
        cases h
      | ok parent =>
        rw [hparent] at h
        dsimp only at h
        split at h
        · next htag =>
          have hmade : kind = .turtle ∧ breed = name := by simpa using h
          obtain ⟨rfl, rfl⟩ := hmade
          refine ⟨rfl, ?_⟩
          rw [recordOf, hstep, perform, if_pos htag, hparent]
          rfl
        · cases h
    | print e =>
      simp only [Instruction.changes] at h
      split at h <;> simp at h
    | set name e =>
      simp only [Instruction.changes] at h
      split at h
      · split at h <;> simp at h
      · cases h
    | die => simp [Instruction.changes] at h
    | killWho who => simp [Instruction.changes] at h
    | noop | call | leave | done | report | fail => cases h

/-- Agents are hatched under a tag that lets turtles run. -/
theorem intersects_turtle_of_hatchedInto? (h : (c.recordOf s).hatchedInto? = some breed) :
    c.tag.intersects Kind.turtle.mask = true := by
  refine Decidable.byContradiction fun htag => ?_
  cases hinstruction : (c.step s).instruction with
  | none =>
    rw [recordOf, hinstruction] at h
    cases h
  | some i =>
    obtain ⟨frame, -, -, hstep⟩ := step_of_instruction hinstruction
    rw [recordOf, hstep] at h
    cases i with
    | hatch name =>
      rw [perform, if_neg htag] at h
      cases h
    | _ => cases h

end Context

/-! ## Settled worlds -/

namespace World

variable {kinds : String → Kind} {hatched : String → Prop} {w : World}

/-- **The worlds in which breeds have kinds, as far as the makers of agents and sets are
concerned.** Agents are made in a breed with the kind of that breed, and jobs are run over breeds
under their kinds. Their code may do anything; `hatched` holds of the breeds into which it hatches
agents, and perhaps of others. -/
inductive Settled (kinds : String → Kind) (hatched : String → Prop) : World → Prop where
  | empty : Settled kinds hatched .empty
  | create {w : World} (h : Settled kinds hatched w) (breed : String) :
      Settled kinds hatched (w.create (kinds breed) breed).2
  | run {s : Scene} (h : Settled kinds hatched s.world) (job : Job) (traceAgents : Bool)
      (halt : HaltSignal) {name : String} (hset : job.set = .breed (kinds name) name)
      (hhatched : ∀ breed ∈ job.hatchedInto s halt, hatched breed) :
      Settled kinds hatched (job.run s traceAgents halt).scene.world

/-- An agent has the kind of a breed, or it is a turtle and may have been hatched into the breed. -/
def Belongs (kinds : String → Kind) (hatched : String → Prop) (breed : String) (agent : Agent) :
    Prop :=
  agent.kind = kinds breed ∨ agent.kind = .turtle ∧ hatched breed

theorem Belongs.kind_eq {breed : String} {agent : Agent} (h : Belongs kinds hatched breed agent)
    (hpure : hatched breed → kinds breed = .turtle) : agent.kind = kinds breed := by
  rcases h with hkind | ⟨hkind, hhatched⟩
  · exact hkind
  · rw [hkind, hpure hhatched]

/-- What the kind of a breed is allowed, so is whoever belongs to the breed, but for turtles in a
breed of another kind. -/
theorem Belongs.contains_or {breed : String} {agent : Agent} {m : KindMask}
    (h : Belongs kinds hatched breed agent) (hm : m.contains (kinds breed).mask = true) :
    m.contains agent.kind.mask = true
      ∨ agent.kind = .turtle ∧ kinds breed ≠ .turtle ∧ hatched breed := by
  rcases h with hkind | ⟨hkind, hhatched⟩
  · rw [hkind]
    exact .inl hm
  · by_cases hbreed : kinds breed = .turtle
    · rw [hkind, ← hbreed]
      exact .inl hm
    · exact .inr ⟨hkind, hbreed, hhatched⟩

theorem Belongs.lasting (kinds : String → Kind) (hatched : String → Prop) :
    Lasting fun _ agent => Belongs kinds hatched agent.breed agent := by
  intro id agent now hsame h
  show Belongs kinds hatched now.breed now
  rw [Belongs, hsame.kind_eq, hsame.breed_eq]
  exact h

namespace Settled

theorem reachable (h : Settled kinds hatched w) : w.Reachable := by
  induction h with
  | empty => exact .empty
  | create _ breed ih => exact ih.create _ breed
  | run _ job traceAgents halt _ _ ih => exact ih.run job traceAgents halt

/-- **Whoever is alive belongs to its breed.** -/
theorem belongs (h : Settled kinds hatched w) :
    w.All fun _ agent => Belongs kinds hatched agent.breed agent := by
  induction h with
  | empty => intro id agent hget; simp at hget
  | @create w _ breed ih =>
    refine ih.apply (Belongs.lasting kinds hatched) (.create (kinds breed) breed) ?_
    rintro _ _ ⟨⟩ id
    exact .inl rfl
  | run _ job traceAgents halt _ hhatched ih =>
    refine Job.world_induction
      (motive := All fun _ agent => Belongs kinds hatched agent.breed agent) ih
      fun b hb hbelongs => ?_
    rw [Context.world_step]
    refine hbelongs.after (Belongs.lasting kinds hatched) fun kind breed hmem id who => ?_
    obtain ⟨rfl, hinto⟩ := Context.hatchedInto?_of_mem_changes hmem
    exact .inr ⟨rfl, hhatched breed (List.mem_filterMap.mpr ⟨b, hb, hinto⟩)⟩

theorem belongs_of_mem_members (h : Settled kinds hatched w) {breed : String} {id : AgentId}
    (hid : id ∈ w.members breed) :
    ∃ agent, w.get? id = some agent ∧ Belongs kinds hatched breed agent := by
  obtain ⟨agent, hget, rfl⟩ := h.reachable.indexed.mem_members_iff.mp hid
  exact ⟨agent, hget, h.belongs id agent hget⟩

section

variable {job : Job} {s : Scene} {halt : HaltSignal} {name : String}

/-- **Whoever is run over a breed belongs to it**, in every state of the run. Nobody who is made in
the course of the run changes that: if the run makes anybody, the breed is one of turtles. -/
theorem belongs_of_mem_trail (h : Settled kinds hatched s.world)
    (hset : job.set = .breed (kinds name) name) {b : Context × Scene}
    (hb : b ∈ job.trail s halt) :
    ∃ id agent, b.1.agent = some id ∧ b.2.world.get? id = some agent
      ∧ Belongs kinds hatched name agent := by
  have hlasting : Lasting fun id agent =>
      id ∈ job.snapshot s → Belongs kinds hatched name agent := by
    intro id agent now hsame hagent hid
    rw [Belongs, hsame.kind_eq]
    exact hagent hid
  have hstart : s.world.All fun id agent =>
      id ∈ job.snapshot s → Belongs kinds hatched name agent := by
    intro id agent hget hid
    have hmem := (job.perm_snapshot s).mem_iff.mp hid
    rw [hset] at hmem
    obtain ⟨member, hmember, hbelongs⟩ := h.belongs_of_mem_members hmem
    cases hmember.symm.trans hget
    exact hbelongs
  have hall := Job.trail_induction hstart (fun d hd hbelongs => ?_) hb
  · obtain ⟨id, hid, agent, hagent, hget⟩ := Job.exists_agent_of_mem_trail hb
    exact ⟨id, agent, hagent, hget, hall id agent hget hid⟩
  · rw [Context.world_step]
    refine hbelongs.after hlasting fun kind breed hmem _ _ _ => .inl ?_
    obtain ⟨rfl, hinto⟩ := Context.hatchedInto?_of_mem_changes hmem
    have htag := Context.intersects_turtle_of_hatchedInto? hinto
    rw [Job.tag_of_mem_trail hd, hset] at htag
    exact (Kind.eq_of_intersects_mask htag).symm

end

end Settled

/-! ## The law of kinds -/

/-- **The law of kinds** in a world whose breeds have kinds, given the breeds into which code has
hatched agents. -/
structure KindLaw (kinds : String → Kind) (hatched : String → Prop) (w : World) : Prop where
  /-- A member of a breed is alive. It has the kind of the breed, or it is a turtle in a breed into
  which agents have been hatched. -/
  member : ∀ breed, ∀ id ∈ w.members breed, ∃ agent, w.get? id = some agent
    ∧ (agent.kind = kinds breed ∨ agent.kind = .turtle ∧ hatched breed)
  /-- If none have been, or if the breed is one of turtles, all its members share its kind. -/
  share : ∀ breed, (hatched breed → kinds breed = .turtle) →
    ∀ id ∈ w.members breed, ∃ agent, w.get? id = some agent ∧ agent.kind = kinds breed
  /-- In a run over any breed, whatever its code, an instruction is run only if the kind of the
  breed may run the procedure in which the instruction stands. The agent's own kind then may run it
  as well, whoever else is in the breed. Or else the agent is a turtle in a breed of another kind,
  into which agents have been hatched. -/
  dispatch : ∀ (job : Job) (s : Scene) (halt : HaltSignal) (name : String), s.world = w →
    job.set = .breed (kinds name) name →
    ∀ b ∈ job.trail s halt, ∀ i, (b.1.step b.2).instruction = some i →
    ∃ id agent frame, b.1.agent = some id ∧ b.2.world.get? id = some agent
      ∧ b.1.frame = some frame ∧ frame.procedure.usableBy.contains (kinds name).mask = true
      ∧ (frame.procedure.usableBy.contains agent.kind.mask = true
        ∨ agent.kind = .turtle ∧ kinds name ≠ .turtle ∧ hatched name)
  /-- In a run over any breed, agents are hatched by turtles only. -/
  hatch : ∀ (job : Job) (s : Scene) (halt : HaltSignal) (name : String), s.world = w →
    job.set = .breed (kinds name) name →
    ∀ b ∈ job.trail s halt, ∀ breed, (b.1.recordOf b.2).hatchedInto? = some breed →
    ∃ id agent, b.1.agent = some id ∧ b.2.world.get? id = some agent ∧ agent.kind = .turtle

/-- **The tag tells the truth about everybody but turtles that have been hatched into a breed of
another kind.** -/
theorem kind_law (h : Settled kinds hatched w) : KindLaw kinds hatched w := by
  refine ⟨fun breed id hid => h.belongs_of_mem_members hid, fun breed hpure id hid => ?_, ?_, ?_⟩
  · obtain ⟨agent, hget, hbelongs⟩ := h.belongs_of_mem_members hid
    exact ⟨agent, hget, hbelongs.kind_eq hpure⟩
  · rintro job s halt name rfl hset b hb i hinstruction
    obtain ⟨id, agent, hagent, hget, hbelongs⟩ := h.belongs_of_mem_trail hset hb
    obtain ⟨frame, hframe, htag, -⟩ := Context.step_of_instruction hinstruction
    rw [Job.tag_of_mem_trail hb, hset] at htag
    have hallowed := Kind.contains_mask_of_intersects htag
    exact ⟨id, agent, frame, hagent, hget, hframe, hallowed, hbelongs.contains_or hallowed⟩
  · rintro job s halt name rfl hset b hb breed hinto
    obtain ⟨id, agent, hagent, hget, hbelongs⟩ := h.belongs_of_mem_trail hset hb
    have htag := Context.intersects_turtle_of_hatchedInto? hinto
    rw [Job.tag_of_mem_trail hb, hset] at htag
    have hturtle : kinds name = .turtle := Kind.eq_of_intersects_mask htag
    exact ⟨id, agent, hagent, hget, (hbelongs.kind_eq fun _ => hturtle).trans hturtle⟩

end World

/-- A field with a cow on it. -/
def Scene.meadow : Scene :=
  ⟨((World.empty.create .patch "fields").2.create .turtle "cows").2, .ofSeed 7, 0⟩

/-- On the meadow fields are patches, and everything else is a turtle. -/
def Kind.onMeadow (breed : String) : Kind := if breed = "fields" then .patch else .turtle

/-- Every field shows its number. Nobody but a patch may do that. -/
def Job.surveying : Job where
  owner := default
  set := .breed .patch "fields"
  procedure := ⟨"survey", .command, Kind.patch.mask, [.print .who]⟩
  address := 0
  caller := none

/-- Every cow hatches an agent into a breed. -/
def Job.straying (breed : String) : Job where
  owner := default
  set := .breed .turtle "cows"
  procedure := .command "stray" [.hatch breed]
  address := 0
  caller := none

namespace World

theorem Settled.meadow (hatched : String → Prop) :
    Settled Kind.onMeadow hatched Scene.meadow.world :=
  (Settled.empty.create "fields").create "cows"

/-- A cow has hatched an agent into the fields. The cows are turtles all the same, and the field is
still allowed whatever it runs. -/
theorem kind_law_meadow :
    ∃ s, s = ((Job.straying "fields").run .meadow false .never).scene
      ∧ Settled Kind.onMeadow (fun breed => breed = "fields") s.world
      ∧ s.world.members "cows" = [⟨2, 0⟩]
      ∧ (∀ id ∈ s.world.members "cows", ∃ agent, s.world.get? id = some agent
        ∧ agent.kind = .turtle)
      ∧ s.world.members "fields" = [⟨1, 0⟩, ⟨3, 0⟩]
      ∧ (Job.surveying.trail s .never).map (fun b => b.1.agent)
        = [some ⟨1, 0⟩, some ⟨1, 0⟩, some ⟨3, 0⟩, some ⟨3, 0⟩]
      ∧ ∀ b ∈ Job.surveying.trail s .never, ∀ i, (b.1.step b.2).instruction = some i →
        b.1.agent = some ⟨1, 0⟩ → ∃ agent frame, b.2.world.get? ⟨1, 0⟩ = some agent
          ∧ b.1.frame = some frame ∧ frame.procedure.usableBy.contains agent.kind.mask = true := by
  have hinto : ∀ breed ∈ (Job.straying "fields").hatchedInto .meadow .never,
      breed = "fields" := by
    decide +kernel
  have hsettled := (Settled.meadow fun breed => breed = "fields").run (.straying "fields") false
    .never (show _ = AgentSet.breed (Kind.onMeadow "cows") "cows" from rfl) hinto
  have hlaw := kind_law hsettled
  refine ⟨_, rfl, hsettled, by decide +kernel, hlaw.share "cows" fun _ => rfl, by decide +kernel,
    by decide +kernel, fun b hb i hi hfield => ?_⟩
  obtain ⟨id, agent, frame, hagent, hget, hframe, -, hallowed⟩ :=
    hlaw.dispatch .surveying _ .never "fields" rfl rfl b hb i hi
  obtain rfl : id = ⟨1, 0⟩ := Option.some.inj (hagent.symm.trans hfield)
  refine ⟨agent, frame, hget, hframe, hallowed.resolve_right fun ⟨hturtle, _⟩ => ?_⟩
  have hpatch : ∀ d ∈ Job.surveying.trail
      ((Job.straying "fields").run .meadow false .never).scene .never,
      (d.2.world.get? ⟨1, 0⟩).map Agent.kind = some .patch := by
    decide +kernel
  have hkind := hpatch b hb
  rw [hget, Option.map_some, hturtle] at hkind
  cases hkind

/-- **A breed can come by members of two kinds.** A cow hatches an agent into the fields. It is a
turtle, and it surveys itself. -/
theorem settled_fields :
    ∃ s, s = ((Job.straying "fields").run .meadow false .never).scene
      ∧ Settled Kind.onMeadow (fun _ => True) s.world
      ∧ (s.world.members "fields").map (fun id => (s.world.get? id).map Agent.kind)
        = [some .patch, some .turtle]
      ∧ Job.surveying.set = .breed (Kind.onMeadow "fields") "fields"
      ∧ ∃ b ∈ Job.surveying.trail s .never, (b.1.step b.2).instruction.isSome = true
        ∧ b.1.agent = some ⟨3, 0⟩
        ∧ b.1.frame.map (fun frame => frame.procedure.usableBy.contains Kind.turtle.mask)
          = some false := by
  have hsettled := (Settled.meadow fun _ => True).run (.straying "fields") false .never
    (show _ = AgentSet.breed (Kind.onMeadow "cows") "cows" from rfl) fun _ _ => trivial
  refine ⟨_, rfl, hsettled, by decide +kernel, rfl, ?_⟩
  have hsurvey : (Job.surveying.trail ((Job.straying "fields").run .meadow false .never).scene
      .never).any (fun b => (b.1.step b.2).instruction.isSome && (b.1.agent == some ⟨3, 0⟩
        && b.1.frame.map (fun frame => frame.procedure.usableBy.contains Kind.turtle.mask)
          == some false)) = true := by
    decide +kernel
  simpa using hsurvey

end World

end AgentSweep
