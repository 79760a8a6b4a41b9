import AgentSweep.Proofs.Job.Reports
import AgentSweep.Proofs.Job.Trails
import AgentSweep.Proofs.World.Edits

/-!
# Members that are dead

A fixed set looks at each read whether its agents are alive. A breed set does not look: it takes
over the list of the breed, and an agent that has been killed under the name of another breed stays
there. Nothing that reads the set notices. The agent is a member and counts, and if it is the first
one, a report is made for it.

The readings of a set agree with each other even so, since all of them read one list
(`AgentSet.ReadingsAgree`). `Job.stale_member_law` says what the list holds, and what a report makes
of it.
-/

namespace AgentSweep

namespace AgentSet

variable {set : AgentSet} {history : List Intervention} {id : AgentId}

/-- **The readings of a set agree**: each of them says what the list of the members says. -/
structure ReadingsAgree (set : AgentSet) (w : World) : Prop where
  first?_eq : set.first? w = (set.members w).head?
  count_eq : set.count w = (set.members w).length
  isEmpty_iff : set.isEmpty w = true ↔ set.members w = []

theorem readingsAgree (set : AgentSet) (w : World) : set.ReadingsAgree w := by
  refine ⟨set.first?_eq_head? w, set.count_eq_length w, ?_⟩
  rw [isEmpty, first?_eq_head?, Option.isNone_iff_eq_none, List.head?_eq_none_iff]

/-- **Whom a set names** after a history that began with an empty world. A breed set names those who
have been given out in the breed and not been struck off since, and a fixed set names those of its
agents that are alive. -/
def Names (set : AgentSet) (history : List Intervention) (id : AgentId) : Prop :=
  match set with
  | breed _ name => ∃ before kind later, history = before ++ .create kind name :: later
      ∧ ((World.empty.edited before).create kind name).1 = id
      ∧ ((World.empty.edited before).create kind name).2.Unstruck id name later
  | fixed _ ids => id ∈ ids ∧ (World.empty.edited history).isAlive id = true

/-- **How an agent leaves a set without being struck off**: it is killed under the name of another
breed. -/
def Strays (set : AgentSet) (history : List Intervention) (id : AgentId) : Prop :=
  ∃ kind name before agent later, set = breed kind name ∧ history = before ++ .kill id :: later
    ∧ (World.empty.edited before).get? id = some agent ∧ agent.breed ≠ name

theorem mem_members_edited_iff :
    id ∈ set.members (World.empty.edited history) ↔ set.Names history id := by
  cases set with
  | breed kind name =>
    have hempty : id ∉ World.empty.members name := List.not_mem_nil
    rw [members, World.mem_members_edited_iff]
    exact or_iff_right fun h => hempty h.1
  | fixed kind ids => exact List.mem_filter

/-- **A dead member has strayed**, and so it is one of a breed. -/
theorem strays_of_mem_members (hmem : id ∈ set.members (World.empty.edited history))
    (hdead : (World.empty.edited history).isAlive id = false) : set.Strays history id := by
  cases set with
  | breed kind name =>
    obtain ⟨before, agent, later, hhistory, hget, hbreed⟩ := World.exists_kill_of_stale hmem hdead
    exact ⟨kind, name, before, agent, later, rfl, hhistory, hget, hbreed⟩
  | fixed kind ids => cases hdead.symm.trans (List.mem_filter.mp hmem).2

end AgentSet

namespace Job

variable {job : Job} {s : Scene}

/-- A report fails for want of an agent if and only if its set has no member. -/
theorem result_report_eq_emptySet_iff :
    (job.report s).result = .error .emptySet ↔ job.set.members s.world = [] := by
  rw [← List.head?_eq_none_iff, ← AgentSet.first?_eq_head?]
  refine ⟨fun h => ?_, result_report_of_none⟩
  cases hfirst : job.set.first? s.world with
  | none => rfl
  | some agent =>
    rw [(report_of_some hfirst).1] at h
    cases hresult : (job.evaluation s agent).result <;> rw [hresult] at h <;> cases h

/-- **A report is made for the first member**: it takes a step, and every step is one of that
agent. -/
theorem agent_of_mem_steps_report {id : AgentId} {rest : List AgentId}
    (h : job.set.members s.world = id :: rest) :
    (job.report s).steps ≠ [] ∧ ∀ record ∈ (job.report s).steps, record.before.agent = some id := by
  have hfirst : job.set.first? s.world = some id := by
    rw [AgentSet.first?_eq_head?, h]
    rfl
  rw [steps_report hfirst, Context.toList_steps_evaluate]
  constructor
  · obtain ⟨later, hlater⟩ := Context.exists_trail_eq_cons (job.reportOutset s id).1
      (job.reportOutset s id).2
    rw [ne_eq, List.map_eq_nil_iff]
    exact fun hnil => List.cons_ne_nil _ _ (hlater.symm.trans hnil)
  · intro record hrecord
    obtain ⟨b, hb, rfl⟩ := List.mem_map.mp hrecord
    exact (Context.mem_trail_iff.mp hb).sameRun.agent_eq

/-- **What sets make of agents whose breed is edited.** After any history of agents made, killed and
changed in whatever way, the readings of a set agree, and its members are those whom it names. A
dead one among them is a member of a breed and has been killed under the name of another breed, so
that there is none where nobody changes breeds. A set counts its dead members with the others. A
report fails for want of an agent if the set has no member, and is made for the first one otherwise,
dead or alive. -/
theorem stale_member_law (job : Job) (s : Scene) (history : List Intervention)
    (h : s.world = World.empty.edited history) :
    (∀ set : AgentSet,
        set.ReadingsAgree s.world
        ∧ (∀ id, id ∈ set.members s.world ↔ set.Names history id)
        ∧ (∀ id ∈ set.members s.world, s.world.isAlive id = false → set.Strays history id)
        ∧ ((∀ intervention ∈ history, intervention.KeepsBreed) →
          ∀ id ∈ set.members s.world, s.world.isAlive id = true)
        ∧ ∀ c : Context, (Expr.count set).eval c s
          = (.ok (.ofNat (set.members s.world).length), s.random))
      ∧ ((job.report s).result = .error .emptySet ↔ job.set.members s.world = [])
      ∧ ∀ id rest, job.set.members s.world = id :: rest →
        (job.report s).steps ≠ []
          ∧ ∀ record ∈ (job.report s).steps, record.before.agent = some id := by
  refine ⟨fun set => ⟨set.readingsAgree s.world, fun id => ?_, fun id hmem hdead => ?_,
    fun hkeeps id hmem => ?_, fun c => ?_⟩, result_report_eq_emptySet_iff,
    fun id rest => agent_of_mem_steps_report⟩
  · rw [h]
    exact AgentSet.mem_members_edited_iff
  · rw [h] at hmem hdead
    exact AgentSet.strays_of_mem_members hmem hdead
  · have hfaithful : s.world.Faithful := h ▸ World.Faithful.empty.edited hkeeps
    exact hfaithful.isAlive_of_mem_members set hmem
  · rw [Expr.eval, set.count_eq_length]

/-- Two cows, one of whom passes for a goat when it is slaughtered. -/
def slaughter : List Intervention :=
  [.create .turtle "cows", .create .turtle "cows",
    .edit ⟨1, 0⟩ fun agent => { agent with breed := "goats" }, .kill ⟨1, 0⟩]

/-- The same without the deceit. -/
def honestSlaughter : List Intervention :=
  [.create .turtle "cows", .create .turtle "cows", .kill ⟨1, 0⟩]

/-- The scene after a history. -/
def sceneAfter (history : List Intervention) : Scene := ⟨World.empty.edited history, .ofSeed 7, 0⟩

/-- How many cows there are. -/
def mustering : Job where
  owner := default
  set := .breed .turtle "cows"
  procedure := .reporter "muster" [.report (.count (.breed .turtle "cows"))]
  address := 0
  caller := none

/-- The cow that was slaughtered as a goat is still the first cow, and a report is made for it. A
cow that was slaughtered as one is no longer there. -/
theorem stale_member_law_mustering :
    (sceneAfter slaughter).world = World.empty.edited slaughter
      ∧ mustering.set.members (sceneAfter slaughter).world = [⟨1, 0⟩, ⟨2, 0⟩]
      ∧ mustering.set.Strays slaughter ⟨1, 0⟩
      ∧ (mustering.report (sceneAfter slaughter)).steps ≠ []
      ∧ (∀ record ∈ (mustering.report (sceneAfter slaughter)).steps,
        record.before.agent = some ⟨1, 0⟩)
      ∧ (∀ intervention ∈ honestSlaughter, intervention.KeepsBreed)
      ∧ ⟨2, 0⟩ ∈ mustering.set.members (sceneAfter honestSlaughter).world
      ∧ (sceneAfter honestSlaughter).world.isAlive ⟨2, 0⟩ = true := by
  obtain ⟨hsets, -, hreport⟩ := mustering.stale_member_law (sceneAfter slaughter) slaughter rfl
  obtain ⟨-, -, hstrays, -, -⟩ := hsets mustering.set
  obtain ⟨hhonest, -, -⟩ :=
    mustering.stale_member_law (sceneAfter honestSlaughter) honestSlaughter rfl
  obtain ⟨-, -, -, halive, -⟩ := hhonest mustering.set
  have hmembers : mustering.set.members (sceneAfter slaughter).world = [⟨1, 0⟩, ⟨2, 0⟩] := by
    decide +kernel
  have hmem : (⟨1, 0⟩ : AgentId) ∈ mustering.set.members (sceneAfter slaughter).world := by
    rw [hmembers]
    exact List.mem_cons_self
  obtain ⟨hsteps, hagent⟩ := hreport _ _ hmembers
  have hkeeps : ∀ intervention ∈ honestSlaughter, intervention.KeepsBreed := by
    simp [honestSlaughter, Intervention.KeepsBreed]
  have hother : (⟨2, 0⟩ : AgentId) ∈ mustering.set.members (sceneAfter honestSlaughter).world := by
    decide +kernel
  exact ⟨rfl, hmembers, hstrays _ hmem (by decide +kernel), hsteps, hagent, hkeeps, hother,
    halive hkeeps _ hother⟩

/-- **The dead are mustered with the living**: the cow that was slaughtered as a goat is the first
member of the cows, counts as one, and is made to count them. -/
theorem mustering_counts_dead :
    mustering.set.members (World.empty.edited slaughter) = [⟨1, 0⟩, ⟨2, 0⟩]
      ∧ mustering.set.first? (World.empty.edited slaughter) = some ⟨1, 0⟩
      ∧ (World.empty.edited slaughter).isAlive ⟨1, 0⟩ = false
      ∧ mustering.set.count (World.empty.edited slaughter) = 2
      ∧ (World.empty.edited slaughter).count = 1
      ∧ (mustering.report (sceneAfter slaughter)).result = .ok (.ofNat 2)
      ∧ ∀ record ∈ (mustering.report (sceneAfter slaughter)).steps,
        record.before.agent = some ⟨1, 0⟩ := by
  have hmembers : mustering.set.members (sceneAfter slaughter).world = [⟨1, 0⟩, ⟨2, 0⟩] := by
    decide +kernel
  have hfirst : mustering.set.first? (sceneAfter slaughter).world = some ⟨1, 0⟩ := by
    decide +kernel
  -- the first step of the evaluation reports
  have hreports : Context.Reports (mustering.reportFrame (sceneAfter slaughter))
      (mustering.reportOutset (sceneAfter slaughter) ⟨1, 0⟩) (.ofNat 2) :=
    ⟨rfl, rfl, rfl, _, rfl, rfl, rfl⟩
  exact ⟨hmembers, hfirst, by decide +kernel, by decide +kernel, by decide +kernel,
    result_report_eq_ok_iff.mpr ⟨_, hfirst, _, .refl, hreports⟩,
    (agent_of_mem_steps_report hmembers).2⟩

end Job

end AgentSweep
