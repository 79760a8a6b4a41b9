import AgentSweep.Proofs.Job.FreshContext
import AgentSweep.Proofs.Job.Visits
import AgentSweep.Proofs.Machine.Lockstep
import AgentSweep.Proofs.Random.Exchanges

/-!
# Slots are not seen

Where the agents of a world are, under which ids, depends on who died before whom. A run of a job
does not show it. In two worlds that look the same, the run of a job whose code holds no ids comes
to the same result, takes the same draws and leaves worlds that look the same
(`Job.run_unseen`). This holds although the ids that are given out differ from the first birth on.

The snapshots of the two runs hold twins at the same places, since a shuffle does not look at what
it shuffles (`Job.exists_snapshots`). From there on the turns go alike, one by one
(`Job.turnsFrom_unseen`). That both twins of a pair are alive when their turns come, or neither of
them, rests on the generations of their slots. They must not begin again in the course of the runs.
-/

namespace AgentSweep

namespace Job

variable {job : Job} {halt : HaltSignal} {traceAgents : Bool} {s t : Scene}

/-! ## Failures -/

/-- A failure names twins alike. -/
theorem failure_eq_of_twins {c d : Context} {a b : AgentId} (hcd : c.Alike d a b)
    (h : s.world.Twins t.world a b) (fault : Fault) : failure c s fault = failure d t fault := by
  obtain ⟨first, second, hfirst, hsecond, hview⟩ := h
  obtain ⟨f, g, hf, hg, hlike⟩ := hcd.frames
  have htitle : c.agentTitle s.world = d.agentTitle t.world := by
    simp only [Context.agentTitle, hcd.agents.1, hcd.agents.2, World.title, hfirst, hsecond,
      Agent.title_eq_of_view hview]
  have hname : c.procedureName = d.procedureName := by
    simp only [Context.procedureName, hf, hg, hlike.procedure_eq]
  rw [failure, failure, htitle, hname, hcd.ip_eq]

/-! ## Snapshots -/

/-- A snapshot of pairs is a pair of snapshots. -/
theorem ofSet_of_members_eq {α : Type} {set : AgentSet} {w : World} {items : List α}
    {f : α → AgentId} (h : set.members w = items.map f) (random : Random) :
    Roster.ofSet set w random
      = (⟨0, (random.shuffle items.toArray).1.toList.map f, 0⟩,
        (random.shuffle items.toArray).2) := by
  rw [Roster.ofSet, h, Roster.shuffled, ← List.map_toArray, Random.shuffle_map]
  dsimp only
  rw [Array.toList_map]

/-- **The snapshots of two runs hold twins at the same places**, and take the same draws. -/
theorem exists_snapshots (h : s.Alike t) (hset : job.set.anonymous = true) :
    ∃ pairs : List (AgentId × AgentId), job.snapshot s = pairs.map Prod.fst
      ∧ job.snapshot t = pairs.map Prod.snd ∧ (∀ p ∈ pairs, s.world.Twins t.world p.1 p.2)
      ∧ (job.opening s).Alike (job.opening t) := by
  have hbreed : ∃ pairs : List (AgentId × AgentId), job.set.members s.world = pairs.map Prod.fst
      ∧ job.set.members t.world = pairs.map Prod.snd
      ∧ ∀ p ∈ pairs, s.world.Twins t.world p.1 p.2 := by
    cases hcase : job.set with
    | breed kind name => exact h.world.exists_pairs name
    | fixed =>
      rw [hcase] at hset
      cases hset
  obtain ⟨pairs, hfst, hsnd, htwins⟩ := hbreed
  have hs := ofSet_of_members_eq hfst s.random
  have ht := ofSet_of_members_eq hsnd t.random
  rw [← h.random_eq] at ht
  refine ⟨(s.random.shuffle pairs.toArray).1.toList, ?_, ?_, ?_, ?_⟩
  · rw [snapshot, hs]
  · rw [snapshot, ← h.random_eq, ht]
  · intro p hp
    exact htwins p (((s.random.shuffle_perm pairs.toArray).toList).mem_iff.mp hp)
  · rw [opening, opening, hs, ← h.random_eq, ht]
    unfold entryFrame
    cases job.caller with
    | none => exact ⟨h.world, rfl⟩
    | some frame => exact ⟨h.world, rfl⟩

/-! ## Turns -/

/-- **What two turns have in common** in which twins are run. -/
structure TurnsAlike (x y : Context) (a b : AgentId) (s t : Scene) : Prop where
  account_eq : (Turn.mk a s (some x)).account = (Turn.mk b t (some y)).account
  result_eq : (x.run s).result = (y.run t).result
  scene : (x.run s).scene.Alike (y.run t).scene
  size_steps_eq : (x.run s).steps.size = (y.run t).steps.size
  owner_eq : (x.run s).context.owner = (y.run t).context.owner
  tag_eq : (x.run s).context.tag = (y.run t).context.tag

/-- **The turns of living twins go alike**, whatever is left in the contexts but their owner and
their tag. -/
theorem turnsAlike_of_twins {f g : Frame} (hf : f.procedure.anonymous = true)
    (hfg : f.procedure = g.procedure) {c d : Context} (howner : c.owner = d.owner)
    (htag : c.tag = d.tag) (h : s.Alike t) {a b : AgentId} (htwins : s.world.Twins t.world a b)
    (address : Nat) : TurnsAlike (c.reset a f address) (d.reset b g address) a b s t := by
  have hreset : (c.reset a f address).Alike (d.reset b g address) a b :=
    ⟨⟨rfl, rfl⟩, howner, rfl, rfl, rfl, htag, f, g, rfl, rfl, hfg⟩
  obtain ⟨⟨hresult, hcontext, hscene, hsize⟩, hlive⟩ :=
    Context.lockstep_run hf rfl rfl rfl hreset h htwins
  refine ⟨?_, hresult, hscene, hsize, hcontext.owner_eq, hcontext.tag_eq⟩
  cases hcase : ((c.reset a f address).run s).result with
  | ok =>
    rw [Turn.account, Turn.account, Turn.failure?_of_ok hcase,
      Turn.failure?_of_ok (hresult.symm.trans hcase)]
    rfl
  | error fault =>
    rw [Turn.account, Turn.account, Turn.failure?_of_error hcase,
      Turn.failure?_of_error (hresult.symm.trans hcase),
      failure_eq_of_twins hcontext (hlive fault hcase)]
    rfl

/-- **The turns of two snapshots go alike**, one by one. The worlds in which they begin are
descended from two worlds that look the same and in which the entries are twins. -/
theorem turnsFrom_unseen {w v : World} (hroots : w.Alike v) {f g : Frame}
    (hf : f.procedure.anonymous = true) (hfg : f.procedure = g.procedure)
    {pairs : List (AgentId × AgentId)} (hpairs : ∀ p ∈ pairs, w.Twins v p.1 p.2) {c d : Context}
    (howner : c.owner = d.owner) (htag : c.tag = d.tag) {s t : Scene} (h : s.Alike t) (steps : Nat)
    (first second : List Change) (hs : s.world = w.after first) (ht : t.world = v.after second)
    (hfirst : ∀ slot, w.kills slot (first ++ (job.turnsFrom halt f (pairs.map Prod.fst) c s
      steps).flatMap Turn.history) < AgentId.generations)
    (hsecond : ∀ slot, v.kills slot (second ++ (job.turnsFrom halt g (pairs.map Prod.snd) d t
      steps).flatMap Turn.history) < AgentId.generations) :
    (job.turnsFrom halt f (pairs.map Prod.fst) c s steps).map Turn.account
        = (job.turnsFrom halt g (pairs.map Prod.snd) d t steps).map Turn.account
      ∧ (Turn.sceneAfter s (job.turnsFrom halt f (pairs.map Prod.fst) c s steps)).Alike
        (Turn.sceneAfter t (job.turnsFrom halt g (pairs.map Prod.snd) d t steps)) := by
  induction pairs generalizing c d s t steps first second with
  | nil => exact ⟨rfl, h⟩
  | cons p rest ih =>
    have htwins := hpairs p List.mem_cons_self
    have hrest : ∀ p ∈ rest, w.Twins v p.1 p.2 := fun q hq => hpairs q (List.mem_cons_of_mem p hq)
    have hlook : (w.after first).Alike (v.after second) := hs ▸ ht ▸ h.world
    have hworn : w.kills p.1.slot first < AgentId.generations :=
      Nat.lt_of_le_of_lt (World.kills_le_append ..) (hfirst p.1.slot)
    have hworn' : v.kills p.2.slot second < AgentId.generations :=
      Nat.lt_of_le_of_lt (World.kills_le_append ..) (hsecond p.2.slot)
    have hlives : s.world.isAlive p.1 = t.world.isAlive p.2 := by
      rw [hs, ht]
      exact hroots.isAlive_after_eq htwins hlook hworn hworn'
    rw [List.map_cons, List.map_cons] at *
    cases halive : s.world.isAlive p.1 with
    | false =>
      rw [turnsFrom_of_dead halive] at hfirst ⊢
      rw [turnsFrom_of_dead (hlives.symm.trans halive)] at hsecond ⊢
      obtain ⟨haccounts, hafter⟩ :=
        ih hrest howner htag h steps first second hs ht hfirst hsecond
      exact ⟨congrArg (List.cons _) haccounts, hafter⟩
    | true =>
      have halive' : t.world.isAlive p.2 = true := hlives.symm.trans halive
      cases hhalt : halt steps with
      | true =>
        rw [turnsFrom_of_halted halive hhalt, turnsFrom_of_halted halive' hhalt]
        exact ⟨rfl, h⟩
      | false =>
        have hnow : s.world.Twins t.world p.1 p.2 := by
          rw [hs] at halive ⊢
          rw [ht]
          exact hroots.twins_after htwins hlook hworn halive
        have hturn := turnsAlike_of_twins hf hfg howner htag h hnow job.address
        rw [turnsFrom_of_alive halive hhalt] at hfirst ⊢
        rw [turnsFrom_of_alive halive' hhalt, ← hturn.result_eq,
          ← hturn.size_steps_eq] at hsecond ⊢
        rw [List.map_cons, List.map_cons, hturn.account_eq]
        cases hcase : ((c.reset p.1 f job.address).run s).result with
        | error fault => exact ⟨rfl, hturn.scene⟩
        | ok =>
          rw [hcase] at hfirst hsecond
          -- the histories of the turns are added to those that lead to their beginning
          obtain ⟨haccounts, hafter⟩ := ih hrest
            (c := ((c.reset p.1 f job.address).run s).context.release)
            (d := ((d.reset p.2 g job.address).run t).context.release)
            hturn.owner_eq hturn.tag_eq hturn.scene
            (steps + ((c.reset p.1 f job.address).run s).steps.size)
            (first ++ (c.reset p.1 f job.address).history s)
            (second ++ (d.reset p.2 g job.address).history t)
            (by rw [World.after_append, ← hs]; exact Context.world_run rfl)
            (by rw [World.after_append, ← ht]; exact Context.world_run rfl)
            (fun slot => by rw [List.append_assoc]; exact hfirst slot)
            (fun slot => by rw [List.append_assoc]; exact hsecond slot)
          exact ⟨congrArg (List.cons _) haccounts, hafter⟩

/-! ## Runs -/

/-- The frames in which the agents of two runs begin run the same procedure. -/
theorem procedure_entry_eq (job : Job) (s t : Scene) :
    (job.entry s).procedure = (job.entry t).procedure := by
  unfold entry
  cases job.caller <;> rfl

/-- **Runs in scenes that look the same go alike.** -/
theorem run_alike (traceAgents : Bool) (h : s.Alike t) (hset : job.set.anonymous = true)
    (hcode : (job.entry s).procedure.anonymous = true)
    (hfirst : ∀ slot, s.world.kills slot (job.history s halt) < AgentId.generations)
    (hsecond : ∀ slot, t.world.kills slot (job.history t halt) < AgentId.generations) :
    (job.run s traceAgents halt).result = (job.run t traceAgents halt).result
      ∧ (job.run s traceAgents halt).scene.Alike (job.run t traceAgents halt).scene := by
  obtain ⟨pairs, hsnapshot, hsnapshot', hpairs, hopening⟩ := exists_snapshots h hset
  have hturns : job.turns s halt = job.turnsFrom halt (job.entry s) (pairs.map Prod.fst)
      (.new job.owner none job.set.tag) (job.opening s) 0 := by
    rw [turns, hsnapshot]
  have hturns' : job.turns t halt = job.turnsFrom halt (job.entry t) (pairs.map Prod.snd)
      (.new job.owner none job.set.tag) (job.opening t) 0 := by
    rw [turns, hsnapshot']
  obtain ⟨haccounts, hscene⟩ := @turnsFrom_unseen job halt _ _ h.world _ _ hcode
    (job.procedure_entry_eq s t) _ hpairs _ _ rfl rfl _ _ hopening 0 [] [] (job.world_opening s)
    (job.world_opening t) (by rw [← hturns]; exact hfirst) (by rw [← hturns']; exact hsecond)
  rw [← hturns, ← hturns'] at haccounts hscene
  have hlength : (job.snapshot s).length = (job.snapshot t).length := by
    rw [hsnapshot, hsnapshot', List.length_map, List.length_map]
  rw [scene_run, scene_run]
  exact ⟨result_run_congr hlength haccounts, hscene⟩

/-- **Slots are not seen.** Let two worlds with a history look the same, and let no variable hold an
id. A job over a breed, whose code holds no id either, comes to the same result in both and takes
the same draws, and the worlds look the same again afterwards. -/
theorem run_unseen (job : Job) {first second : List Change} {s t : Scene} (traceAgents : Bool)
    (halt : HaltSignal) (hs : s.world = World.empty.after first)
    (ht : t.world = World.empty.after second) (hrandom : s.random = t.random)
    (hview : s.world.view = t.world.view) (hvars : s.world.view.Anonymous)
    (hset : job.set.anonymous = true) (hcode : (job.entry s).procedure.anonymous = true)
    (hfirst : ∀ slot, s.world.kills slot (job.history s halt) < AgentId.generations)
    (hsecond : ∀ slot, t.world.kills slot (job.history t halt) < AgentId.generations) :
    (job.run s traceAgents halt).result = (job.run t traceAgents halt).result
      ∧ (job.run s traceAgents halt).scene.random = (job.run t traceAgents halt).scene.random
      ∧ (job.run s traceAgents halt).scene.world.view
        = (job.run t traceAgents halt).scene.world.view := by
  have hworld : s.world.Alike t.world := by
    rw [hs] at hvars
    rw [hs, ht] at hview ⊢
    exact .of_after hview hvars
  obtain ⟨hresult, hscene⟩ :=
    run_alike traceAgents ⟨hworld, hrandom⟩ hset hcode hfirst hsecond
  exact ⟨hresult, hscene.random_eq, hscene.world.view_eq⟩

/-- Two of three cows die, and a calf is born. The slots are left in one order. -/
def bereavement : List Change :=
  .replicate 3 (.create .turtle "cows")
    ++ [.write ⟨1, 0⟩ fun vars => vars.insert "fed" (.boolean false), .kill ⟨2, 0⟩, .kill ⟨3, 0⟩,
      .create .turtle "cows"]

/-- The same, with the slots left in the other order. -/
def mourning : List Change :=
  .replicate 3 (.create .turtle "cows")
    ++ [.kill ⟨3, 0⟩, .kill ⟨2, 0⟩, .create .turtle "cows",
      .write ⟨1, 0⟩ fun vars => vars.insert "fed" (.boolean false)]

/-- Every cow is fed, kills the oldest one and has a calf, unless it was the oldest one itself. -/
def feeding : Job where
  owner := default
  set := .breed .turtle "cows"
  procedure := .command "feed" [.set "fed" (.constant (.boolean true)), .killWho 0, .hatch "cows"]
  address := 0
  caller := none

theorem members_view_of_ne {history : List Change} {breed : String}
    (hnames : (World.empty.after history).breeds.names = ["cows"]) (hne : breed ≠ "cows") :
    (World.empty.after history).view.members breed = [] := by
  show ((World.empty.after history).members breed).map _ = []
  rw [World.members_eq_nil (by rw [hnames]; simpa using hne), List.map_nil]

theorem view_bereavement :
    (World.empty.after bereavement).view = (World.empty.after mourning).view := by
  refine World.View.ext rfl rfl (funext fun breed => ?_)
  by_cases h : breed = "cows"
  · rw [h]
    rfl
  · rw [members_view_of_ne rfl h, members_view_of_ne rfl h]

theorem anonymous_bereavement : (World.empty.after bereavement).view.Anonymous := by
  intro breed agent name value hmem hvalue
  by_cases h : breed = "cows"
  · rw [h] at hmem
    rcases List.mem_cons.mp hmem with hcow | hcalf
    · cases Option.some.inj hcow
      have hfed : (if "fed" = name then some (Value.boolean false) else none) = some value := hvalue
      split at hfed
      · cases hfed
        rfl
      · cases hfed
    · cases Option.some.inj (List.mem_singleton.mp hcalf)
      cases hvalue
  · rw [members_view_of_ne rfl h] at hmem
    cases hmem

/-- The snapshots hold the same cows under different ids, and the calves get different ids, too. -/
theorem run_unseen_feeding :
    ∃ s t : Scene, s = ⟨World.empty.after bereavement, .ofSeed 1, 0⟩
      ∧ t = ⟨World.empty.after mourning, .ofSeed 1, 7⟩
      ∧ s.world.view = t.world.view ∧ s.world.view.Anonymous
      ∧ s.world.members "cows" = [⟨1, 0⟩, ⟨3, 1⟩] ∧ t.world.members "cows" = [⟨1, 0⟩, ⟨2, 1⟩]
      ∧ (feeding.run s false .never).result.toOption = some ⟨2, 1, 1⟩
      ∧ (feeding.run s false .never).result = (feeding.run t false .never).result
      ∧ (feeding.run s false .never).scene.world.members "cows" = [⟨3, 1⟩, ⟨1, 1⟩]
      ∧ (feeding.run t false .never).scene.world.members "cows" = [⟨2, 1⟩, ⟨1, 1⟩]
      ∧ (feeding.run s false .never).scene.world.view
        = (feeding.run t false .never).scene.world.view := by
  have hkills (s : Scene) (hlength : (feeding.history s .never).length = 4) (slot : Nat) :
      s.world.kills slot (feeding.history s .never) < AgentId.generations := by
    have hle := s.world.kills_le_length slot (feeding.history s .never)
    rw [hlength] at hle
    exact Nat.lt_of_le_of_lt hle (by decide)
  obtain ⟨hresult, -, hafter⟩ := run_unseen feeding
    (s := ⟨World.empty.after bereavement, .ofSeed 1, 0⟩)
    (t := ⟨World.empty.after mourning, .ofSeed 1, 7⟩) false .never rfl rfl rfl view_bereavement
    anonymous_bereavement rfl rfl (hkills _ (by decide +kernel)) (hkills _ (by decide +kernel))
  exact ⟨_, _, rfl, rfl, view_bereavement, anonymous_bereavement, by decide +kernel,
    by decide +kernel, by decide +kernel, hresult, by decide +kernel, by decide +kernel, hafter⟩

end Job

end AgentSweep
