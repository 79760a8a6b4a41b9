import AgentSweep.Proofs.World.Lifetimes
import AgentSweep.World.Membership

/-!
# Breeds and those who edit agents

Whoever owns a world may change its agents in any way, their breeds included. A change of breed
moves no id: the agent stays in the list of the breed in which it was made, and a kill looks for it
in the list of the breed that it has by then. An agent that is killed under another breed than its
first one therefore stays in a list for good, and whatever reads that breed counts the dead.

This module says what the lists hold after any history of calls and edits. An id is in the list of a
breed if and only if it has been given out there and nobody has struck it off since
(`mem_members_edited_iff`). Who is dead and still listed has been killed under a false breed
(`exists_kill_of_stale`), and where nobody changes breeds, nobody dead is listed
(`Faithful.isAlive_of_mem_members`).
-/

namespace AgentSweep

/-- **What the owner of a world may do to it.** -/
inductive Intervention where
  | create (kind : Kind) (breed : String)
  /-- An agent is killed. If the id names nobody, nothing happens. -/
  | kill (id : AgentId)
  /-- A living agent is changed, in whatever way. -/
  | edit (id : AgentId) (f : Agent → Agent)

/-- An intervention leaves every agent in the breed that it says it is in. -/
def Intervention.KeepsBreed : Intervention → Prop
  | .edit _ f => ∀ agent, (f agent).breed = agent.breed
  | _ => True

namespace World

variable {w : World} {id : AgentId} {agent : Agent} {breed : String}
  {history : List Intervention}

/-- The world after an intervention. -/
def intervene (w : World) : Intervention → World
  | .create kind breed => (w.create kind breed).2
  | .kill id => w.kill id
  | .edit id f => w.modify id f

/-- **The world after a history of interventions.** -/
def edited (w : World) (history : List Intervention) : World := history.foldl intervene w

@[simp] theorem edited_nil (w : World) : w.edited [] = w := rfl

@[simp] theorem edited_cons (w : World) (first : Intervention) (history : List Intervention) :
    w.edited (first :: history) = (w.intervene first).edited history := rfl

@[simp] theorem edited_append (w : World) (first second : List Intervention) :
    w.edited (first ++ second) = (w.edited first).edited second :=
  List.foldl_append

/-! ## Who is in a list -/

/-- **Nobody strikes an id off the list of a breed**: whenever the id is killed, it names nobody or
an agent that says that it is in another breed. -/
def Unstruck (w : World) (id : AgentId) (breed : String) (history : List Intervention) : Prop :=
  ∀ before later, history = before ++ .kill id :: later →
    ∀ agent, (w.edited before).get? id = some agent → agent.breed ≠ breed

theorem unstruck_nil (w : World) (id : AgentId) (breed : String) : w.Unstruck id breed [] := by
  intro before later h
  cases before <;> cases h

theorem unstruck_cons_iff {first : Intervention} :
    w.Unstruck id breed (first :: history)
      ↔ (first = .kill id → ∀ agent, w.get? id = some agent → agent.breed ≠ breed)
        ∧ (w.intervene first).Unstruck id breed history := by
  constructor
  · intro h
    exact ⟨fun hkill => h [] history (by rw [hkill]; rfl),
      fun before later heq => h (first :: before) later (by rw [heq]; rfl)⟩
  · rintro ⟨hfirst, hrest⟩ before later heq
    cases before with
    | nil => exact hfirst (List.cons.inj heq).1
    | cons head before =>
      obtain ⟨rfl, hlater⟩ := List.cons.inj heq
      exact hrest before later hlater

/-- **What one intervention does to a list**: it adds a new agent of the breed, or it strikes off
the one that it kills, if that says that it is in the breed. -/
theorem mem_members_intervene_iff {first : Intervention} :
    id ∈ (w.intervene first).members breed
      ↔ (id ∈ w.members breed
          ∧ (first = .kill id → ∀ agent, w.get? id = some agent → agent.breed ≠ breed))
        ∨ ∃ kind, first = .create kind breed ∧ (w.create kind breed).1 = id := by
  cases first with
  | create kind other =>
    rw [intervene, members_create]
    split
    · next hbreed =>
      subst hbreed
      simp [eq_comm]
    · next hbreed => simp [Ne.symm hbreed]
  | kill other =>
    simp only [intervene, Intervention.kill.injEq, reduceCtorEq, false_and, exists_false, or_false]
    cases hget : w.get? other with
    | none =>
      rw [kill_of_get?_eq_none hget]
      refine ⟨fun hmem => ⟨hmem, ?_⟩, And.left⟩
      rintro rfl agent hagent
      cases hget.symm.trans hagent
    | some agent =>
      rw [members_kill hget]
      split
      · next hbreed =>
        rw [List.mem_filter, bne_iff_ne, hbreed]
        refine and_congr_right fun _ => ⟨fun hne heq => absurd heq.symm hne, ?_⟩
        rintro h rfl
        exact h rfl agent hget rfl
      · next hbreed =>
        refine ⟨fun hmem => ⟨hmem, ?_⟩, And.left⟩
        rintro rfl now hnow
        cases hget.symm.trans hnow
        exact Ne.symm hbreed
  | edit other f => simp [intervene]

/-- **An id is in a list if it was there before or has been given out there**, and nobody has struck
it off since. -/
theorem mem_members_edited_iff :
    id ∈ (w.edited history).members breed
      ↔ (id ∈ w.members breed ∧ w.Unstruck id breed history)
        ∨ ∃ before kind later, history = before ++ .create kind breed :: later
          ∧ ((w.edited before).create kind breed).1 = id
          ∧ ((w.edited before).create kind breed).2.Unstruck id breed later := by
  induction history generalizing w with
  | nil => simp [unstruck_nil]
  | cons first history ih =>
    rw [edited_cons, ih, mem_members_intervene_iff, unstruck_cons_iff]
    constructor
    · rintro (⟨⟨hmem, hfirst⟩ | ⟨kind, rfl, hid⟩, hlater⟩ | ⟨before, kind, later, rfl, hid, hlater⟩)
      · exact .inl ⟨hmem, hfirst, hlater⟩
      · exact .inr ⟨[], kind, history, rfl, hid, hlater⟩
      · exact .inr ⟨first :: before, kind, later, rfl, hid, hlater⟩
    · rintro (⟨hmem, hfirst, hlater⟩ | ⟨before, kind, later, heq, hid, hlater⟩)
      · exact .inl ⟨.inl ⟨hmem, hfirst⟩, hlater⟩
      · cases before with
        | nil =>
          obtain ⟨rfl, rfl⟩ := List.cons.inj heq
          exact .inl ⟨.inr ⟨kind, rfl, hid⟩, hlater⟩
        | cons head before =>
          obtain ⟨rfl, rfl⟩ := List.cons.inj heq
          exact .inr ⟨before, kind, later, rfl, hid, hlater⟩

/-! ## Who is listed and dead -/

/-- A living agent outlives every intervention but its own death. -/
theorem isAlive_intervene (h : w.isAlive id = true) {first : Intervention}
    (hne : first ≠ .kill id) : (w.intervene first).isAlive id = true := by
  obtain ⟨agent, hget⟩ := isAlive_iff.mp h
  cases first with
  | create kind breed =>
    obtain ⟨now, hnow, -⟩ := keeps_create w kind breed id agent hget
    exact isAlive_iff.mpr ⟨now, hnow⟩
  | kill other =>
    have hother : id ≠ other := fun heq => hne (congrArg Intervention.kill heq.symm)
    exact isAlive_iff.mpr ⟨agent, by rw [intervene, get?_kill, if_neg hother, hget]⟩
  | edit other f => exact (isAlive_modify w other id f).trans h

/-- Whoever was alive before a history and is dead after it has been killed in its course. -/
theorem exists_kill (h : w.isAlive id = true) (hdead : (w.edited history).isAlive id = false) :
    ∃ before agent later, history = before ++ .kill id :: later
      ∧ (w.edited before).get? id = some agent := by
  induction history generalizing w with
  | nil => cases h.symm.trans hdead
  | cons first history ih =>
    by_cases hkill : first = .kill id
    · obtain ⟨agent, hget⟩ := isAlive_iff.mp h
      exact ⟨[], agent, history, by rw [hkill]; rfl, hget⟩
    · obtain ⟨before, agent, later, rfl, hget⟩ := ih (isAlive_intervene h hkill) hdead
      exact ⟨first :: before, agent, later, rfl, hget⟩

/-- **Whoever is dead and still listed has been killed under the name of another breed.** -/
theorem exists_kill_of_stale (hmem : id ∈ (empty.edited history).members breed)
    (hdead : (empty.edited history).isAlive id = false) :
    ∃ before agent later, history = before ++ .kill id :: later
      ∧ (empty.edited before).get? id = some agent ∧ agent.breed ≠ breed := by
  obtain ⟨before, kind, later, rfl, rfl, hlater⟩ :=
    (mem_members_edited_iff.mp hmem).resolve_left fun h => List.not_mem_nil h.1
  have hborn := isAlive_iff.mpr ⟨_, get?_create_fst (empty.edited before) kind breed⟩
  rw [edited_append, edited_cons] at hdead
  obtain ⟨first, agent, rest, rfl, hget⟩ := exists_kill hborn hdead
  refine ⟨before ++ .create kind breed :: first, agent, rest, ?_, ?_,
    hlater first rest rfl agent hget⟩
  · rw [List.append_assoc, List.cons_append]
  · rw [edited_append, edited_cons]
    exact hget

/-! ## Worlds in which nobody changes breeds -/

/-- **The lists name living agents only**, and only such as say that they are in the breed. -/
def Faithful (w : World) : Prop :=
  ∀ breed, ∀ id ∈ w.members breed, ∃ agent, w.get? id = some agent ∧ agent.breed = breed

namespace Faithful

theorem empty : World.empty.Faithful := fun _ _ hmem => absurd hmem List.not_mem_nil

/-- No intervention makes a list unfaithful that leaves every agent in its breed. -/
theorem intervene (h : w.Faithful) {first : Intervention} (hkeeps : first.KeepsBreed) :
    (w.intervene first).Faithful := by
  intro breed id hmem
  rcases mem_members_intervene_iff.mp hmem with ⟨hmem, hunstruck⟩ | ⟨kind, rfl, rfl⟩
  · obtain ⟨agent, hget, hbreed⟩ := h breed id hmem
    cases first with
    | create kind other =>
      obtain ⟨now, hnow, hsame⟩ := keeps_create w kind other id agent hget
      exact ⟨now, hnow, hsame.breed_eq.trans hbreed⟩
    | kill other =>
      have hne : id ≠ other := fun heq =>
        hunstruck (congrArg Intervention.kill heq.symm) agent hget hbreed
      exact ⟨agent, by rw [World.intervene, get?_kill, if_neg hne, hget], hbreed⟩
    | edit other f =>
      rw [World.intervene, get?_modify]
      split
      · next heq =>
        rw [← heq, hget]
        exact ⟨f agent, rfl, (hkeeps agent).trans hbreed⟩
      · exact ⟨agent, hget, hbreed⟩
  · exact ⟨_, get?_create_fst w kind breed, rfl⟩

theorem edited (h : w.Faithful) (hkeeps : ∀ first ∈ history, first.KeepsBreed) :
    (w.edited history).Faithful := by
  induction history generalizing w with
  | nil => exact h
  | cons first history ih =>
    exact ih (h.intervene (hkeeps first List.mem_cons_self)) fun next hnext =>
      hkeeps next (List.mem_cons_of_mem _ hnext)

theorem isAlive_of_mem_members (h : w.Faithful) (set : AgentSet) (hmem : id ∈ set.members w) :
    w.isAlive id = true := by
  cases set with
  | breed kind name =>
    obtain ⟨agent, hget, -⟩ := h name id hmem
    exact isAlive_iff.mpr ⟨agent, hget⟩
  | fixed kind ids => exact (List.mem_filter.mp hmem).2

end Faithful

end World

end AgentSweep
