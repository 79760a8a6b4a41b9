import AgentSweep.Agent.Agent
import AgentSweep.World.SlotTable

/-!
# Worlds

A world owns its agents. It also keeps, for every breed, the ids of the agents made in that breed
in the order in which they were made; the number that the next agent will get; and the lines
printed so far.

Numbers (`who`) are given out one after the other and never again, whoever dies. The list of a
breed is kept by `create` and `kill` alone: `create` adds to it, and `kill` takes the dead agent
out of the list of the breed that the agent has *then*. Whoever changes an agent's breed by
`modify` moves no id, so that the list of its first breed goes on naming it, even after its death.
-/

namespace AgentSweep

/-- **A world of agents.** -/
structure World where
  agents : SlotTable Agent
  /-- The ids of each breed, in the order in which their agents were made. -/
  breeds : Bindings (Array AgentId)
  /-- The number that the next agent will get. Numbers are 64-bit words, but they are counted here
  without an end: only after `2 ^ 64` agents would the first number come again, and no world comes
  to make so many. -/
  nextWho : Nat
  /-- The lines printed so far. -/
  output : Array String

namespace World

/-- The world in which nothing has happened. -/
def empty : World := ⟨.empty, .empty, 0, #[]⟩

instance : Inhabited World := ⟨empty⟩

/-- The agent with a given id, if it is alive. -/
def get? (w : World) (id : AgentId) : Option Agent := w.agents.get? id

/-- Whether an id names a living agent. -/
def isAlive (w : World) (id : AgentId) : Bool := w.agents.contains id

/-- How many agents are alive. -/
def count (w : World) : Nat := w.agents.size

/-- The list of a breed. -/
def members (w : World) (breed : String) : List AgentId :=
  match w.breeds.get? breed with
  | some ids => ids.toList
  | none => []

/-- The living agent with a given number; of several, the one in the lowest slot. -/
def findByWho (w : World) (who : Nat) : Option AgentId :=
  w.agents.findId? fun agent => agent.who == who

/-- How messages name an agent. The dead are nobody. -/
def title (w : World) (id : AgentId) : String :=
  match w.get? id with
  | some agent => agent.title
  | none => "nobody"

/-- **Makes an agent** without variables of its own. -/
def create (w : World) (kind : Kind) (breed : String) : AgentId × World :=
  let id := w.agents.nextId
  (id,
    { w with
      agents := w.agents.insert ⟨kind, breed, w.nextWho, .empty⟩
      breeds := w.breeds.modify breed fun ids => (ids.getD #[]).push id
      nextWho := w.nextWho + 1 })

/-- Makes a number of turtles of one breed. -/
def createTurtles (w : World) (breed : String) (number : Nat) : Array AgentId × World :=
  number.fold
    (fun _ _ (ids, w) =>
      let (id, w) := w.create .turtle breed
      (ids.push id, w))
    (#[], w)

/-- **Removes an agent**, and its id from the list of the breed that it has now, and says whether
there was an agent to remove. An id that names nobody changes nothing. -/
def remove (w : World) (id : AgentId) : Bool × World :=
  match w.get? id with
  | some agent =>
    (true,
      { w with
        agents := w.agents.erase id
        breeds := w.breeds.adjust agent.breed fun ids => ids.filter fun member => member != id })
  | none => (false, w)

/-- The world without an agent, if it was there. -/
def kill (w : World) (id : AgentId) : World := (w.remove id).2

/-- Changes a living agent, and nothing else. -/
def modify (w : World) (id : AgentId) (f : Agent → Agent) : World :=
  { w with agents := w.agents.modify id f }

/-- Sets a variable of a living agent. -/
def setVar (w : World) (id : AgentId) (name : String) (value : Value) : World :=
  w.modify id fun agent => { agent with vars := agent.vars.insert name value }

/-- Prints a line. -/
def print (w : World) (line : String) : World :=
  { w with output := w.output.push line }

/-! ## What the operations do to agents, breeds and count -/

@[simp] theorem get?_empty (id : AgentId) : empty.get? id = none := SlotTable.get?_empty id

@[simp] theorem members_empty (breed : String) : empty.members breed = [] := rfl

theorem isAlive_iff {w : World} {id : AgentId} :
    w.isAlive id = true ↔ ∃ agent, w.get? id = some agent :=
  SlotTable.contains_iff

/-- The id of a new agent named nobody before. -/
theorem get?_fst_create (w : World) (kind : Kind) (breed : String) :
    w.get? (w.create kind breed).1 = none :=
  w.agents.get?_nextId

/-- **A new agent is found under its id**, and every other id names what it did. -/
theorem get?_create (w : World) (kind : Kind) (breed : String) (id : AgentId) :
    (w.create kind breed).2.get? id
      = if id = (w.create kind breed).1 then some ⟨kind, breed, w.nextWho, .empty⟩
        else w.get? id :=
  w.agents.get?_insert _ id

/-- **A new agent stands last in its breed.** -/
theorem members_create (w : World) (kind : Kind) (breed other : String) :
    (w.create kind breed).2.members other
      = if other = breed then w.members other ++ [(w.create kind breed).1]
        else w.members other := by
  simp only [members, create, Bindings.get?_modify]
  by_cases h : other = breed
  · subst h
    simp only [if_true]
    cases w.breeds.get? other <;> simp
  · simp only [h, if_false]

@[simp] theorem nextWho_create (w : World) (kind : Kind) (breed : String) :
    (w.create kind breed).2.nextWho = w.nextWho + 1 := rfl

@[simp] theorem output_create (w : World) (kind : Kind) (breed : String) :
    (w.create kind breed).2.output = w.output := rfl

@[simp] theorem count_create (w : World) (kind : Kind) (breed : String) :
    (w.create kind breed).2.count = w.count + 1 :=
  w.agents.size_insert _

/-- Somebody is removed if and only if the id names somebody. -/
@[simp] theorem fst_remove (w : World) (id : AgentId) : (w.remove id).1 = w.isAlive id := by
  show _ = (w.get? id).isSome
  unfold remove
  cases w.get? id <;> rfl

/-- Killing nobody changes nothing. -/
theorem kill_of_get?_eq_none {w : World} {id : AgentId} (h : w.get? id = none) :
    w.kill id = w := by
  simp only [kill, remove, h]

/-- **A killed agent is gone**, and every other id names what it did. -/
theorem get?_kill (w : World) (id other : AgentId) :
    (w.kill id).get? other = if other = id then none else w.get? other := by
  unfold kill remove
  split
  · exact w.agents.get?_erase id other
  · next h =>
    split
    · next heq => rw [heq, h]
    · rfl

/-- **A killed agent leaves the list of the breed that it has then**, and no other list. -/
theorem members_kill {w : World} {id : AgentId} {agent : Agent} (h : w.get? id = some agent)
    (breed : String) :
    (w.kill id).members breed
      = if breed = agent.breed then (w.members breed).filter fun member => member != id
        else w.members breed := by
  simp only [members, kill, remove, h, Bindings.get?_adjust]
  by_cases hbreed : breed = agent.breed
  · subst hbreed
    simp only [if_true]
    cases w.breeds.get? agent.breed <;> simp
  · simp only [hbreed, if_false]

@[simp] theorem nextWho_kill (w : World) (id : AgentId) : (w.kill id).nextWho = w.nextWho := by
  unfold kill remove
  split <;> rfl

@[simp] theorem output_kill (w : World) (id : AgentId) : (w.kill id).output = w.output := by
  unfold kill remove
  split <;> rfl

theorem count_kill {w : World} {id : AgentId} (h : w.isAlive id = true) :
    (w.kill id).count + 1 = w.count := by
  obtain ⟨agent, hagent⟩ := isAlive_iff.1 h
  simp only [kill, remove, hagent]
  exact SlotTable.size_erase h

/-- **A change of an agent is seen under its id alone.** -/
theorem get?_modify (w : World) (id other : AgentId) (f : Agent → Agent) :
    (w.modify id f).get? other = if other = id then (w.get? id).map f else w.get? other :=
  w.agents.get?_modify id other f

/-- A change of an agent moves no id. -/
@[simp] theorem members_modify (w : World) (id : AgentId) (f : Agent → Agent) (breed : String) :
    (w.modify id f).members breed = w.members breed := rfl

@[simp] theorem isAlive_modify (w : World) (id other : AgentId) (f : Agent → Agent) :
    (w.modify id f).isAlive other = w.isAlive other := by
  unfold isAlive SlotTable.contains
  rw [show (w.modify id f).agents.get? other = _ from w.get?_modify id other f]
  split
  · next h => rw [Option.isSome_map, h]; rfl
  · rfl

@[simp] theorem count_modify (w : World) (id : AgentId) (f : Agent → Agent) :
    (w.modify id f).count = w.count :=
  w.agents.size_modify id f

end World

end AgentSweep
