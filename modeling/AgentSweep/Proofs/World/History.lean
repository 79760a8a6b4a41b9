import AgentSweep.World.World

/-!
# Histories of a world

Whatever happens to a world is made up of changes of four sorts: an agent is made, an agent is
killed, the variables of an agent are written, or a line is printed. A *history* is a list of such
changes, and `World.after` is the world to which it leads.

Two things that no world remembers can be read off a history: how often it has killed the agent in
a given slot (`World.kills`), and which ids it has given out (`World.born`). Both depend on the
world in which the history begins, since an id that names nobody cannot be killed and a new id is
taken from the slots that are vacant at that moment.
-/

namespace AgentSweep

/-- **A change of a world.** -/
inductive Change where
  | create (kind : Kind) (breed : String)
  /-- An agent is killed. If the id names nobody, nothing happens. -/
  | kill (id : AgentId)
  /-- The variables of an agent become a function of what they were. -/
  | write (id : AgentId) (f : Bindings Value → Bindings Value)
  | print (line : String)

/-- **Two states of one agent**: nothing differs but the variables. -/
structure Agent.SameAs (a b : Agent) : Prop where
  kind_eq : a.kind = b.kind
  breed_eq : a.breed = b.breed
  who_eq : a.who = b.who

namespace Agent.SameAs

theorem refl (a : Agent) : a.SameAs a := ⟨rfl, rfl, rfl⟩

theorem trans {a b c : Agent} (h : a.SameAs b) (h' : b.SameAs c) : a.SameAs c :=
  ⟨h.kind_eq.trans h'.kind_eq, h.breed_eq.trans h'.breed_eq, h.who_eq.trans h'.who_eq⟩

end Agent.SameAs

namespace World

/-- Writes the variables of a living agent. -/
def write (w : World) (id : AgentId) (f : Bindings Value → Bindings Value) : World :=
  w.modify id fun agent => { agent with vars := f agent.vars }

/-- The world after one change. -/
def apply (w : World) : Change → World
  | .create kind breed => (w.create kind breed).2
  | .kill id => w.kill id
  | .write id f => w.write id f
  | .print line => w.print line

/-- **The world after a history.** -/
def after (w : World) (history : List Change) : World := history.foldl apply w

@[simp] theorem after_nil (w : World) : w.after [] = w := rfl

@[simp] theorem after_cons (w : World) (change : Change) (history : List Change) :
    w.after (change :: history) = (w.apply change).after history := rfl

@[simp] theorem after_append (w : World) (first second : List Change) :
    w.after (first ++ second) = (w.after first).after second :=
  List.foldl_append

/-- **What every change preserves, every history preserves.** -/
theorem after_induction {motive : World → Prop} {w : World} (h : motive w)
    (step : ∀ v change, motive v → motive (v.apply change)) (history : List Change) :
    motive (w.after history) := by
  induction history generalizing w with
  | nil => exact h
  | cons change history ih => exact ih (step w change h)

/-- What has been printed stays as it is, and comes before what is printed later. -/
theorem output_after (w : World) (history : List Change) :
    ∃ lines, (w.after history).output = w.output ++ lines := by
  refine after_induction (motive := fun v => ∃ lines, v.output = w.output ++ lines)
    ⟨#[], Array.append_empty.symm⟩ (fun v change hv => ?_) history
  obtain ⟨lines, hlines⟩ := hv
  cases change with
  | create | write => exact ⟨lines, hlines⟩
  | kill id => exact ⟨lines, (v.output_kill id).trans hlines⟩
  | print line => exact ⟨lines.push line, (congrArg (Array.push · line) hlines).trans
      Array.append_push.symm⟩

/-- Making a number of turtles is a history. -/
theorem createTurtles_eq_after (w : World) (breed : String) (number : Nat) :
    (w.createTurtles breed number).2
      = w.after (List.replicate number (.create .turtle breed)) := by
  unfold createTurtles
  induction number with
  | zero => rfl
  | succ number ih =>
    rw [Nat.fold_succ, List.replicate_succ', after_append, ← ih]
    rfl

/-! ## What happens to agents -/

theorem get?_write (w : World) (id other : AgentId) (f : Bindings Value → Bindings Value) :
    (w.write id f).get? other
      = if other = id then (w.get? id).map fun agent => { agent with vars := f agent.vars }
        else w.get? other :=
  w.get?_modify id other _

/-- What an id names in one world, it names in another, with no difference but in the
variables. -/
def Keeps (w v : World) (id : AgentId) : Prop :=
  ∀ agent, w.get? id = some agent → ∃ now, v.get? id = some now ∧ now.SameAs agent

theorem Keeps.of_get?_eq {w v : World} {id : AgentId} (h : v.get? id = w.get? id) : w.Keeps v id :=
  fun agent hagent => ⟨agent, h.trans hagent, .refl agent⟩

theorem keeps_create (w : World) (kind : Kind) (breed : String) (id : AgentId) :
    w.Keeps (w.create kind breed).2 id := by
  intro agent hget
  have hne : id ≠ (w.create kind breed).1 := by
    rintro rfl
    rw [get?_fst_create] at hget
    cases hget
  exact ⟨agent, by rw [get?_create, if_neg hne, hget], .refl agent⟩

theorem keeps_write (w : World) (id : AgentId) (f : Bindings Value → Bindings Value)
    (other : AgentId) : w.Keeps (w.write id f) other := by
  intro agent hget
  rw [get?_write]
  split
  · next heq =>
    rw [← heq, hget, Option.map_some]
    exact ⟨_, rfl, ⟨rfl, rfl, rfl⟩⟩
  · exact ⟨agent, hget, .refl agent⟩

/-- Whoever is alive after a change of variables was alive before it. -/
theorem exists_of_get?_write {w : World} {id other : AgentId}
    {f : Bindings Value → Bindings Value} {now : Agent}
    (h : (w.write id f).get? other = some now) :
    ∃ agent, w.get? other = some agent ∧ now.SameAs agent := by
  rw [get?_write] at h
  split at h
  · next heq =>
    obtain ⟨agent, hget, rfl⟩ := Option.map_eq_some_iff.mp h
    exact ⟨agent, heq ▸ hget, ⟨rfl, rfl, rfl⟩⟩
  · exact ⟨now, h, .refl now⟩

/-! ## Kills and births -/

/-- Whether a change kills the agent in a slot. -/
def vacates (w : World) (slot : Nat) : Change → Bool
  | .kill id => id.slot == slot && w.isAlive id
  | _ => false

/-- The id that a change gives out, if it makes an agent. -/
def newborn? (w : World) : Change → Option AgentId
  | .create kind breed => some (w.create kind breed).1
  | _ => none

/-- **How often a history kills the agent in a slot.** -/
def kills (slot : Nat) : World → List Change → Nat
  | _, [] => 0
  | w, change :: history =>
    (if w.vacates slot change then 1 else 0) + kills slot (w.apply change) history

/-- **The ids of the agents that a history makes**, in their order. -/
def born : World → List Change → List AgentId
  | _, [] => []
  | w, change :: history => (w.newborn? change).toList ++ born (w.apply change) history

theorem kills_append (slot : Nat) (w : World) (first second : List Change) :
    kills slot w (first ++ second) = kills slot w first + kills slot (w.after first) second := by
  induction first generalizing w with
  | nil => exact (Nat.zero_add _).symm
  | cons change first ih => rw [List.cons_append, kills, ih, kills, Nat.add_assoc]; rfl

/-- No more is killed in a part of a history than in the whole. -/
theorem kills_le_append (slot : Nat) (w : World) (first second : List Change) :
    kills slot w first ≤ kills slot w (first ++ second) := by
  rw [kills_append]
  exact Nat.le_add_right _ _

theorem kills_le_length (w : World) (slot : Nat) (history : List Change) :
    kills slot w history ≤ history.length := by
  induction history generalizing w with
  | nil => exact Nat.le_refl 0
  | cons change history ih =>
    have hlater := ih (w.apply change)
    rw [kills, List.length_cons]
    split <;> omega

/-- An agent is born by one of the changes. -/
theorem mem_born {w : World} {history : List Change} {id : AgentId} (h : id ∈ w.born history) :
    ∃ first kind breed second, history = first ++ .create kind breed :: second
      ∧ id = ((w.after first).create kind breed).1 := by
  induction history generalizing w with
  | nil => cases h
  | cons change history ih =>
    rcases List.mem_append.mp h with hnew | hlater
    · cases change with
      | create kind breed =>
        exact ⟨[], kind, breed, history, rfl, (Option.some.inj (Option.mem_toList.mp hnew)).symm⟩
      | kill | write | print => cases hnew
    · obtain ⟨first, kind, breed, second, rfl, hid⟩ := ih hlater
      exact ⟨change :: first, kind, breed, second, rfl, hid⟩

end World

end AgentSweep
