import AgentSweep.Proofs.World.History

/-!
# Generations of a slot

The generation of a slot is that of whoever is in it or, while nobody is, the one that it will give
to its next occupant. It moves on by one with every kill and never otherwise, and it begins again
after `AgentId.generations` kills. As long as a slot has not been killed that often, an id that
named a living agent names the same agent or nobody (`World.same_after`), and it is not given out a
second time (`World.notMem_born`).
-/

namespace AgentSweep

/-! ## What the operations of a table do to generations -/

namespace SlotTable

variable {α : Type}

/-- **The generation of a slot**, if the slot has ever been used. -/
def generation? (t : SlotTable α) (slot : Nat) : Option Nat :=
  match t.occupant? slot with
  | some o => some o.generation
  | none => (t.vacant.find? fun id => id.slot == slot).map AgentId.generation

theorem generation?_of_get? {t : SlotTable α} {id : AgentId} {content : α}
    (h : t.get? id = some content) : t.generation? id.slot = some id.generation := by
  have hoccupant : t.occupant? id.slot = some ⟨id.generation, content⟩ :=
    congrArg Option.join (get?_eq_some_iff.mp h)
  rw [generation?, hoccupant]

/-- The next id carries the generation of its slot, unless the slot is a new one. -/
theorem generation?_nextId {t : SlotTable α} {generation : Nat}
    (h : t.generation? t.nextId.slot = some generation) : t.nextId.generation = generation := by
  obtain ⟨slots, vacant, hempty, hnodup⟩ := t
  cases vacant with
  | nil =>
    have hslot : (nextId ⟨slots, [], hempty, hnodup⟩).slot = slots.size + 1 := rfl
    rw [generation?, occupant?, hslot,
      SlotRow.at?_eq_none_of_size_lt (Nat.lt_succ_self _)] at h
    cases h
  | cons next rest =>
    rw [show nextId ⟨slots, next :: rest, hempty, hnodup⟩ = next from rfl] at h ⊢
    rw [generation?, occupant?, hempty next List.mem_cons_self] at h
    simpa using h

theorem generation?_insert {t : SlotTable α} {slot generation : Nat} (content : α)
    (h : t.generation? slot = some generation) :
    (t.insert content).generation? slot = some generation := by
  obtain ⟨slots, vacant, hempty, hnodup⟩ := t
  cases vacant with
  | nil =>
    have hne : slot ≠ slots.size + 1 := by
      rintro rfl
      rw [generation?, occupant?, SlotRow.at?_eq_none_of_size_lt (Nat.lt_succ_self _)] at h
      cases h
    rw [generation?, occupant?] at h ⊢
    rw [insert, SlotRow.at?_push, if_neg hne]
    exact h
  | cons next rest =>
    by_cases hslot : next.slot = slot
    · subst hslot
      rw [generation?, occupant?, hempty next List.mem_cons_self] at h
      rw [generation?, occupant?, insert, SlotRow.at?_put, if_pos rfl,
        hempty next List.mem_cons_self]
      simpa using h
    · rw [generation?, occupant?, List.find?_cons_of_neg (by simpa using hslot)] at h
      rw [generation?, occupant?, insert, SlotRow.at?_put, if_neg hslot]
      exact h

/-- **Taking somebody out moves the generation of the slot on by one**, and no other. -/
theorem generation?_erase {t : SlotTable α} {id : AgentId} (h : t.contains id = true)
    (slot : Nat) :
    (t.erase id).generation? slot
      = if id.slot = slot then some id.successor.generation else t.generation? slot := by
  obtain ⟨content, hat⟩ := at?_of_contains h
  rw [erase, dif_pos h, generation?, occupant?, SlotRow.at?_put]
  by_cases hslot : id.slot = slot
  · subst hslot
    rw [if_pos rfl, if_pos rfl, hat, List.find?_cons_of_pos (by simp)]
    rfl
  · rw [if_neg hslot, if_neg hslot, List.find?_cons_of_neg (by simpa using hslot)]
    rfl

theorem generation?_modify (t : SlotTable α) (id : AgentId) (f : α → α) (slot : Nat) :
    (t.modify id f).generation? slot = t.generation? slot := by
  obtain ⟨slots, vacant, hempty, hnodup⟩ := t
  rw [generation?, generation?, occupant?, occupant?, modify, SlotRow.at?_change]
  by_cases hslot : id.slot = slot
  · subst hslot
    rw [if_pos rfl]
    cases slots.at? id.slot with
    | none => rfl
    | some held =>
      cases held with
      | none => rfl
      | some o =>
        simp only [Option.map_some, Option.join_some]
        split <;> rfl
  · rw [if_neg hslot]

end SlotTable

/-! ## Counting on -/

namespace AgentId

/-- The generation of a slot after some more kills. -/
def worn (generation kills : Nat) : Nat :=
  if kills = 0 then generation else (generation + kills) % generations

/-- Of several kills the first may be counted before the others. -/
theorem worn_succ (generation kills : Nat) :
    worn generation (1 + kills) = worn ((generation + 1) % generations) kills := by
  unfold worn
  rw [if_neg (by omega), ← Nat.add_assoc]
  split
  · next h => rw [h, Nat.add_zero]
  · rw [Nat.mod_add_mod]

/-- A slot does not come back to a generation before it has been killed `generations` times. -/
theorem worn_ne {generation kills : Nat} (hpos : 0 < kills) (h : kills < generations) :
    worn generation kills ≠ generation := by
  unfold worn generations at *
  split <;> omega

end AgentId

/-! ## What histories do to generations -/

namespace World

variable {w : World} {id : AgentId} {agent : Agent}

theorem generation?_apply {slot generation : Nat}
    (h : w.agents.generation? slot = some generation) (change : Change) :
    (w.apply change).agents.generation? slot
      = some (if w.vacates slot change then (generation + 1) % AgentId.generations
          else generation) := by
  cases change with
  | create kind breed => exact SlotTable.generation?_insert _ h
  | print line => exact h
  | write id f => exact (SlotTable.generation?_modify w.agents id _ slot).trans h
  | kill id =>
    cases hget : w.get? id with
    | none =>
      have halive : w.isAlive id = false := congrArg Option.isSome hget
      rw [apply, kill_of_get?_eq_none hget, vacates, halive, Bool.and_false]
      exact h
    | some agent =>
      have halive : w.agents.contains id = true := isAlive_iff.mpr ⟨agent, hget⟩
      have herase : (w.apply (.kill id)).agents = w.agents.erase id := by
        simp only [apply, kill, remove, hget]
      rw [herase, SlotTable.generation?_erase halive, vacates, isAlive, halive, Bool.and_true]
      by_cases hslot : id.slot = slot
      · have hgeneration : id.generation = generation := by
          rw [← hslot, SlotTable.generation?_of_get? hget] at h
          exact Option.some.inj h
        rw [if_pos hslot, if_pos (by simpa using hslot), ← hgeneration]
        rfl
      · rw [if_neg hslot, if_neg (by simpa using hslot), h]

/-- **The generation of a slot counts the kills in it.** -/
theorem generation?_after {slot generation : Nat}
    (h : w.agents.generation? slot = some generation) (history : List Change) :
    (w.after history).agents.generation? slot
      = some (AgentId.worn generation (w.kills slot history)) := by
  induction history generalizing w generation with
  | nil => exact h
  | cons change history ih =>
    rw [after_cons, ih (generation?_apply h change), kills]
    split
    · rw [AgentId.worn_succ]
    · rw [Nat.zero_add]

/-! ## Agents and their ids -/

/-- A living agent outlives every change but its own death. -/
theorem same_apply (h : w.get? id = some agent) {change : Change} (hne : change ≠ .kill id) :
    ∃ now, (w.apply change).get? id = some now ∧ now.SameAs agent := by
  cases change with
  | print line => exact ⟨agent, h, .refl agent⟩
  | create kind breed => exact keeps_create w kind breed id agent h
  | write other f => exact keeps_write w other f id agent h
  | kill other =>
    have hother : id ≠ other := fun heq => hne (congrArg Change.kill heq.symm)
    exact ⟨agent, by rw [apply, get?_kill, if_neg hother, h], .refl agent⟩

theorem same_after_of_kills_eq_zero {history : List Change} (h : w.get? id = some agent)
    (hkills : w.kills id.slot history = 0) :
    ∃ now, (w.after history).get? id = some now ∧ now.SameAs agent := by
  induction history generalizing w agent with
  | nil => exact ⟨agent, h, .refl agent⟩
  | cons change history ih =>
    rw [kills] at hkills
    have hne : change ≠ .kill id := by
      rintro rfl
      rw [vacates, isAlive_iff.mpr ⟨agent, h⟩, Bool.and_true, if_pos (beq_self_eq_true _)] at hkills
      omega
    obtain ⟨between, hbetween, hsame⟩ := same_apply h hne
    obtain ⟨now, hnow, hlater⟩ := ih hbetween (by omega)
    exact ⟨now, hnow, hlater.trans hsame⟩

/-- A slot that is in the generation of an agent who was in it before has not been vacated since,
unless it has been killed `generations` times. -/
theorem kills_eq_zero_of_generation? {history : List Change} (h : w.get? id = some agent)
    (hkills : w.kills id.slot history < AgentId.generations)
    (hnow : (w.after history).agents.generation? id.slot = some id.generation) :
    w.kills id.slot history = 0 := by
  rw [generation?_after (SlotTable.generation?_of_get? h), Option.some.injEq] at hnow
  exact Nat.eq_zero_of_not_pos fun hpos => AgentId.worn_ne hpos hkills hnow

/-- **An id names one agent only.** If an id of a living agent names somebody after a history in
which its slot is not killed too often, it is that agent, changed in its variables at most. -/
theorem same_after {history : List Change} (h : w.get? id = some agent)
    (hkills : w.kills id.slot history < AgentId.generations)
    (halive : (w.after history).isAlive id = true) :
    ∃ now, (w.after history).get? id = some now ∧ now.SameAs agent := by
  obtain ⟨now, hnow⟩ := isAlive_iff.mp halive
  -- the slot is in its old generation, so that nobody can have been killed in it
  exact same_after_of_kills_eq_zero h
    (kills_eq_zero_of_generation? h hkills (SlotTable.generation?_of_get? hnow))

/-- **The id of a living agent is not given out again** by a history in which its slot is not
killed too often. -/
theorem notMem_born {history : List Change} (h : w.get? id = some agent)
    (hkills : w.kills id.slot history < AgentId.generations) : id ∉ w.born history := by
  intro hmem
  obtain ⟨first, kind, breed, second, rfl, rfl⟩ := mem_born hmem
  have hfirst : w.kills (w.after first).agents.nextId.slot first < AgentId.generations :=
    Nat.lt_of_le_of_lt (kills_le_append _ w first _) hkills
  have hgeneration := generation?_after (SlotTable.generation?_of_get? h) first
  -- the id is given out by a slot that nobody is in, so its agent must have been killed before
  have hzero := kills_eq_zero_of_generation? h hfirst
    (hgeneration.trans (congrArg some (SlotTable.generation?_nextId hgeneration).symm))
  obtain ⟨now, hnow, -⟩ := same_after_of_kills_eq_zero h hzero
  rw [get?_fst_create] at hnow
  cases hnow

end World

end AgentSweep
