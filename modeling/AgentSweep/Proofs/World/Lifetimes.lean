import AgentSweep.Proofs.World.Generations

/-!
# Lifetimes

An id is given out when an agent is made, and it names this agent until the agent is killed. It
names nobody before and nobody after, and no other agent in between (`World.lifetime_law`).
This says what becomes of any id whatever: of one that has been given out, of one that has not, and
of one whose slot belongs to somebody else by now.

Two halves of it differ in what they rest on. That a living agent has been made and has not been
killed since holds of every history (`isAlive_after_iff`). That its id is a new one does not, since
a slot comes back to its first generation in the end: it holds as long as no slot is killed
`AgentId.generations` times (`nodup_born`, `isAlive_after_eq_false_of_mem_born`).
-/

namespace AgentSweep

theorem SlotTable.slot_le_of_contains {α : Type} {t : SlotTable α} {id : AgentId}
    (h : t.contains id = true) : id.slot ≤ t.slots.size := by
  obtain ⟨content, hat⟩ := at?_of_contains h
  refine Nat.le_of_not_lt fun hlt => ?_
  rw [SlotRow.at?_eq_none_of_size_lt hlt] at hat
  cases hat

namespace World

variable {w : World} {id : AgentId} {agent : Agent} {history : List Change}

/-- **No kill in a history takes the agent with a given id away**: whenever the history kills the
id, there is nobody to remove. -/
def Spares (w : World) (id : AgentId) (history : List Change) : Prop :=
  ∀ before later, history = before ++ .kill id :: later →
    ((w.after before).remove id).1 = false

theorem spares_nil (w : World) (id : AgentId) : w.Spares id [] := by
  intro before later h
  cases before <;> cases h

/-- Who is not killed at all is spared. -/
theorem spares_of_notMem (h : .kill id ∉ history) : w.Spares id history := by
  rintro before later rfl
  exact absurd (List.mem_append_right before List.mem_cons_self) h

theorem spares_cons_iff {change : Change} :
    w.Spares id (change :: history)
      ↔ (change = .kill id → w.isAlive id = false) ∧ (w.apply change).Spares id history := by
  constructor
  · intro h
    exact ⟨fun hkill => (w.fst_remove id).symm.trans (h [] history (by rw [hkill]; rfl)),
      fun before later heq => h (change :: before) later (by rw [heq]; rfl)⟩
  · rintro ⟨hfirst, hrest⟩ before later heq
    cases before with
    | nil => exact (w.fst_remove id).trans (hfirst (List.cons.inj heq).1)
    | cons first before =>
      obtain ⟨rfl, hlater⟩ := List.cons.inj heq
      exact hrest before later hlater

/-! ## An agent lives until it is killed -/

/-- **A living agent that is spared stays alive**, and changes in its variables at most. -/
theorem same_after_of_spares (h : w.get? id = some agent) (hspares : w.Spares id history) :
    ∃ now, (w.after history).get? id = some now ∧ now.SameAs agent := by
  induction history generalizing w agent with
  | nil => exact ⟨agent, h, .refl agent⟩
  | cons change history ih =>
    obtain ⟨hfirst, hrest⟩ := spares_cons_iff.mp hspares
    have hne : change ≠ .kill id := by
      intro hkill
      have hdead := hfirst hkill
      rw [isAlive_iff.mpr ⟨agent, h⟩] at hdead
      cases hdead
    obtain ⟨between, hbetween, hsame⟩ := same_apply h hne
    obtain ⟨now, hnow, hlater⟩ := ih hbetween hrest
    exact ⟨now, hnow, hlater.trans hsame⟩

/-- The new agent of a call that makes one. -/
theorem get?_create_fst (w : World) (kind : Kind) (breed : String) :
    (w.create kind breed).2.get? (w.create kind breed).1
      = some ⟨kind, breed, w.nextWho, .empty⟩ := by
  rw [get?_create, if_pos rfl]

/-- Whoever is alive after a change was alive before it, or has been made by it. -/
theorem isAlive_of_isAlive_apply {change : Change} (h : (w.apply change).isAlive id = true) :
    (w.isAlive id = true ∧ change ≠ .kill id)
      ∨ ∃ kind breed, change = .create kind breed ∧ (w.create kind breed).1 = id := by
  obtain ⟨now, hnow⟩ := isAlive_iff.mp h
  cases change with
  | create kind breed =>
    rw [apply, get?_create] at hnow
    split at hnow
    · next hid => exact .inr ⟨kind, breed, rfl, hid.symm⟩
    · exact .inl ⟨isAlive_iff.mpr ⟨now, hnow⟩, by rintro ⟨⟩⟩
  | kill other =>
    rw [apply, get?_kill] at hnow
    split at hnow
    · cases hnow
    · next hne =>
      exact .inl ⟨isAlive_iff.mpr ⟨now, hnow⟩, fun heq => hne (Change.kill.inj heq).symm⟩
  | write other f =>
    obtain ⟨agent, hget, -⟩ := exists_of_get?_write hnow
    exact .inl ⟨isAlive_iff.mpr ⟨agent, hget⟩, by rintro ⟨⟩⟩
  | print line => exact .inl ⟨isAlive_iff.mpr ⟨now, hnow⟩, by rintro ⟨⟩⟩

/-- **Whoever is alive after a history was alive before it, or has been made in its course**, and
has been spared since. -/
theorem origin_of_isAlive_after (h : (w.after history).isAlive id = true) :
    (w.isAlive id = true ∧ w.Spares id history)
      ∨ ∃ before kind breed later, history = before ++ .create kind breed :: later
        ∧ ((w.after before).create kind breed).1 = id
        ∧ ((w.after before).create kind breed).2.Spares id later := by
  induction history generalizing w with
  | nil => exact .inl ⟨h, spares_nil w id⟩
  | cons change history ih =>
    rcases ih h with ⟨halive, hspares⟩ | ⟨before, kind, breed, later, rfl, hid, hspares⟩
    · rcases isAlive_of_isAlive_apply halive with ⟨hbefore, hne⟩ | ⟨kind, breed, rfl, hid⟩
      · exact .inl ⟨hbefore, spares_cons_iff.mpr ⟨fun heq => absurd heq hne, hspares⟩⟩
      · exact .inr ⟨[], kind, breed, history, rfl, hid, hspares⟩
    · exact .inr ⟨change :: before, kind, breed, later, rfl, hid, hspares⟩

/-- **An id names somebody if and only if it has been given out and its agent has been spared
since.** -/
theorem isAlive_after_iff :
    (empty.after history).isAlive id = true
      ↔ ∃ before kind breed later, history = before ++ .create kind breed :: later
        ∧ ((empty.after before).create kind breed).1 = id
        ∧ ((empty.after before).create kind breed).2.Spares id later := by
  constructor
  · intro h
    refine (origin_of_isAlive_after h).resolve_left fun ⟨halive, _⟩ => ?_
    obtain ⟨agent, hget⟩ := isAlive_iff.mp halive
    rw [get?_empty] at hget
    cases hget
  · rintro ⟨before, kind, breed, later, rfl, rfl, hspares⟩
    obtain ⟨now, hnow, -⟩ := same_after_of_spares (get?_create_fst _ kind breed) hspares
    rw [after_append]
    exact isAlive_iff.mpr ⟨now, hnow⟩

/-! ## An id is given out once -/

/-- **No id is given out twice** by a history in which no slot is killed too often. -/
theorem nodup_born (hkills : ∀ slot, w.kills slot history < AgentId.generations) :
    (w.born history).Nodup := by
  induction history generalizing w with
  | nil => exact List.nodup_nil
  | cons change history ih =>
    have hlater : ∀ slot, (w.apply change).kills slot history < AgentId.generations := by
      intro slot
      have hall := hkills slot
      rw [kills] at hall
      exact Nat.lt_of_le_of_lt (Nat.le_add_left _ _) hall
    cases change with
    | create kind breed =>
      exact List.nodup_cons.mpr
        ⟨notMem_born (get?_create_fst w kind breed) (hlater _), ih hlater⟩
    | kill | write | print => exact ih hlater

/-- The id of a living agent names nobody ever after the death of the agent, as long as its slot is
not killed too often. -/
theorem isAlive_after_append_eq_false (h : w.get? id = some agent) {first second : List Change}
    (hdead : (w.after first).isAlive id = false)
    (hkills : w.kills id.slot (first ++ second) < AgentId.generations) :
    (w.after (first ++ second)).isAlive id = false := by
  refine Bool.eq_false_iff.mpr fun halive => ?_
  obtain ⟨now, hnow⟩ := isAlive_iff.mp halive
  -- its slot is in the old generation, so that nobody can have been killed in it
  have hzero := kills_eq_zero_of_generation? h hkills (SlotTable.generation?_of_get? hnow)
  have hspared : w.kills id.slot first = 0 :=
    Nat.le_zero.mp (hzero ▸ kills_le_append id.slot w first second)
  obtain ⟨before, hbefore, -⟩ := same_after_of_kills_eq_zero h hspared
  rw [isAlive_iff.mpr ⟨before, hbefore⟩] at hdead
  cases hdead

/-- **The dead do not come back**: an id that has been given out and names nobody names nobody
ever after, as long as its slot is not killed too often. -/
theorem isAlive_after_eq_false_of_mem_born {first second : List Change} (hborn : id ∈ w.born first)
    (hdead : (w.after first).isAlive id = false)
    (hkills : w.kills id.slot (first ++ second) < AgentId.generations) :
    (w.after (first ++ second)).isAlive id = false := by
  obtain ⟨before, kind, breed, later, rfl, rfl⟩ := mem_born hborn
  have hbirth := get?_create_fst (w.after before) kind breed
  rw [List.append_assoc, List.cons_append, after_append, after_cons]
  rw [after_append, after_cons] at hdead
  rw [List.append_assoc, List.cons_append, kills_append, kills] at hkills
  have hlater : kills _ ((w.after before).create kind breed).2 (later ++ second)
      < AgentId.generations :=
    Nat.lt_of_le_of_lt (Nat.le_trans (Nat.le_add_left _ _) (Nat.le_add_left _ _)) hkills
  exact isAlive_after_append_eq_false hbirth hdead hlater

/-! ## The law -/

/-- The null id names nobody, as long as its slot has not been made. -/
theorem isAlive_null_eq_false (h : w.agents.slots.size < AgentId.lastSlot) :
    w.isAlive .null = false :=
  Bool.eq_false_iff.mpr fun halive => Nat.not_le_of_gt h (SlotTable.slot_le_of_contains halive)

/-- **An id names an agent exactly while the agent lives.** Whatever has happened, an id names
somebody if and only if a call gave it out and no kill has taken its agent away since. It is the
agent of that very call then. No two calls give out the same id, and an id that has been given out
and names nobody will not name anybody again, however often its slot is used. -/
theorem lifetime_law (history : List Change)
    (hkills : ∀ slot, empty.kills slot history < AgentId.generations) :
    (∀ id, (empty.after history).isAlive id = true
        ↔ ∃ before kind breed later, history = before ++ .create kind breed :: later
          ∧ ((empty.after before).create kind breed).1 = id
          ∧ ((empty.after before).create kind breed).2.Spares id later)
      ∧ (∀ before kind breed later, history = before ++ .create kind breed :: later →
          ((empty.after before).create kind breed).2.Spares
            ((empty.after before).create kind breed).1 later →
          ∃ agent,
            (empty.after history).get? ((empty.after before).create kind breed).1 = some agent
              ∧ agent.SameAs ⟨kind, breed, (empty.after before).nextWho, .empty⟩)
      ∧ (empty.born history).Nodup
      ∧ (∀ before between later, history = before ++ between ++ later →
          ∀ id ∈ empty.born before, (empty.after before).isAlive id = false →
            (empty.after (before ++ between)).isAlive id = false)
      ∧ ((empty.after history).agents.slots.size < AgentId.lastSlot →
          (empty.after history).isAlive .null = false) := by
  refine ⟨fun _ => isAlive_after_iff, ?_, nodup_born hkills, ?_, isAlive_null_eq_false⟩
  · rintro before kind breed later rfl hspares
    rw [after_append, after_cons]
    exact same_after_of_spares (get?_create_fst (empty.after before) kind breed) hspares
  · rintro before between later rfl id hborn hdead
    exact isAlive_after_eq_false_of_mem_born hborn hdead
      (Nat.lt_of_le_of_lt (kills_le_append id.slot empty _ later) (hkills id.slot))

/-- The first of two cows dies and leaves its slot to a field, and somebody kills the cow once
more. -/
def succession : List Change :=
  [.create .turtle "cows", .create .turtle "cows", .kill ⟨1, 0⟩, .create .patch "fields",
    .kill ⟨1, 0⟩, .write ⟨1, 1⟩ fun vars => vars.insert "grass" (.boolean true)]

/-- The second kill spares the field, and the id of the cow names nobody. -/
theorem lifetime_law_succession :
    (∀ slot, empty.kills slot succession < AgentId.generations)
      ∧ empty.born succession = [⟨1, 0⟩, ⟨2, 0⟩, ⟨1, 1⟩]
      ∧ (empty.born succession).Nodup
      ∧ (empty.after succession).isAlive ⟨1, 0⟩ = false
      ∧ ∃ agent, (empty.after succession).get? ⟨1, 1⟩ = some agent
        ∧ agent.SameAs ⟨.patch, "fields", 2, .empty⟩ := by
  have hkills (slot : Nat) : empty.kills slot succession < AgentId.generations :=
    Nat.lt_of_le_of_lt (kills_le_length empty slot succession) (by decide)
  obtain ⟨-, hagent, hnodup, hdead, -⟩ := lifetime_law succession hkills
  refine ⟨hkills, by decide +kernel, hnodup, ?_, ?_⟩
  · exact hdead (succession.take 3) (succession.drop 3) [] rfl ⟨1, 0⟩ (by decide +kernel)
      (by decide +kernel)
  · refine hagent (succession.take 3) .patch "fields" (succession.drop 4) rfl ?_
    exact spares_cons_iff.mpr ⟨nofun, spares_cons_iff.mpr ⟨nofun, spares_nil _ _⟩⟩

end World

end AgentSweep
