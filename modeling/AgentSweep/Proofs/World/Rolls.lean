import AgentSweep.Proofs.World.Numbers
import Mathlib.Data.List.Basic

/-!
# The roll of a breed

The numbers of the living agents of a breed, in the order in which they were given out, say most of
what there is to know of the breed: how many agents it has and which. A new agent adds the next
number, and a death takes one number away.

Whether somebody from the past is still alive can be read off the roll as well. Numbers are given
out once, so whoever has the number of an old agent is that agent, as long as no slot has seen so
many deaths that its generations begin again.
-/

namespace AgentSweep

namespace World

variable {w v : World} {id : AgentId} {agent : Agent} {breed : String} {who : Nat}

/-- The number of a living agent. -/
def who? (w : World) (id : AgentId) : Option Nat := (w.get? id).map Agent.who

/-- **The numbers of the living agents of a breed**, in the order in which they were made. -/
def roll (w : World) (breed : String) : List Nat := (w.members breed).filterMap w.who?

/-- The world without the agent that has a number, if there is one. -/
def killByWho (w : World) (who : Nat) : World :=
  match w.findByWho who with
  | some id => w.kill id
  | none => w

theorem who?_eq_some_iff :
    w.who? id = some who ↔ ∃ agent, w.get? id = some agent ∧ agent.who = who :=
  Option.map_eq_some_iff

@[simp] theorem nextWho_killByWho (w : World) (who : Nat) :
    (w.killByWho who).nextWho = w.nextWho := by
  rw [killByWho]
  cases w.findByWho who with
  | none => rfl
  | some id => exact w.nextWho_kill id

@[simp] theorem output_killByWho (w : World) (who : Nat) :
    (w.killByWho who).output = w.output := by
  rw [killByWho]
  cases w.findByWho who with
  | none => rfl
  | some id => exact w.output_kill id

/-! ## What the operations do to a roll -/

theorem mem_roll_iff (h : w.Indexed) :
    who ∈ w.roll breed
      ↔ ∃ id agent, w.get? id = some agent ∧ agent.breed = breed ∧ agent.who = who := by
  simp only [roll, List.mem_filterMap, h.mem_members_iff, who?_eq_some_iff]
  constructor
  · rintro ⟨id, ⟨agent, hget, hbreed⟩, _, hsame, hwho⟩
    cases hget.symm.trans hsame
    exact ⟨id, agent, hget, hbreed, hwho⟩
  · rintro ⟨id, agent, hget, hbreed, hwho⟩
    exact ⟨id, ⟨agent, hget, hbreed⟩, agent, hget, hwho⟩

/-- Every member of a breed is on its roll. -/
theorem length_roll (h : w.Indexed) (breed : String) :
    (w.roll breed).length = (w.members breed).length := by
  rw [roll, List.filterMap_length_eq_length]
  intro id hmem
  obtain ⟨agent, hget⟩ := isAlive_iff.1 (h.isAlive_of_mem_members hmem)
  simp only [who?, hget, Option.map_some, Option.isSome_some]

@[simp] theorem roll_print (w : World) (line : String) (breed : String) :
    (w.print line).roll breed = w.roll breed := rfl

@[simp] theorem roll_write (w : World) (id : AgentId) (f : Bindings Value → Bindings Value)
    (breed : String) : (w.write id f).roll breed = w.roll breed := by
  rw [roll, write, members_modify]
  refine congrArg (List.filterMap · _) (funext fun other => ?_)
  simp only [who?, get?_modify]
  split_ifs with heq
  · rw [heq, Option.map_map]
    rfl
  · rfl

/-- **A new agent is the last one on the roll of its breed.** -/
theorem roll_create (h : w.Indexed) (kind : Kind) (breed : String) :
    (w.create kind breed).2.roll breed = w.roll breed ++ [w.nextWho] := by
  have hold : ∀ id ∈ w.members breed, (w.create kind breed).2.who? id = w.who? id := by
    intro id hmem
    have hne : id ≠ (w.create kind breed).1 := by
      rintro rfl
      exact h.notMem_members_of_get?_eq_none (w.get?_fst_create kind breed) breed hmem
    rw [who?, get?_create, if_neg hne, who?]
  have hnew : (w.create kind breed).2.who? (w.create kind breed).1 = some w.nextWho := by
    rw [who?, get?_create, if_pos rfl]
    rfl
  rw [roll, members_create, if_pos rfl, List.filterMap_append, List.filterMap_congr hold,
    List.filterMap_cons_some hnew, List.filterMap_nil, roll]

/-- **Whoever has the number is gone**, and every other agent is as it was. -/
theorem who?_killByWho (h : w.Numbered) (who : Nat) (id : AgentId) :
    (w.killByWho who).who? id = (w.who? id).filter fun other => other != who := by
  have hkept (hne : ∀ other, w.who? id = some other → other ≠ who) :
      w.who? id = (w.who? id).filter fun other => other != who := by
    cases hwho : w.who? id with
    | none => rfl
    | some other => rw [Option.filter_some, if_pos (bne_iff_ne.mpr (hne other hwho))]
  cases hfind : w.findByWho who with
  | none =>
    simp only [killByWho, hfind]
    refine hkept ?_
    rintro _ hother rfl
    have hfound := h.findByWho_eq_some_iff.2 (who?_eq_some_iff.1 hother)
    rw [hfind] at hfound
    cases hfound
  | some target =>
    obtain ⟨agent, hget, rfl⟩ := h.findByWho_eq_some_iff.1 hfind
    simp only [killByWho, hfind]
    rw [who?, get?_kill]
    split_ifs with heq
    · rw [heq, who?, hget, Option.map_none, Option.map_some, Option.filter_some, bne_self_eq_false]
      rfl
    · refine hkept ?_
      rintro _ hother rfl
      obtain ⟨found, hfound, hwho⟩ := who?_eq_some_iff.1 hother
      exact heq (h.eq_of_who_eq hfound hget hwho)

/-- **The number of whoever is killed is struck off the roll**, and the other numbers stay. -/
theorem roll_killByWho (h : w.Indexed) (hnumbered : w.Numbered) (who : Nat) (breed : String) :
    (w.killByWho who).roll breed = (w.roll breed).filter fun other => other != who := by
  -- the dead have no number, so it does not matter that they are no longer members
  have hmembers : (w.killByWho who).roll breed
      = (w.members breed).filterMap (w.killByWho who).who? := by
    rw [roll]
    cases hfind : w.findByWho who with
    | none => simp only [killByWho, hfind]
    | some target =>
      simp only [killByWho, hfind]
      rw [h.members_kill, List.filterMap_filter]
      refine List.filterMap_congr fun id _ => ?_
      by_cases heq : id = target
      · rw [heq, bne_self_eq_false, who?, get?_kill, if_pos rfl]
        rfl
      · rw [if_pos (bne_iff_ne.mpr heq)]
  rw [hmembers, funext (who?_killByWho hnumbered who), roll, List.filter_filterMap]

/-! ## What leads from one world to another -/

/-- **One world comes after another**: it has come out of it by changes, by which no slot has lost
more than a given number of agents. -/
def Follows (w : World) (deaths : Nat) (v : World) : Prop :=
  ∃ history, v = w.after history ∧ ∀ slot, w.kills slot history ≤ deaths

namespace Follows

variable {deaths : Nat}

theorem refl (w : World) : w.Follows 0 w := ⟨[], rfl, fun _ => Nat.le_refl 0⟩

theorem trans {u : World} {more : Nat} (h : w.Follows deaths v) (hnext : v.Follows more u) :
    w.Follows (deaths + more) u := by
  obtain ⟨first, rfl, hfirst⟩ := h
  obtain ⟨second, rfl, hsecond⟩ := hnext
  refine ⟨first ++ second, (w.after_append first second).symm, fun slot => ?_⟩
  rw [kills_append]
  exact Nat.add_le_add (hfirst slot) (hsecond slot)

theorem create (w : World) (kind : Kind) (breed : String) :
    w.Follows 0 (w.create kind breed).2 :=
  ⟨[.create kind breed], rfl, fun _ => Nat.le_refl 0⟩

theorem write (w : World) (id : AgentId) (f : Bindings Value → Bindings Value) :
    w.Follows 0 (w.write id f) :=
  ⟨[.write id f], rfl, fun _ => Nat.le_refl 0⟩

theorem print (w : World) (line : String) : w.Follows 0 (w.print line) :=
  ⟨[.print line], rfl, fun _ => Nat.le_refl 0⟩

theorem kill (w : World) (id : AgentId) : w.Follows 1 (w.kill id) :=
  ⟨[.kill id], rfl, fun slot => kills_le_length w slot _⟩

theorem killByWho (w : World) (who : Nat) : w.Follows 1 (w.killByWho who) := by
  cases hfind : w.findByWho who with
  | none =>
    simp only [World.killByWho, hfind]
    exact ⟨[], rfl, fun _ => Nat.zero_le 1⟩
  | some id =>
    simp only [World.killByWho, hfind]
    exact kill w id

theorem indexed (h : w.Follows deaths v) (hw : w.Indexed) : v.Indexed := by
  obtain ⟨history, rfl, -⟩ := h
  exact hw.after history

theorem numbered (h : w.Follows deaths v) (hindexed : w.Indexed) (hw : w.Numbered) :
    v.Numbered := by
  obtain ⟨history, rfl, -⟩ := h
  exact hw.after hindexed history

/-- An id that is alive still names the agent that it named. -/
theorem same (h : w.Follows deaths v) (hdeaths : deaths < AgentId.generations)
    (hget : w.get? id = some agent) (halive : v.isAlive id = true) :
    ∃ now, v.get? id = some now ∧ now.SameAs agent := by
  obtain ⟨history, rfl, hkills⟩ := h
  exact same_after hget (Nat.lt_of_le_of_lt (hkills id.slot) hdeaths) halive

/-- **An agent from the past is alive if and only if its number is on the roll of its breed.** -/
theorem isAlive_iff_mem_roll (h : w.Follows deaths v) (hindexed : w.Indexed)
    (hnumbered : w.Numbered) (hdeaths : deaths < AgentId.generations)
    (hget : w.get? id = some agent) : v.isAlive id = true ↔ agent.who ∈ v.roll agent.breed := by
  constructor
  · intro halive
    obtain ⟨now, hnow, hsame⟩ := h.same hdeaths hget halive
    exact (mem_roll_iff (h.indexed hindexed)).2 ⟨id, now, hnow, hsame.breed_eq, hsame.who_eq⟩
  · intro hmem
    obtain ⟨other, now, hnow, -, hwho⟩ := (mem_roll_iff (h.indexed hindexed)).1 hmem
    obtain ⟨history, rfl, -⟩ := h
    obtain ⟨first, hfirst, hsame⟩ := same_of_who_lt hnow (hwho ▸ hindexed.who_lt_nextWho hget)
    have hid : other = id :=
      hnumbered.eq_of_who_eq hfirst hget (hsame.who_eq.symm.trans hwho)
    exact isAlive_iff.2 ⟨now, hid ▸ hnow⟩

end Follows

end World

end AgentSweep
