import AgentSweep.Random.Shuffle
import AgentSweep.World.Membership

/-!
# Rosters

A roster is a snapshot of an agent set in random order, to be gone through once. The order is
drawn when the roster is made, so that the generator is free afterwards. Agents made later are not
on it; agents who have died by the time their turn comes are passed over and counted.
-/

namespace AgentSweep

/-- **A snapshot in random order**, gone through from the front. -/
structure Roster where
  /-- How many entries have been passed. -/
  passed : Nat
  /-- The entries not yet reached. -/
  upcoming : List AgentId
  /-- How many of the passed entries named no living agent. -/
  skipped : Nat
deriving DecidableEq

namespace Roster

/-- The list of ids in random order, and the generator after the draws. -/
def shuffled (ids : List AgentId) (random : Random) : Roster × Random :=
  let (order, random) := random.shuffle ids.toArray
  (⟨0, order.toList, 0⟩, random)

/-- The members of a set in random order, and the generator after the draws. -/
def ofSet (set : AgentSet) (w : World) (random : Random) : Roster × Random :=
  shuffled (set.members w) random

/-- How many entries the roster had when it was made. -/
def size (r : Roster) : Nat := r.passed + r.upcoming.length

/-- Whether the roster had no entries when it was made. -/
def isEmpty (r : Roster) : Bool := r.size == 0

/-- How many entries have not been reached. -/
def remaining (r : Roster) : Nat := r.upcoming.length

/-- The next entry that names a living agent, and the roster after it. -/
def next (r : Roster) (w : World) : Option AgentId × Roster :=
  let dead := r.upcoming.takeWhile fun id => !w.isAlive id
  match r.upcoming.dropWhile fun id => !w.isAlive id with
  | [] => (none, ⟨r.passed + dead.length, [], r.skipped + dead.length⟩)
  | id :: rest => (some id, ⟨r.passed + dead.length + 1, rest, r.skipped + dead.length⟩)

/-- The entries still to come that name living agents, in a world that does not change. -/
def live (r : Roster) (w : World) : List AgentId := r.upcoming.filter w.isAlive

/-- **A roster holds the members of its set**, each as often as the set does. -/
theorem perm_upcoming_ofSet (set : AgentSet) (w : World) (random : Random) :
    (ofSet set w random).1.upcoming.Perm (set.members w) :=
  (random.shuffle_perm (set.members w).toArray).toList

/-! ## What `next` does -/

/-- **The next entry is the first one to come that names a living agent.** -/
theorem fst_next (r : Roster) (w : World) : (r.next w).1 = (r.live w).head? := by
  have hfront : (r.next w).1 = (r.upcoming.dropWhile fun id => !w.isAlive id).head? := by
    unfold next
    split <;> simp only [*, List.head?_nil, List.head?_cons]
  rw [hfront, live]
  induction r.upcoming with
  | nil => rfl
  | cons id rest ih =>
    cases h : w.isAlive id
    · simpa [h] using ih
    · simp [h]

/-- No entry is lost or passed twice. -/
@[simp] theorem size_next (r : Roster) (w : World) : (r.next w).2.size = r.size := by
  have hsplit := List.takeWhile_append_dropWhile (p := fun id => !w.isAlive id) (l := r.upcoming)
  have hlength := congrArg List.length hsplit
  rw [List.length_append] at hlength
  simp only [next, size]
  split
  · next h =>
    rw [h] at hlength
    simp only [List.length_nil] at hlength ⊢
    omega
  · next h =>
    rw [h] at hlength
    simp only [List.length_cons] at hlength ⊢
    omega

/-- **In a world that stays as it is, going through a roster gives its living entries.** -/
theorem live_next (r : Roster) (w : World) : (r.next w).2.live w = (r.live w).tail := by
  have hrest : (r.next w).2.upcoming
      = (r.upcoming.dropWhile fun id => !w.isAlive id).tail := by
    unfold next
    split <;> simp only [*, List.tail_nil, List.tail_cons]
  rw [live, hrest, live]
  induction r.upcoming with
  | nil => rfl
  | cons id rest ih =>
    cases h : w.isAlive id
    · simpa [h] using ih
    · simp [h]

end Roster

end AgentSweep
