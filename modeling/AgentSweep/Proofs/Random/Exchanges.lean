import AgentSweep.Proofs.Random.Draws
import AgentSweep.Random.Shuffle
import Mathlib.Data.Nat.Factorial.Basic

/-!
# The exchanges of a shuffle

A shuffle lets items change places, again and again. Which places these are is settled by the
generator and by the length of the list, whatever the items are (`Random.exchanges`), so that lists
of one length are shuffled alike (`Random.shuffle_map`).

All of these places are places of the list (`Random.le_and_lt_of_mem_exchanges`): no exchange is
ever passed over because one of its places does not exist. That a choice lies below its bound rests
on the chunk from which it is taken. A chunk that holds `k` more choices, the first of them below
`m`, lies below `m * (m + 1) * … * (m + k - 1)`.
-/

namespace AgentSweep

namespace Choices

variable {c : Choices} {m : Nat}

/-- **A supply is fit for choices below `m`, `m + 1`, and so on**: what is left of the last draw
lies below the product of the bounds of the choices for which it is meant. -/
def Fits (c : Choices) (m : Nat) : Prop := c.left ≠ 0 → c.chunk < m.ascFactorial c.left

theorem fits_start (random : Random) : (start random).Fits 1 := fun _ => Nat.one_pos

/-- The product of a chunk is the product of its factors. -/
theorem extend_eq {b k : Nat} (hb : b = m.ascFactorial k) (hk : 0 < k) :
    (extend m b k).1 = m.ascFactorial (extend m b k).2 ∧ 0 < (extend m b k).2 := by
  induction b, k using extend.induct (m := m) with
  | case1 b k h ih =>
    rw [extend, if_pos h]
    exact ih (by rw [Nat.ascFactorial_succ, hb, Nat.mul_comm]) (Nat.succ_pos k)
  | case2 b k h =>
    rw [extend, if_neg h]
    exact ⟨hb, hk⟩

/-- A refilled supply holds a choice, and is fit for it. -/
theorem refill_fits (h : c.Fits m) (hm : 0 < m) :
    (c.refill m).left ≠ 0 ∧ (c.refill m).chunk < m.ascFactorial (c.refill m).left := by
  unfold refill
  by_cases hleft : c.left = 0
  · rw [if_pos hleft]
    obtain ⟨hproduct, hcount⟩ :=
      extend_eq (m := m) (b := m) (k := 1) (by simp [Nat.ascFactorial_succ]) Nat.one_pos
    have hpos : 0 < m.ascFactorial (extend m m 1).2 := by
      obtain ⟨n, rfl⟩ := Nat.exists_eq_add_of_lt hm
      exact Nat.ascFactorial_pos _ _
    refine ⟨Nat.pos_iff_ne_zero.mp hcount, ?_⟩
    dsimp only
    rw [← hproduct] at hpos ⊢
    exact Random.fst_below_lt c.random hpos
  · rw [if_neg hleft]
    exact ⟨hleft, h hleft⟩

/-- **A choice lies below its bound**, and leaves the supply fit for the next one. -/
theorem next_lt (h : c.Fits m) (hm : 0 < m) : (c.next m).1 < m ∧ (c.next m).2.Fits (m + 1) := by
  obtain ⟨hleft, hchunk⟩ := refill_fits h hm
  unfold next
  dsimp only
  by_cases hlast : (c.refill m).left = 1
  · rw [if_pos hlast]
    rw [hlast, Nat.ascFactorial_succ, Nat.ascFactorial_zero, Nat.mul_one] at hchunk
    exact ⟨hchunk, fun hne => absurd rfl hne⟩
  · rw [if_neg hlast]
    refine ⟨Nat.mod_lt _ hm, fun _ => ?_⟩
    obtain ⟨k, hk⟩ := Nat.exists_eq_succ_of_ne_zero hleft
    rw [hk, Nat.ascFactorial_succ, ← Nat.succ_ascFactorial] at hchunk
    simp only [hk, Nat.succ_sub_one]
    exact Nat.div_lt_of_lt_mul hchunk

end Choices

namespace Random

variable {α β : Type}

/-- The exchanges that are made from place `i` on; `steps` is how many places there still are. -/
def exchangesFrom (c : Choices) (i : Nat) : Nat → List (Nat × Nat)
  | 0 => []
  | steps + 1 => (i, (c.next (i + 1)).1) :: exchangesFrom (c.next (i + 1)).2 (i + 1) steps

/-- **The exchanges by which a list of a given length is shuffled**, each as the two places whose
items change places. -/
def exchanges (r : Random) (size : Nat) : List (Nat × Nat) := exchangesFrom (.start r) 0 size

theorem shuffleFrom_eq_foldl (items : Array α) (c : Choices) (i steps : Nat) :
    (shuffleFrom items c i steps).1
      = (exchangesFrom c i steps).foldl (fun items p => items.swapIfInBounds p.1 p.2) items := by
  induction steps generalizing items c i with
  | zero => rfl
  | succ steps ih => exact ih _ _ _

/-- **A shuffle is the sequence of its exchanges.** -/
theorem shuffle_eq_foldl (r : Random) (items : Array α) :
    (r.shuffle items).1
      = (r.exchanges items.size).foldl (fun items p => items.swapIfInBounds p.1 p.2) items :=
  shuffleFrom_eq_foldl items _ 0 _

theorem le_and_lt_of_mem_exchangesFrom {c : Choices} {i steps : Nat} (h : c.Fits (i + 1))
    {p : Nat × Nat} (hp : p ∈ exchangesFrom c i steps) : p.2 ≤ p.1 ∧ p.1 < i + steps := by
  induction steps generalizing c i with
  | zero => cases hp
  | succ steps ih =>
    obtain ⟨hchoice, hfits⟩ := Choices.next_lt h (Nat.succ_pos i)
    rcases List.mem_cons.mp hp with rfl | hlater
    · exact ⟨Nat.le_of_lt_succ hchoice, Nat.lt_add_of_pos_right (Nat.succ_pos steps)⟩
    · rw [Nat.add_succ, ← Nat.succ_add]
      exact ih hfits hlater

/-- **Both places of an exchange are places of the list.** -/
theorem le_and_lt_of_mem_exchanges {r : Random} {size : Nat} {p : Nat × Nat}
    (hp : p ∈ r.exchanges size) : p.2 ≤ p.1 ∧ p.1 < size := by
  have h := le_and_lt_of_mem_exchangesFrom (Choices.fits_start r) hp
  rwa [Nat.zero_add] at h

/-! ## Lists of one length are shuffled alike -/

theorem map_swapIfInBounds (f : α → β) (items : Array α) (i j : Nat) :
    (items.swapIfInBounds i j).map f = (items.map f).swapIfInBounds i j := by
  simp only [Array.swapIfInBounds_def, Array.size_map]
  split
  · split
    · simp only [Array.swap_def, Array.map_set, Array.getElem_map]
    · rfl
  · rfl

theorem shuffleFrom_map (f : α → β) (items : Array α) (c : Choices) (i steps : Nat) :
    shuffleFrom (items.map f) c i steps
      = ((shuffleFrom items c i steps).1.map f, (shuffleFrom items c i steps).2) := by
  induction steps generalizing items c i with
  | zero => rfl
  | succ steps ih =>
    simp only [shuffleFrom, ← map_swapIfInBounds, ih]

/-- **Shuffling does not look at the items.** -/
theorem shuffle_map (f : α → β) (r : Random) (items : Array α) :
    r.shuffle (items.map f) = ((r.shuffle items).1.map f, (r.shuffle items).2) := by
  rw [shuffle, Array.size_map]
  exact shuffleFrom_map f items _ 0 _

end Random

end AgentSweep
