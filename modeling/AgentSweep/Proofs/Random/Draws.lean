import Mathlib.Algebra.Order.Floor.Div
import Mathlib.Order.Interval.Finset.Nat
import Mathlib.Tactic.Ring
import AgentSweep.Random.Draw

/-!
# What a draw comes to

Two words of the generator are the digits of a fraction below 1, the first one before the second
one. A draw below a bound is this fraction times the bound, without what is behind the point
(`Random.scaled`). It does so with one word at a time, and stops after the first one if no second
word could make a difference (`Random.draws_below`).

Of all the pairs of words, nearly the same share goes to each number below the bound
(`Random.card_chances`): two numbers differ by one pair at most.
-/

namespace AgentSweep

namespace Random

variable {first second bound k : Nat}

/-- **The number below a bound that two words stand for.** -/
def scaled (first second bound : Nat) : Nat :=
  (first * UInt32.size + second) * bound / UInt32.size ^ 2

/-! ## One word after the other -/

/-- The second word adds its upper half to the lower half of the first one. -/
theorem scaled_eq (first second bound : Nat) :
    scaled first second bound = first * bound / UInt32.size
      + (first * bound % UInt32.size + second * bound / UInt32.size) / UInt32.size := by
  have hpos : 0 < UInt32.size := by decide
  have hsum : (first * UInt32.size + second) * bound
      = UInt32.size * (first * bound) + second * bound := by ring
  have hsplit : first * bound + second * bound / UInt32.size
      = UInt32.size * (first * bound / UInt32.size)
        + (first * bound % UInt32.size + second * bound / UInt32.size) := by
    rw [← Nat.add_assoc, Nat.div_add_mod]
  rw [scaled, Nat.pow_two, ← Nat.div_div_eq_div_mul, hsum, Nat.mul_add_div hpos, hsplit,
    Nat.mul_add_div hpos]

/-- The upper half of a word times a bound lies below the bound. -/
theorem mul_div_size_lt (hsecond : second < UInt32.size) (hpos : 0 < bound) :
    second * bound / UInt32.size < bound :=
  Nat.div_lt_of_lt_mul (Nat.mul_lt_mul_of_pos_right hsecond hpos)

/-- **The first word alone settles the number** if its lower half leaves room for whatever the
second one adds. -/
theorem scaled_of_le (hpos : 0 < bound) (hbound : bound ≤ UInt32.size)
    (hlow : first * bound % UInt32.size ≤ UInt32.size - bound) (hsecond : second < UInt32.size) :
    scaled first second bound = first * bound / UInt32.size := by
  have hadded := mul_div_size_lt hsecond hpos
  have hroom : first * bound % UInt32.size + second * bound / UInt32.size < UInt32.size := by
    omega
  rw [scaled_eq, Nat.div_eq_of_lt hroom, Nat.add_zero]

/-- **Otherwise the second word matters.** The least one adds nothing, and the greatest one adds so
much that there is a carry. -/
theorem scaled_of_gt (hpos : 0 < bound) (hbound : bound ≤ UInt32.size)
    (hlow : UInt32.size - bound < first * bound % UInt32.size) :
    scaled first 0 bound = first * bound / UInt32.size
      ∧ scaled first (UInt32.size - 1) bound = first * bound / UInt32.size + 1 := by
  have hless := Nat.mod_lt (first * bound) (show 0 < UInt32.size by decide)
  have hgreatest : (UInt32.size - 1) * bound / UInt32.size = bound - 1 := by
    simp only [UInt32.size] at hbound ⊢
    omega
  constructor
  · rw [scaled_eq, Nat.zero_mul, Nat.zero_div, Nat.add_zero, Nat.div_eq_of_lt hless, Nat.add_zero]
  · rw [scaled_eq, hgreatest]
    simp only [UInt32.size] at hbound hlow hless ⊢
    omega

/-! ## Draws -/

/-- **A draw below a bound lies below it.** -/
theorem fst_below_lt (r : Random) {bound : Nat} (hpos : 0 < bound) :
    (r.below bound).1 < bound := by
  have hword : r.word * bound ≤ (UInt32.size - 1) * bound :=
    Nat.mul_le_mul_right bound (Nat.le_sub_one_of_lt r.word_lt)
  have hsplit := Nat.div_add_mod (r.word * bound) UInt32.size
  unfold below
  simp only [UInt32.size] at hword hsplit ⊢
  generalize r.word * bound / 4294967296 = high at *
  generalize r.word * bound % 4294967296 = low at *
  -- a carry is added only if the lower half is so large that the upper half is not the largest
  split
  · split <;> omega
  · omega

/-- **A draw is what its words stand for.** -/
theorem fst_below_eq (r : Random) (hpos : 0 < bound) (hbound : bound ≤ UInt32.size) :
    (r.below bound).1 = scaled r.word r.advance.word bound := by
  unfold below
  dsimp only
  split
  · have hlow := Nat.mod_lt (r.word * bound) (show 0 < UInt32.size by decide)
    have hadded := mul_div_size_lt r.advance.word_lt hpos
    rw [scaled_eq]
    simp only [UInt32.size] at hbound hlow hadded ⊢
    split <;> omega
  · next hlow => exact (scaled_of_le hpos hbound (Nat.le_of_not_gt hlow) r.advance.word_lt).symm

theorem snd_below_eq (r : Random) (bound : Nat) :
    (r.below bound).2 = if UInt32.size - bound < r.word * bound % UInt32.size then
      r.advance.advance else r.advance := by
  unfold below
  dsimp only
  split <;> rfl

/-- **How a generator gives a number below a bound**, and where it is afterwards. -/
structure Draws (r : Random) (bound number : Nat) (after : Random) : Prop where
  lt : number < bound
  /-- It is the number for which the next two words stand. -/
  eq_scaled : number = scaled r.word r.advance.word bound
  /-- Only the first word is taken if it stands for this number with every second one. -/
  one : (∀ second < UInt32.size, scaled r.word second bound = number) → after = r.advance
  /-- Both are taken if there is a second word with which it would be another number. -/
  two : (∃ second < UInt32.size, scaled r.word second bound ≠ number) → after = r.advance.advance

/-- **A draw below a bound gives a number below it**, and takes a second word if and only if the
number depends on it. -/
theorem draws_below (r : Random) (hpos : 0 < bound) (hbound : bound ≤ UInt32.size) :
    r.Draws bound (r.below bound).1 (r.below bound).2 := by
  have hnumber := fst_below_eq r hpos hbound
  have hafter := snd_below_eq r bound
  by_cases hlow : UInt32.size - bound < r.word * bound % UInt32.size
  · rw [if_pos hlow] at hafter
    refine ⟨fst_below_lt r hpos, hnumber, fun hsame => ?_, fun _ => hafter⟩
    obtain ⟨hleast, hgreatest⟩ := scaled_of_gt hpos hbound hlow
    rw [hsame 0 (by decide)] at hleast
    rw [hsame _ (by decide), ← hleast] at hgreatest
    exact absurd hgreatest (Nat.ne_of_lt (Nat.lt_succ_self _))
  · rw [if_neg hlow] at hafter
    have hsettled {second : Nat} (hsecond : second < UInt32.size) :=
      scaled_of_le hpos hbound (Nat.le_of_not_gt hlow) hsecond
    refine ⟨fst_below_lt r hpos, hnumber, fun _ => hafter, fun ⟨second, hsecond, hne⟩ => ?_⟩
    rw [hnumber, hsettled hsecond, hsettled r.advance.word_lt] at hne
    exact absurd rfl hne

/-! ## Fairness -/

/-- The pairs of words that stand for a number, each pair as one number of 64 bits. -/
def chances (bound k : Nat) : Finset Nat :=
  (Finset.range (UInt32.size ^ 2)).filter fun words =>
    scaled (words / UInt32.size) (words % UInt32.size) bound = k

/-- Where the pairs of words begin that stand for a number. -/
def firstChance (bound k : Nat) : Nat := k * UInt32.size ^ 2 ⌈/⌉ bound

theorem firstChance_le_iff (hpos : 0 < bound) (k words : Nat) :
    firstChance bound k ≤ words ↔ k * UInt32.size ^ 2 ≤ bound * words :=
  ceilDiv_le_iff_le_mul hpos

/-- The pairs of words that stand for a number follow each other. -/
theorem chances_eq (hk : k < bound) :
    chances bound k = Finset.Ico (firstChance bound k) (firstChance bound (k + 1)) := by
  have hpos : 0 < bound := Nat.zero_lt_of_lt hk
  have hall : 0 < UInt32.size ^ 2 := by decide
  ext words
  have hscaled : scaled (words / UInt32.size) (words % UInt32.size) bound
      = words * bound / UInt32.size ^ 2 := by
    rw [scaled, Nat.div_add_mod']
  have hnext : words < firstChance bound (k + 1) ↔ bound * words < (k + 1) * UInt32.size ^ 2 := by
    rw [← not_le, firstChance_le_iff hpos, not_le]
  rw [chances, Finset.mem_filter, Finset.mem_range, Finset.mem_Ico, hscaled,
    firstChance_le_iff hpos, hnext, Nat.mul_comm words]
  constructor
  · rintro ⟨-, rfl⟩
    exact ⟨Nat.div_mul_le_self _ _, Nat.lt_mul_of_div_lt (Nat.lt_succ_self _) hall⟩
  · rintro ⟨hle, hlt⟩
    refine ⟨?_, Nat.div_eq_of_lt_le hle hlt⟩
    exact Nat.lt_of_mul_lt_mul_left (hlt.trans_le (Nat.mul_le_mul_right _ hk))

/-- **A draw is fair.** Of the pairs of words, each number below a bound gets its share, rounded up
or down. -/
theorem card_chances (hk : k < bound) :
    UInt32.size ^ 2 / bound ≤ (chances bound k).card
      ∧ (chances bound k).card ≤ UInt32.size ^ 2 / bound + 1 := by
  have hpos : 0 < bound := Nat.zero_lt_of_lt hk
  have hbegin := firstChance_le_iff hpos
  have hshare := Nat.mul_div_le (UInt32.size ^ 2) bound
  have hmore := Nat.lt_mul_div_succ (UInt32.size ^ 2) hpos
  rw [chances_eq hk, Nat.card_Ico]
  generalize UInt32.size ^ 2 / bound = share at *
  generalize UInt32.size ^ 2 = all at *
  have hfirst := (hbegin k _).mp le_rfl
  have hnext := (hbegin (k + 1) _).mp le_rfl
  rw [Nat.succ_mul] at hnext
  constructor
  · obtain ⟨rest, hrest⟩ : ∃ rest, firstChance bound (k + 1) = share + rest :=
      Nat.exists_eq_add_of_le (Nat.le_of_mul_le_mul_left (by omega) hpos)
    have hle : firstChance bound k ≤ rest := by
      rw [hrest, Nat.mul_add] at hnext
      exact (hbegin k rest).mpr (by omega)
    omega
  · have hle : firstChance bound (k + 1) ≤ firstChance bound k + (share + 1) := by
      rw [hbegin, Nat.mul_add, Nat.succ_mul]
      omega
    omega

end Random

end AgentSweep
