import Mathlib.Algebra.Order.Field.Power
import Mathlib.Algebra.Order.Ring.Rat
import Mathlib.Tactic.FieldSimp
import Mathlib.Tactic.Linarith
import Mathlib.Tactic.Positivity
import AgentSweep.Proofs.Decimal.Doubles

/-!
# The intervals of doubles

The numbers that read back as one double form an interval about it. This module looks at these
intervals as sets of rational numbers. They lie side by side in the order of the doubles and do not
overlap (`Interval.parts_unique`): where two of them meet, the point between them belongs to the one
whose significand is even. Between two doubles that are not neighbours lie the intervals of all
doubles in between, so that the distance of two numbers tells how many doubles there are between the
doubles that they read back as (`Interval.mul_two_zpow_le_sub`).

The place of a double in this order is what its bits are, taken as a number (`Binary64.place`).
-/

namespace AgentSweep

theorem two_zpow_pos (k : Int) : (0 : ℚ) < 2 ^ k := zpow_pos (by norm_num) k

theorem ten_zpow_pos (k : Int) : (0 : ℚ) < 10 ^ k := zpow_pos (by norm_num) k

/-- A power is a quotient of powers with natural exponents. -/
theorem zpow_eq_div {a : ℚ} (ha : a ≠ 0) (k : Int) : a ^ k = a ^ k.toNat / a ^ (-k).toNat := by
  rw [eq_div_iff (pow_ne_zero _ ha), ← zpow_natCast, ← zpow_natCast, ← zpow_add₀ ha]
  congr 1
  omega

/-! ## Legal parts -/

namespace Binary64

variable {m m' : Nat} {q q' : Int}

/-- **The parts of a double**: the significand has its leading bit in its place, unless the exponent
is the least one. -/
structure Legal (m : Nat) (q : Int) : Prop where
  lt : m < 2 * leadingBit
  least_le : leastExponent ≤ q
  le_greatest : q ≤ 971
  leading_le : leastExponent < q → leadingBit ≤ m

/-- What two parts stand for. -/
def value (m : Nat) (q : Int) : ℚ := m * 2 ^ q

/-- **The place of a double** among the doubles that are not negative, counted from zero. -/
def place (m : Nat) (q : Int) : Nat := (q - leastExponent).toNat * leadingBit + m

theorem Legal.exponent_le (h : Legal m q) (h' : Legal m' q') (hplace : place m q ≤ place m' q') :
    q ≤ q' := by
  obtain ⟨-, hleast, -, hleading⟩ := h
  obtain ⟨hlt', hleast', -, -⟩ := h'
  by_contra hlt
  have hm := hleading (by omega)
  simp only [place, leadingBit, leastExponent] at *
  omega

/-- The parts of a double are known from its place. -/
theorem Legal.eq_of_place_eq (h : Legal m q) (h' : Legal m' q') (hplace : place m q = place m' q') :
    m = m' ∧ q = q' := by
  have hq : q = q' := le_antisymm (h.exponent_le h' hplace.le) (h'.exponent_le h hplace.ge)
  subst hq
  exact ⟨Nat.add_left_cancel hplace, rfl⟩

theorem mul_two_pow_bounds {n : Nat} (hpos : 0 < n) (h : n < 2 * leadingBit) :
    leadingBit ≤ n * 2 ^ (52 - n.log2) ∧ n * 2 ^ (52 - n.log2) < 2 * leadingBit := by
  have hlog : n.log2 < 53 := (Nat.log2_lt (Nat.ne_of_gt hpos)).mpr h
  have hpower : 2 ^ n.log2 * 2 ^ (52 - n.log2) = leadingBit := by
    rw [← Nat.pow_add, Nat.add_sub_of_le (Nat.le_of_lt_succ hlog)]
    rfl
  constructor
  · rw [← hpower]
    exact Nat.mul_le_mul_right _ (Nat.log2_self_le (Nat.ne_of_gt hpos))
  · rw [← hpower, ← Nat.mul_assoc, Nat.mul_comm 2, ← Nat.pow_succ]
    exact Nat.mul_lt_mul_of_pos_right Nat.lt_log2_self (Nat.two_pow_pos _)

/-- **A number with at most 53 binary digits has legal parts**, whatever zeros follow them. -/
theorem exists_legal {n k : Nat} (hpos : 0 < n) (h : n < 2 * leadingBit) (hk : k ≤ 971) :
    Legal (n * 2 ^ (52 - n.log2)) (n.log2 - 52 + k)
      ∧ value (n * 2 ^ (52 - n.log2)) (n.log2 - 52 + k) = n * 2 ^ k := by
  have hlog : n.log2 < 53 := (Nat.log2_lt (Nat.ne_of_gt hpos)).mpr h
  obtain ⟨hleading, hless⟩ := mul_two_pow_bounds hpos h
  refine ⟨⟨hless, ?_, by omega, fun _ => hleading⟩, ?_⟩
  · rw [leastExponent]
    omega
  · rw [value, Nat.cast_mul, Nat.cast_pow, Nat.cast_ofNat, mul_assoc, ← zpow_natCast,
      ← zpow_add₀ (by norm_num), ← zpow_natCast]
    congr 2
    omega

end Binary64

/-! ## Intervals as sets of numbers -/

namespace Interval

open Binary64 (Legal leadingBit leastExponent place value)

variable {m m' n : Nat} {q q' p : Int} {v w : ℚ}

/-- **An interval contains a number.** -/
def Contains (i : Interval) (v : ℚ) : Prop :=
  if i.closed then i.lower * 2 ^ i.unit ≤ v ∧ v ≤ i.upper * 2 ^ i.unit
  else i.lower * 2 ^ i.unit < v ∧ v < i.upper * 2 ^ i.unit

/-- The scale of a grid measures quarters and steps of the grid with one yardstick. -/
theorem exists_yardstick (i : Interval) (p : Int) :
    ∃ yard : ℚ, 0 < yard ∧ ((i.scale p).1 : ℚ) = 2 ^ i.unit * yard
      ∧ ((i.scale p).2 : ℚ) = 10 ^ p * yard := by
  refine ⟨2 ^ (-i.unit).toNat * 10 ^ (-p).toNat, by positivity, ?_, ?_⟩
  all_goals
    simp only [scale, Nat.pow_eq, Nat.cast_mul, Nat.cast_pow, Nat.cast_ofNat,
      zpow_eq_div (show (2 : ℚ) ≠ 0 by norm_num), zpow_eq_div (show (10 : ℚ) ≠ 0 by norm_num)]
    field_simp

/-- **A grid point lies in an interval if and only if the interval contains its number.** -/
theorem holds_iff {i : Interval} {p : Int} {n : Nat} :
    i.holds p n = true ↔ i.Contains (n * 10 ^ p) := by
  obtain ⟨yard, hyard, hnum, hden⟩ := i.exists_yardstick p
  have hquarters (a : Nat) : ((a * (i.scale p).1 : Nat) : ℚ) = a * 2 ^ i.unit * yard := by
    rw [Nat.cast_mul, hnum, mul_assoc]
  have hsteps : ((n * (i.scale p).2 : Nat) : ℚ) = n * 10 ^ p * yard := by
    rw [Nat.cast_mul, hden, mul_assoc]
  unfold holds Contains
  dsimp only
  split
  · rw [Bool.and_eq_true, decide_eq_true_eq, decide_eq_true_eq, ← Nat.cast_le (α := ℚ),
      ← Nat.cast_le (α := ℚ), hquarters, hquarters, hsteps, mul_le_mul_iff_of_pos_right hyard,
      mul_le_mul_iff_of_pos_right hyard]
  · rw [Bool.and_eq_true, decide_eq_true_eq, decide_eq_true_eq, ← Nat.cast_lt (α := ℚ),
      ← Nat.cast_lt (α := ℚ), hquarters, hquarters, hsteps, mul_lt_mul_iff_of_pos_right hyard,
      mul_lt_mul_iff_of_pos_right hyard]

/-- A grid is as fine as a quarter of the last binary place if its steps are no longer. -/
theorem scale_le_iff {i : Interval} {p : Int} :
    (i.scale p).2 ≤ (i.scale p).1 ↔ (10 : ℚ) ^ p ≤ 2 ^ i.unit := by
  obtain ⟨yard, hyard, hnum, hden⟩ := i.exists_yardstick p
  rw [← Nat.cast_le (α := ℚ), hnum, hden, mul_le_mul_iff_of_pos_right hyard]

/-! ## Where an interval begins and ends -/

theorem lower_ofParts_eq (m : Nat) (q : Int) :
    ((ofParts m q).lower = 4 * m - 1 ∧ m = leadingBit ∧ leastExponent < q)
      ∨ ((ofParts m q).lower = 4 * m - 2 ∧ ¬(m = leadingBit ∧ leastExponent < q)) := by
  simp only [ofParts]
  split
  · next hnear => exact .inl ⟨rfl, hnear⟩
  · next hfar => exact .inr ⟨rfl, hfar⟩

/-- What an interval contains is between its ends, and is neither end if its significand is odd. -/
theorem contains_ofParts_iff :
    (ofParts m q).Contains v
      ↔ ((ofParts m q).lower * 2 ^ (q - 2) ≤ v ∧ v ≤ (4 * m + 2) * 2 ^ (q - 2))
        ∧ (m % 2 = 1 → (ofParts m q).lower * 2 ^ (q - 2) < v ∧ v < (4 * m + 2) * 2 ^ (q - 2)) := by
  have hupper : ((ofParts m q).upper : ℚ) = 4 * m + 2 := by simp [ofParts]
  have hunit : (ofParts m q).unit = q - 2 := rfl
  have hclosed : (ofParts m q).closed = (m % 2 == 0) := rfl
  rw [Contains, hunit, hupper, hclosed]
  rcases Nat.mod_two_eq_zero_or_one m with heven | hodd
  · rw [if_pos (beq_iff_eq.mpr heven)]
    simp [heven]
  · rw [if_neg (by simp [hodd])]
    exact ⟨fun h => ⟨⟨h.1.le, h.2.le⟩, fun _ => h⟩, fun h => h.2 hodd⟩

/-- The number of a double in quarters of its last binary place. -/
theorem value_eq_quarters (m : Nat) (q : Int) : value m q = 4 * m * 2 ^ (q - 2) := by
  rw [value, zpow_sub₀ (by norm_num)]
  ring

/-- **An interval contains the number of its double.** -/
theorem contains_value (m : Nat) (q : Int) : (ofParts m q).Contains (value m q) := by
  have hunit := two_zpow_pos (q - 2)
  have hlower : (ofParts m q).lower ≤ 4 * m ∧ (m % 2 = 1 → (ofParts m q).lower < 4 * m) := by
    rcases lower_ofParts_eq m q with ⟨heq, -⟩ | ⟨heq, -⟩ <;> rw [heq] <;> omega
  have hlower : ((ofParts m q).lower : ℚ) ≤ 4 * m
      ∧ (m % 2 = 1 → ((ofParts m q).lower : ℚ) < 4 * m) := by
    exact_mod_cast hlower
  rw [contains_ofParts_iff, value_eq_quarters]
  refine ⟨⟨mul_le_mul_of_nonneg_right hlower.1 hunit.le, ?_⟩, fun hodd =>
    ⟨mul_lt_mul_of_pos_right (hlower.2 hodd) hunit, ?_⟩⟩
  · exact mul_le_mul_of_nonneg_right (by linarith) hunit.le
  · exact mul_lt_mul_of_pos_right (by linarith) hunit

/-! ## The order of intervals -/

/-- Quarters in the binades between two doubles, the upper one of which may be the first one of its
binade. -/
theorem quarters_le {binades lower : Nat} (hbinades : 0 < binades) (hfew : binades ≤ 2045)
    (hm : leadingBit ≤ m)
    (hlower : lower = 4 * m - 1 ∧ m = leadingBit ∨ lower = 4 * m - 2 ∧ leadingBit < m) :
    4 * (binades * leadingBit + m) ≤ lower * 2 ^ binades + 2 := by
  have hpow : binades + 1 ≤ 2 ^ binades := Nat.lt_two_pow_self
  rcases hlower with ⟨rfl, rfl⟩ | ⟨rfl, hlt⟩
  · rcases Nat.lt_or_eq_of_le hbinades with htwo | hone
    · have hpow : binades + 2 ≤ 2 ^ binades := by
        obtain ⟨more, rfl⟩ := Nat.exists_eq_add_of_le htwo
        have := Nat.lt_two_pow_self (n := more)
        rw [Nat.pow_add]
        omega
      have hmore := Nat.mul_le_mul_left (4 * leadingBit - 1) hpow
      have hlarge : binades + 2 ≤ 4 * leadingBit := Nat.le_trans (by omega : _ ≤ 2047) (by decide)
      have hfirst : (4 * leadingBit - 1) * (binades + 2) + (binades + 2)
          = 4 * (binades * leadingBit + leadingBit) + 4 * leadingBit := calc
        _ = (4 * leadingBit - 1 + 1) * (binades + 2) := (Nat.succ_mul ..).symm
        _ = 4 * leadingBit * (binades + 2) := by rw [Nat.sub_add_cancel (by decide)]
        _ = _ := by ring
      omega
    · rw [← hone]
      omega
  · have hmore : (4 * leadingBit) * binades ≤ (4 * m - 2) * (2 ^ binades - 1) :=
      Nat.mul_le_mul (by omega) (by omega)
    rw [Nat.mul_sub, Nat.mul_one] at hmore
    have hself : 4 * m - 2 ≤ (4 * m - 2) * 2 ^ binades := Nat.le_mul_of_pos_right _ (by omega)
    have hcomm : 4 * leadingBit * binades = 4 * (binades * leadingBit) := by
      rw [Nat.mul_assoc, Nat.mul_comm leadingBit]
    omega

/-- **The intervals of the doubles in between lie between two intervals.** -/
theorem upper_add_le_lower (h : Legal m q) (h' : Legal m' q') (hplace : place m q < place m' q') :
    (4 * m + 2) * 2 ^ (q - 2) + 4 * ((place m' q' - place m q - 1 : Nat) : ℚ) * 2 ^ (q - 2)
      ≤ (ofParts m' q').lower * (2 : ℚ) ^ (q' - 2) := by
  obtain ⟨binades, hbinades⟩ : ∃ binades : Nat, q' = q + binades :=
    ⟨(q' - q).toNat, by have := h.exponent_le h' hplace.le; omega⟩
  have hpower : (2 : ℚ) ^ (q' - 2) = 2 ^ binades * 2 ^ (q - 2) := by
    rw [← zpow_natCast, ← zpow_add₀ (by norm_num)]
    congr 1
    omega
  have hdistance : place m' q' + m = place m q + (binades * leadingBit + m') := by
    have hleast := h.least_le
    have hbinade : (q' - leastExponent).toNat = (q - leastExponent).toNat + binades := by omega
    rw [place, place, hbinade, Nat.add_mul]
    omega
  suffices hcount : 4 * m + 2 + 4 * (place m' q' - place m q - 1)
      ≤ (ofParts m' q').lower * 2 ^ binades by
    rw [hpower, ← mul_assoc, ← add_mul]
    refine mul_le_mul_of_nonneg_right ?_ (two_zpow_pos _).le
    exact_mod_cast hcount
  rcases Nat.eq_zero_or_pos binades with rfl | hpos
  · rcases lower_ofParts_eq m' q' with ⟨hlower, -⟩ | ⟨hlower, -⟩ <;> rw [hlower] <;> omega
  · have hleast := h.least_le
    have hgreatest := h'.le_greatest
    have hm' := h'.leading_le (by omega)
    have hfew : binades ≤ 2045 := by
      simp only [leastExponent] at hleast
      omega
    have hlower : (ofParts m' q').lower = 4 * m' - 1 ∧ m' = leadingBit
        ∨ (ofParts m' q').lower = 4 * m' - 2 ∧ leadingBit < m' := by
      rcases lower_ofParts_eq m' q' with ⟨hlower, hnear, -⟩ | ⟨hlower, hfar⟩
      · exact .inl ⟨hlower, hnear⟩
      · exact .inr ⟨hlower, lt_of_le_of_ne hm' fun heq => hfar ⟨heq.symm, by omega⟩⟩
    have hquarters := quarters_le hpos hfew hm' hlower
    omega

/-- **The distance of two numbers tells how many doubles lie between those that they read back
as.** -/
theorem mul_two_zpow_le_sub (h : Legal m q) (h' : Legal m' q') (hplace : place m q < place m' q')
    (hv : (ofParts m q).Contains v) (hw : (ofParts m' q').Contains w) :
    ((place m' q' - place m q - 1 : Nat) : ℚ) * 2 ^ q ≤ w - v := by
  have hupper := (contains_ofParts_iff.mp hv).1.2
  have hlower := (contains_ofParts_iff.mp hw).1.1
  have hbetween := upper_add_le_lower h h' hplace
  have hquarter : (2 : ℚ) ^ q = 4 * 2 ^ (q - 2) := by
    rw [zpow_sub₀ (by norm_num)]
    ring
  rw [hquarter]
  linarith

/-- **No number reads back as two doubles.** -/
theorem parts_unique (h : Legal m q) (h' : Legal m' q') (hv : (ofParts m q).Contains v)
    (hv' : (ofParts m' q').Contains v) : m = m' ∧ q = q' := by
  wlog hplace : place m q ≤ place m' q' generalizing m q m' q'
  · obtain ⟨hm, hq⟩ := this h' h hv' hv (Nat.le_of_not_le hplace)
    exact ⟨hm.symm, hq.symm⟩
  rcases Nat.lt_or_eq_of_le hplace with hlt | heq
  · exfalso
    have hbetween := upper_add_le_lower h h' hlt
    have hcount := mul_two_zpow_le_sub h h' hlt hv hv'
    obtain ⟨⟨-, hupper⟩, hstrict⟩ := contains_ofParts_iff.mp hv
    obtain ⟨⟨hlower, -⟩, hstrict'⟩ := contains_ofParts_iff.mp hv'
    -- the two are neighbours, so that one of the significands is odd
    have hnext : place m' q' = place m q + 1 := by
      rw [sub_self] at hcount
      have hnone : ((place m' q' - place m q - 1 : Nat) : ℚ) ≤ 0 :=
        nonpos_of_mul_nonpos_left hcount (two_zpow_pos q)
      have : place m' q' - place m q - 1 = 0 := Nat.le_zero.mp (by exact_mod_cast hnone)
      omega
    have hgap : (place m' q' - place m q - 1 : Nat) = 0 := by omega
    rw [hgap, Nat.cast_zero, mul_zero, zero_mul, add_zero] at hbetween
    have hparity : m % 2 = 1 ∨ m' % 2 = 1 := by
      simp only [place, leadingBit] at hnext
      omega
    rcases hparity with hodd | hodd
    · linarith [(hstrict hodd).2]
    · linarith [(hstrict' hodd).1]
  · exact h.eq_of_place_eq h' heq

end Interval

end AgentSweep
