import AgentSweep.Proofs.Decimal.Intervals

/-!
# The digits of the shortest decimal

The shortest decimal of a double lies in the interval of the double, and has at most eighteen
digits: a grid that has been searched in vain is coarser than a quarter of the last binary place, so
that the grid after it is coarser than a fortieth of it (`Decimal.shortest_spec`).
-/

namespace AgentSweep

namespace Interval

open Binary64 (Legal leadingBit leastExponent)

variable {i : Interval} {tie : Tie} {p : Int} {m n : Nat} {q : Int}

/-- A point that is found lies in the interval. -/
theorem holds_of_point? (h : i.point? tie p = some n) : i.holds p n = true := by
  unfold point? at h
  dsimp only at h
  generalize hlow : (decide (0 < i.centre * (i.scale p).1 / (i.scale p).2)
    && i.holds p (i.centre * (i.scale p).1 / (i.scale p).2)) = low at h
  generalize habove : i.holds p (i.centre * (i.scale p).1 / (i.scale p).2 + 1) = above at h
  have hlow (hpoint : low = true) : i.holds p (i.centre * (i.scale p).1 / (i.scale p).2) = true :=
    (Bool.and_eq_true_iff.mp (hlow.trans hpoint)).2
  cases low <;> cases above
  · cases h
  · cases h
    exact habove
  · cases h
    exact hlow rfl
  · dsimp only at h
    split_ifs at h
    · cases h
      exact hlow rfl
    · cases h
      exact habove
    all_goals cases tie <;> cases h <;> first | exact hlow rfl | exact habove

/-- A grid without a point is coarser than a quarter of the last binary place. -/
theorem two_zpow_lt_of_point? (hlower : i.lower < i.centre) (hupper : i.centre < i.upper)
    (h : i.point? tie p = none) : (2 : ℚ) ^ i.unit < 10 ^ p := by
  by_contra hfine
  have hsome := isSome_point? hlower hupper (scale_le_iff.mpr (not_lt.mp hfine)) tie
  rw [h] at hsome
  cases hsome

/-- **The search ends with a point of the interval**, on a grid no finer than ten times as fine as
one that is coarser than a quarter of the last binary place. -/
theorem search_spec (hlower : i.lower < i.centre) (hupper : i.centre < i.upper) {grids k : Nat}
    (hk : k < grids) (h : (i.point? tie (p - k)).isSome = true)
    (hcoarse : (2 : ℚ) ^ i.unit < 10 ^ (p + 1)) :
    i.holds (i.search tie p grids).exponent (i.search tie p grids).digits = true
      ∧ (2 : ℚ) ^ i.unit < 10 ^ ((i.search tie p grids).exponent + 1) := by
  induction grids generalizing p k with
  | zero => exact absurd hk (Nat.not_lt_zero k)
  | succ grids ih =>
    rw [search]
    cases hpoint : i.point? tie p with
    | some n => exact ⟨holds_of_point? hpoint, hcoarse⟩
    | none =>
      cases k with
      | zero =>
        rw [Nat.cast_zero, sub_zero, hpoint] at h
        cases h
      | succ k =>
        refine ih (Nat.lt_of_succ_lt_succ hk) ?_ ?_
        · rwa [show p - 1 - (k : Int) = p - (k + 1 : Nat) by push_cast; ring]
        · rw [sub_add_cancel]
          exact two_zpow_lt_of_point? hlower hupper hpoint

/-- The first grid that is searched is coarser than a quarter of the last binary place. -/
theorem two_zpow_lt_coarse (hleast : -1076 ≤ i.unit) (hgreatest : i.unit ≤ 969) :
    (2 : ℚ) ^ i.unit < 10 ^ (i.coarse + 1) := by
  have hcoarse : i.unit * 30103 / 100000 + 3 ≤ i.coarse + 1 := by
    rw [coarse]
    omega
  refine lt_of_lt_of_le ?_ (zpow_le_zpow_right₀ (by norm_num) hcoarse)
  generalize hexponent : i.unit * 30103 / 100000 + 3 = exponent
  rcases le_or_gt exponent 0 with hneg | hpos
  · -- the inverse powers are natural numbers
    have hpow := pow_ten_le_pow_two (k := (-exponent).toNat) (n := (-i.unit).toNat - 1) (by omega)
    have hlt : (10 : ℚ) ^ (-exponent).toNat < 2 ^ (-i.unit).toNat :=
      lt_of_le_of_lt (by exact_mod_cast hpow) (pow_lt_pow_right₀ (by norm_num) (by omega))
    rw [zpow_eq_div (by norm_num) exponent, zpow_eq_div (by norm_num) i.unit,
      show exponent.toNat = 0 by omega, show i.unit.toNat = 0 by omega, pow_zero, pow_zero]
    exact one_div_lt_one_div_of_lt (by positivity) hlt
  · have hpow := pow_two_le_pow_ten (n := i.unit.toNat) (k := exponent.toNat - 1) (by omega)
    calc (2 : ℚ) ^ i.unit ≤ 2 ^ (i.unit.toNat : Int) :=
          zpow_le_zpow_right₀ (by norm_num) (Int.self_le_toNat _)
      _ ≤ 10 ^ (exponent.toNat - 1) := by exact_mod_cast hpow
      _ < 10 ^ exponent.toNat := pow_lt_pow_right₀ (by norm_num) (by omega)
      _ = 10 ^ exponent := by rw [← zpow_natCast, Int.toNat_of_nonneg hpos.le]

end Interval

open Binary64 (Legal leadingBit leastExponent)

/-- **The shortest decimal of a double lies in its interval**, and its digits have room in a 64-bit
word. -/
theorem Decimal.shortest_spec (tie : Tie) {m : Nat} {q : Int} (h : Legal m q) (hm : 0 < m) :
    (Interval.ofParts m q).Contains
        ((shortest tie m q).digits * 10 ^ (shortest tie m q).exponent)
      ∧ (shortest tie m q).digits < UInt64.size := by
  have hlower : (Interval.ofParts m q).lower < (Interval.ofParts m q).centre := by
    rcases Interval.lower_ofParts_eq m q with ⟨hlower, -⟩ | ⟨hlower, -⟩ <;> rw [hlower] <;>
      simp only [Interval.ofParts] <;> omega
  have hupper : (Interval.ofParts m q).centre < (Interval.ofParts m q).upper := by
    simp only [Interval.ofParts]
    omega
  have hsome := Interval.isSome_point? hlower hupper
    (Interval.scale_coarse_le hm h.lt h.least_le h.le_greatest) tie
  have hleast := h.least_le
  have hgreatest := h.le_greatest
  have hunit : (Interval.ofParts m q).unit = q - 2 := rfl
  rw [leastExponent] at hleast
  obtain ⟨hholds, hcoarse⟩ := Interval.search_spec hlower hupper
    (show 23 < 24 by decide) hsome (Interval.two_zpow_lt_coarse (by omega) (by omega))
  rw [shortest, if_neg (Nat.ne_of_gt hm)]
  rw [← Interval.shortest] at hholds hcoarse
  generalize (Interval.ofParts m q).shortest tie = d at *
  have hcontains := Interval.holds_iff.mp hholds
  refine ⟨hcontains, ?_⟩
  -- the number is below 2 ^ 55 quarters, of which there are fewer than ten to a step of the grid
  have hvalue := (Interval.contains_ofParts_iff.mp hcontains).1.2
  have hquarters : (4 * m + 2 : ℚ) ≤ 2 ^ 55 := by
    have hlt := h.lt
    simp only [leadingBit] at hlt
    exact_mod_cast (by omega : 4 * m + 2 ≤ 2 ^ 55)
  have hlt : (d.digits : ℚ) * 10 ^ d.exponent < (2 ^ 55 * 10) * 10 ^ d.exponent := by
    rw [hunit, zpow_add_one₀ (by norm_num)] at hcoarse
    calc (d.digits : ℚ) * 10 ^ d.exponent ≤ (4 * m + 2) * 2 ^ (q - 2) := hvalue
      _ ≤ 2 ^ 55 * 2 ^ (q - 2) := mul_le_mul_of_nonneg_right hquarters (two_zpow_pos _).le
      _ < 2 ^ 55 * (10 ^ d.exponent * 10) := mul_lt_mul_of_pos_left hcoarse (by norm_num)
      _ = 2 ^ 55 * 10 * 10 ^ d.exponent := by ring
  have hdigits : d.digits < 2 ^ 55 * 10 := by
    exact_mod_cast lt_of_mul_lt_mul_right hlt (ten_zpow_pos _).le
  simp only [UInt64.size]
  omega

end AgentSweep
