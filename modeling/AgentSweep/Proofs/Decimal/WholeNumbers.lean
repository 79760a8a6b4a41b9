import AgentSweep.Proofs.Decimal.Rounding
import AgentSweep.Value.Render

/-!
# Whole numbers are shown in full

A natural number below `2 ^ 53` is a double, and the double is shown by its decimal digits: the
`who` of an agent reads like the number it is.

The double nearest to such a number has the number itself for its value. Its interval is narrower
than one, so a grid of whole numbers has a point in it only if that point is the number
itself. The search then ends on a grid whose step divides the number, and the zeros that the search
has taken off are put on again when the decimal is written out.
-/

namespace AgentSweep

namespace Binary64

/-- **A natural number below `2 ^ 53` is a double**, with its leading bit in the place for it. -/
theorem ofFloat_natural {n : Nat} (hpos : 0 < n) (h : n < 2 * leadingBit) :
    ofFloat n.toUInt64.toFloat = .finite false (n * 2 ^ (52 - n.log2)) (n.log2 - 52) := by
  obtain ⟨hlegal, hvalue⟩ := exists_legal (k := 0) hpos h (by decide)
  rw [Nat.cast_zero, add_zero, pow_zero, mul_one] at hvalue
  rw [Nat.cast_zero, add_zero] at hlegal
  have hnearest := nearest_natural hpos (Nat.lt_trans h (by decide))
  rw [← hvalue] at hnearest
  exact hnearest.ofFloat_eq hlegal

/-- The value of this double is the number itself. -/
theorem exists_value_eq_natural {n : Nat} (h : n < 2 * leadingBit) :
    ∃ m q, ofFloat n.toUInt64.toFloat = .finite false m q ∧ value m q = n := by
  rcases Nat.eq_zero_or_pos n with rfl | hpos
  · refine ⟨0, leastExponent, by decide +kernel, ?_⟩
    rw [value, Nat.cast_zero, zero_mul]
  · obtain ⟨-, hvalue⟩ := exists_legal (k := 0) hpos h (by decide)
    rw [Nat.cast_zero, add_zero, pow_zero, mul_one] at hvalue
    exact ⟨_, _, ofFloat_natural hpos h, hvalue⟩

end Binary64

/-! ## The search for its digits -/

namespace Interval

open Binary64

variable {n : Nat} {tie : Tie}

/-- The interval of the double that stands for `n`. -/
def ofNatural (n : Nat) : Interval := ofParts (n * 2 ^ (52 - n.log2)) (n.log2 - 52)

/-- A grid of whole numbers is counted in quarters of the last binary place, four or more to
one. -/
theorem scale_ofNatural (h : n.log2 < 53) (p : Nat) :
    (ofNatural n).scale p = (1, 4 * (2 ^ (52 - n.log2) * 10 ^ p)) := by
  have hfine : ((n.log2 : Int) - 52 - 2).toNat = 0 := by omega
  have hunit : (-((n.log2 : Int) - 52 - 2)).toNat = (52 - n.log2) + 2 := by omega
  have hgrid : (-(p : Int)).toNat = 0 := by omega
  simp only [scale, ofNatural, ofParts, hfine, hunit, hgrid, Int.toNat_natCast, Nat.pow_eq,
    Nat.pow_zero, Nat.mul_one, Nat.pow_add, Prod.mk.injEq, true_and]
  ring

/-- **The only whole number in the interval is the number itself.** -/
theorem holds_ofNatural (hpos : 0 < n) (h : n < 2 * leadingBit) (p k : Nat) :
    (ofNatural n).holds p k = decide (k * 10 ^ p = n) := by
  have hlog : n.log2 < 53 := (Nat.log2_lt (Nat.ne_of_gt hpos)).mpr h
  obtain ⟨hleading, -⟩ := mul_two_pow_bounds hpos h
  have hsame : k * (2 ^ (52 - n.log2) * 10 ^ p) = n * 2 ^ (52 - n.log2) ↔ k * 10 ^ p = n := by
    rw [Nat.mul_left_comm, Nat.mul_comm]
    exact Nat.mul_left_inj (Nat.ne_of_gt (Nat.two_pow_pos _))
  have hquarters : k * (4 * (2 ^ (52 - n.log2) * 10 ^ p))
      = 4 * (k * (2 ^ (52 - n.log2) * 10 ^ p)) := Nat.mul_left_comm ..
  have hcentre (m steps : Nat) (hm : 0 < m) (lower : Nat)
      (hlower : lower = 4 * m - 1 ∨ lower = 4 * m - 2) (closed : Bool) :
      (if closed then decide (lower ≤ 4 * steps) && decide (4 * steps ≤ 4 * m + 2)
        else decide (lower < 4 * steps) && decide (4 * steps < 4 * m + 2))
        = decide (steps = m) := by
    cases closed <;> simp only [← Bool.decide_and, decide_eq_decide, if_true, Bool.false_eq_true,
      if_false] <;> omega
  rw [← decide_eq_decide.mpr hsame]
  simp only [holds, scale_ofNatural hlog, hquarters, Nat.mul_one]
  exact hcentre _ _ (Nat.lt_of_lt_of_le (by decide) hleading) _ (ite_eq_or_eq ..) _

/-- **A grid of whole numbers has a point in the interval if and only if its step divides the
number.** -/
theorem point?_ofNatural (hpos : 0 < n) (h : n < 2 * leadingBit) (p : Nat) :
    (ofNatural n).point? tie p = if 10 ^ p ∣ n then some (n / 10 ^ p) else none := by
  have hlog : n.log2 < 53 := (Nat.log2_lt (Nat.ne_of_gt hpos)).mpr h
  have hlow : (ofNatural n).centre * 1 / (4 * (2 ^ (52 - n.log2) * 10 ^ p)) = n / 10 ^ p := by
    show 4 * (n * 2 ^ (52 - n.log2)) * 1 / (4 * (2 ^ (52 - n.log2) * 10 ^ p)) = n / 10 ^ p
    rw [Nat.mul_one, Nat.mul_div_mul_left _ _ (by decide), Nat.mul_comm n,
      Nat.mul_div_mul_left _ _ (Nat.two_pow_pos _)]
  have hnext : ¬(n / 10 ^ p + 1) * 10 ^ p = n := by
    rw [Nat.add_mul, Nat.one_mul]
    exact Nat.ne_of_gt (Nat.lt_div_mul_add (Nat.pow_pos (by decide)))
  unfold point?
  simp only [scale_ofNatural hlog, hlow, holds_ofNatural hpos h, decide_eq_false hnext]
  by_cases hdvd : 10 ^ p ∣ n
  · have hwhole : 0 < n / 10 ^ p :=
      Nat.div_pos (Nat.le_of_dvd hpos hdvd) (Nat.pow_pos (by decide))
    rw [if_pos hdvd, decide_eq_true (Nat.div_mul_cancel hdvd), decide_eq_true hwhole]
    rfl
  · have hnone : ¬n / 10 ^ p * 10 ^ p = n := fun heq => hdvd (Dvd.intro_left _ heq)
    rw [if_neg hdvd, decide_eq_false hnone, Bool.and_false]

/-- A search that begins on a grid of whole numbers ends on one. -/
theorem search_ofNatural (hpos : 0 < n) (h : n < 2 * leadingBit) {p grids : Nat} (hp : p < grids) :
    ∃ j : Nat, (ofNatural n).search tie p grids = ⟨n / 10 ^ j, j⟩ ∧ 10 ^ j ∣ n := by
  induction grids generalizing p with
  | zero => exact absurd hp (Nat.not_lt_zero p)
  | succ grids ih =>
    rw [search, point?_ofNatural hpos h]
    by_cases hdvd : 10 ^ p ∣ n
    · exact ⟨p, by rw [if_pos hdvd], hdvd⟩
    · rw [if_neg hdvd]
      cases p with
      | zero => exact absurd (Nat.one_dvd n) hdvd
      | succ p =>
        rw [Nat.cast_succ, Int.add_sub_cancel]
        exact ih (Nat.lt_of_succ_lt_succ hp)

end Interval

/-! ## Its digits -/

namespace Decimal

open Binary64

/-- **The shortest decimal of a natural number is the number**, without some of the zeros at its
end. -/
theorem shortest_natural (tie : Tie) {n : Nat} (hpos : 0 < n) (h : n < 2 * leadingBit) :
    ∃ j : Nat, shortest tie (n * 2 ^ (52 - n.log2)) (n.log2 - 52) = ⟨n / 10 ^ j, j⟩
      ∧ 10 ^ j ∣ n := by
  have hlog : n.log2 < 53 := (Nat.log2_lt (Nat.ne_of_gt hpos)).mpr h
  obtain ⟨hleading, hless⟩ := mul_two_pow_bounds hpos h
  simp only [leadingBit] at hleading hless
  have hlogUpper : (4 * (n * 2 ^ (52 - n.log2)) + 2).log2 = 54 :=
    (Nat.log2_eq_iff (by omega)).mpr (by omega)
  obtain ⟨p, hp, hcoarse⟩ : ∃ p : Nat, p < 24 ∧ (Interval.ofNatural n).coarse = p := by
    refine ⟨(n.log2 + 1) * 30103 / 100000 + 2, by omega, ?_⟩
    simp only [Interval.coarse, Interval.ofNatural, Interval.ofParts, hlogUpper]
    omega
  rw [shortest, if_neg (by omega)]
  show ∃ j : Nat, (Interval.ofNatural n).search tie (Interval.ofNatural n).coarse 24 = _ ∧ _
  rw [hcoarse]
  exact Interval.search_ofNatural hpos h hp

/-- The digits of a number end in the zeros of a power of ten that divides it. -/
theorem toDigits_mul_pow {k : Nat} (hk : 0 < k) (j : Nat) :
    Nat.toDigits 10 (k * 10 ^ j) = Nat.toDigits 10 k ++ List.replicate j '0' := by
  induction j with
  | zero => rw [Nat.pow_zero, Nat.mul_one, List.replicate_zero, List.append_nil]
  | succ j ih =>
    rw [Nat.pow_succ, ← Nat.mul_assoc, List.replicate_succ', ← List.append_assoc, ← ih,
      Nat.mul_comm _ 10]
    have hpos : 0 < k * 10 ^ j := Nat.mul_pos hk (Nat.pow_pos (by decide))
    exact (Nat.toDigits_append_toDigits (b := 10) (d := 0) (by decide) hpos (by decide)).symm

end Decimal

/-- **A natural number below `2 ^ 53` is shown by its decimal digits.** -/
theorem Value.numberText_natural {n : Nat} (h : n < 2 * Binary64.leadingBit) :
    Value.numberText n.toUInt64.toFloat = toString n := by
  rcases Nat.eq_zero_or_pos n with rfl | hpos
  · decide +kernel
  · obtain ⟨j, hshortest, hdvd⟩ := Decimal.shortest_natural .up hpos h
    have hwhole : 0 < n / 10 ^ j :=
      Nat.div_pos (Nat.le_of_dvd hpos hdvd) (Nat.pow_pos (by decide))
    have hpositional : (Decimal.mk (n / 10 ^ j) j).positional = (Nat.toDigits 10 n, []) := by
      have hplaces : (-(j : Int)).toNat = 0 := by omega
      simp only [Decimal.positional, Decimal.digitChars, hplaces, Int.toNat_natCast, if_true,
        ← Decimal.toDigits_mul_pow hwhole, Nat.div_mul_cancel hdvd]
    rw [Value.numberText, Binary64.ofFloat_natural hpos h]
    simp only [hshortest, hpositional]
    exact Nat.toString_eq_ofList_toDigits.symm

end AgentSweep
