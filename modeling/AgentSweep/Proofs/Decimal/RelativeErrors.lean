import AgentSweep.Proofs.Decimal.Rounding

/-!
# Relative errors of rounded calculations

What a rounded calculation gives is compared with what it should give by the factor between the two
(`Within`). Rounding to a double changes a number by no more than the factor `1 + 2 ^ -53`, and a
product or a quotient multiplies the factors of its operands. So the factor of a whole calculation
is the product of the factors of its steps.

The factor between two numbers bounds how many doubles there are between those that they read back
as (`Interval.place_le_add`).
-/

namespace AgentSweep

/-! ## Factors between numbers -/

/-- **Two positive numbers are within a factor**: neither is more than the factor times the
other. -/
structure Within (r v w : ℚ) : Prop where
  left_pos : 0 < v
  right_pos : 0 < w
  left_le : v ≤ r * w
  right_le : w ≤ r * v

namespace Within

variable {r r' v v' w w' z : ℚ}

theorem refl (hv : 0 < v) : Within 1 v v := ⟨hv, hv, (one_mul v).ge, (one_mul v).ge⟩

theorem symm (h : Within r v w) : Within r w v := ⟨h.right_pos, h.left_pos, h.right_le, h.left_le⟩

theorem factor_pos (h : Within r v w) : 0 < r :=
  pos_of_mul_pos_left (h.left_pos.trans_le h.left_le) h.right_pos.le

theorem one_le (h : Within r v w) : 1 ≤ r := by
  by_contra hlt
  have hleft : v < w := h.left_le.trans_lt (mul_lt_of_lt_one_left h.right_pos (not_le.mp hlt))
  have hright : w < v := h.right_le.trans_lt (mul_lt_of_lt_one_left h.left_pos (not_le.mp hlt))
  exact lt_asymm hleft hright

theorem eq_of_one (h : Within 1 v w) : v = w :=
  le_antisymm ((one_mul w) ▸ h.left_le) ((one_mul v) ▸ h.right_le)

theorem mono (h : Within r v w) (hr : r ≤ r') : Within r' v w :=
  ⟨h.left_pos, h.right_pos, h.left_le.trans (mul_le_mul_of_nonneg_right hr h.right_pos.le),
    h.right_le.trans (mul_le_mul_of_nonneg_right hr h.left_pos.le)⟩

theorem trans (h : Within r v w) (h' : Within r' w z) : Within (r * r') v z := by
  refine ⟨h.left_pos, h'.right_pos, ?_, ?_⟩
  · calc v ≤ r * w := h.left_le
      _ ≤ r * (r' * z) := mul_le_mul_of_nonneg_left h'.left_le h.factor_pos.le
      _ = r * r' * z := (mul_assoc ..).symm
  · calc z ≤ r' * w := h'.right_le
      _ ≤ r' * (r * v) := mul_le_mul_of_nonneg_left h.right_le h'.factor_pos.le
      _ = r * r' * v := by ring

theorem mul (h : Within r v w) (h' : Within r' v' w') : Within (r * r') (v * v') (w * w') := by
  refine ⟨mul_pos h.left_pos h'.left_pos, mul_pos h.right_pos h'.right_pos, ?_, ?_⟩
  · rw [mul_mul_mul_comm]
    exact mul_le_mul h.left_le h'.left_le h'.left_pos.le (h.left_pos.le.trans h.left_le)
  · rw [mul_mul_mul_comm]
    exact mul_le_mul h.right_le h'.right_le h'.right_pos.le (h.right_pos.le.trans h.right_le)

theorem inv (h : Within r v w) : Within r v⁻¹ w⁻¹ := by
  refine ⟨inv_pos.mpr h.left_pos, inv_pos.mpr h.right_pos, ?_, ?_⟩
  · rw [← div_eq_mul_inv, le_div_iff₀ h.right_pos, ← div_eq_inv_mul, div_le_iff₀ h.left_pos]
    exact h.right_le
  · rw [← div_eq_mul_inv, le_div_iff₀ h.left_pos, ← div_eq_inv_mul, div_le_iff₀ h.right_pos]
    exact h.left_le

theorem div (h : Within r v w) (h' : Within r' v' w') : Within (r * r') (v / v') (w / w') := by
  rw [div_eq_mul_inv, div_eq_mul_inv]
  exact h.mul h'.inv

end Within

/-! ## The error of rounding -/

/-- The factor by which rounding to a double may change a number that is not subnormal. -/
def Binary64.roundingFactor : ℚ := 1 + 1 / 2 ^ 53

/-- A factor that also allows for the first subnormal numbers, which have up to two binary places
less. -/
def Binary64.coarseFactor : ℚ := 1 + 1 / 2 ^ 50

namespace Interval

open Binary64 (Legal leadingBit leastExponent place value roundingFactor coarseFactor)

variable {m m' : Nat} {q q' : Int} {v w r span : ℚ}

/-- A larger exponent doubles a power at least. -/
theorem two_mul_two_zpow_le {e e' : Int} (h : e < e') : 2 * (2 : ℚ) ^ e ≤ 2 ^ e' := by
  rw [mul_comm, ← zpow_add_one₀ (by norm_num)]
  exact zpow_le_zpow_right₀ (by norm_num) h

/-- What an interval contains is no more than half a unit of the last place away from the number of
its double. -/
theorem abs_sub_le (h : (ofParts m q).Contains v) :
    value m q - 2 * 2 ^ (q - 2) ≤ v ∧ v ≤ value m q + 2 * 2 ^ (q - 2) := by
  obtain ⟨⟨hlower, hupper⟩, -⟩ := contains_ofParts_iff.mp h
  have hends : (4 * m - 2 : ℚ) ≤ (ofParts m q).lower := by
    have hnat : 4 * m ≤ (ofParts m q).lower + 2 := by
      rcases lower_ofParts_eq m q with ⟨heq, -⟩ | ⟨heq, -⟩ <;> omega
    have hcast : (4 * m : ℚ) ≤ (ofParts m q).lower + 2 := by exact_mod_cast hnat
    linarith
  have hfirst := mul_le_mul_of_nonneg_right hends (two_zpow_pos (q - 2)).le
  rw [value_eq_quarters]
  exact ⟨by linarith, by linarith⟩

/-- What an interval contains is less than `2 ^ 53` places. -/
theorem le_span (h : Legal m q) (hv : (ofParts m q).Contains v) :
    v ≤ (2 ^ 53 - 1 / 2) * 2 ^ q := by
  have hm : (4 * m + 2 : ℚ) ≤ 4 * (2 ^ 53 - 1 / 2) := by
    have hnat : m + 1 ≤ 2 ^ 53 := by
      have hlt := h.lt
      rw [leadingBit] at hlt
      omega
    have hcast : (m + 1 : ℚ) ≤ 2 ^ 53 := by exact_mod_cast hnat
    linarith
  calc v ≤ (4 * m + 2) * 2 ^ (q - 2) := (contains_ofParts_iff.mp hv).1.2
    _ ≤ 4 * (2 ^ 53 - 1 / 2) * 2 ^ (q - 2) := mul_le_mul_of_nonneg_right hm (two_zpow_pos _).le
    _ = (2 ^ 53 - 1 / 2) * 2 ^ q := by
      rw [zpow_sub₀ (by norm_num)]
      ring

/-- What an interval contains is at most a quarter of a place below its binade. -/
theorem le_of_contains (h : Legal m q) (hq : leastExponent < q) (hv : (ofParts m q).Contains v) :
    (2 ^ 52 - 1 / 4) * 2 ^ q ≤ v := by
  have hm := h.leading_le hq
  have hlower : 4 * leadingBit ≤ (ofParts m q).lower + 1 := by
    rcases lower_ofParts_eq m q with ⟨heq, -⟩ | ⟨heq, hfar⟩
    · omega
    · have hne : m ≠ leadingBit := fun heq => hfar ⟨heq, hq⟩
      omega
  have hcast : (4 * leadingBit : ℚ) ≤ (ofParts m q).lower + 1 := by exact_mod_cast hlower
  calc (2 ^ 52 - 1 / 4) * (2 : ℚ) ^ q = (4 * 2 ^ 52 - 1) * 2 ^ (q - 2) := by
        rw [zpow_sub₀ (by norm_num)]
        ring
    _ ≤ (ofParts m q).lower * (2 : ℚ) ^ (q - 2) := by
      refine mul_le_mul_of_nonneg_right ?_ (two_zpow_pos _).le
      norm_num [leadingBit] at hcast
      linarith
    _ ≤ v := (contains_ofParts_iff.mp hv).1.1

/-- A double above the binade of a number it contains can only be the next power of two. -/
theorem eq_next_of_lt {e : Int} (h : Legal m q) (hv : (ofParts m q).Contains v)
    (he : leastExponent ≤ e) (hgt : e < q) (hhigh : v ≤ 2 ^ 53 * 2 ^ e) :
    q = e + 1 ∧ m = leadingBit := by
  have hunit := two_zpow_pos e
  have hlower := le_of_contains h (he.trans_lt hgt) hv
  have hq : q = e + 1 := by
    by_contra hne
    have hdouble := two_mul_two_zpow_le (show e < e + 1 by omega)
    have hmore := two_mul_two_zpow_le (show e + 1 < q by omega)
    linarith
  have hdouble : (2 : ℚ) ^ q = 2 * 2 ^ e := by
    rw [hq, zpow_add_one₀ (by norm_num), mul_comm]
  have hhalf : 2 * (2 : ℚ) ^ (q - 2) = 2 ^ e := by
    rw [zpow_sub₀ (by norm_num), hdouble]
    ring
  have hm : m ≤ leadingBit := by
    have hless : (m : ℚ) * 2 ^ e < (leadingBit + 1 : Nat) * 2 ^ e := by
      obtain ⟨hbelow, -⟩ := abs_sub_le hv
      rw [hhalf, value, hdouble] at hbelow
      rw [leadingBit]
      push_cast
      linarith
    exact Nat.le_of_lt_succ (by exact_mod_cast lt_of_mul_lt_mul_right hless hunit.le)
  exact ⟨hq, le_antisymm hm (h.leading_le (he.trans_lt hgt))⟩

/-- A double and a number it contains are at most half a place of the number's binade apart, and a
multiple of that place that is not above the number is not above the double. -/
theorem near_of_binade {floor : Nat} {e : Int} (h : Legal m q) (hv : (ofParts m q).Contains v)
    (he : leastExponent ≤ e) (hfloor : leadingBit ≤ floor) (hlow : floor * 2 ^ e ≤ v)
    (hhigh : v ≤ 2 ^ 53 * 2 ^ e) :
    floor * 2 ^ e ≤ value m q
      ∧ value m q - 1 / 2 * 2 ^ e ≤ v ∧ v ≤ value m q + 1 / 2 * 2 ^ e := by
  have hunit := two_zpow_pos e
  obtain ⟨hbelow, habove⟩ := abs_sub_le hv
  have hquarter : 2 * (2 : ℚ) ^ (q - 2) = 1 / 2 * 2 ^ q := by
    rw [zpow_sub₀ (by norm_num)]
    ring
  rw [hquarter] at hbelow habove
  rcases lt_trichotomy q e with hlt | rfl | hgt
  · -- the double is too small
    have hplace : (2 ^ 52 : ℚ) * 2 ^ e ≤ floor * 2 ^ e := by
      rw [leadingBit] at hfloor
      exact mul_le_mul_of_nonneg_right (by exact_mod_cast hfloor) hunit.le
    have hdouble := two_mul_two_zpow_le hlt
    linarith [le_span h hv]
  · have hm : floor ≤ m := by
      have hless : (floor : ℚ) * 2 ^ q < (m + 1 : Nat) * 2 ^ q := by
        rw [value] at habove
        push_cast
        linarith
      exact Nat.le_of_lt_succ (by exact_mod_cast lt_of_mul_lt_mul_right hless hunit.le)
    exact ⟨mul_le_mul_of_nonneg_right (Nat.cast_le.mpr hm) hunit.le, hbelow, habove⟩
  · have hlower := le_of_contains h (he.trans_lt hgt) hv
    obtain ⟨rfl, rfl⟩ := eq_next_of_lt h hv he hgt hhigh
    have hdouble : (2 : ℚ) ^ (e + 1) = 2 * 2 ^ e := by
      rw [zpow_add_one₀ (by norm_num), mul_comm]
    have hvalue : value leadingBit (e + 1) = 2 ^ 53 * 2 ^ e := by
      rw [value, hdouble, leadingBit]
      norm_num
      ring
    rw [hdouble] at hlower
    exact ⟨by linarith, by linarith, by linarith⟩

/-- **The larger a number is within its binade, the less it is changed by rounding.** -/
theorem within_value_of_binade {floor : Nat} {e : Int} (h : Legal m q)
    (hv : (ofParts m q).Contains v) (he : leastExponent ≤ e) (hfloor : leadingBit ≤ floor)
    (hlow : floor * 2 ^ e ≤ v) (hhigh : v ≤ 2 ^ 53 * 2 ^ e) :
    Within (1 + 1 / (2 * floor)) v (value m q) := by
  have hpos : (0 : ℚ) < floor := by
    rw [leadingBit] at hfloor
    exact_mod_cast (by omega : 0 < floor)
  have hplace : 0 < floor * (2 : ℚ) ^ e := mul_pos hpos (two_zpow_pos e)
  obtain ⟨hvalue, hbelow, habove⟩ := near_of_binade h hv he hfloor hlow hhigh
  have hfraction {w : ℚ} (hw : floor * 2 ^ e ≤ w) : 1 / 2 * 2 ^ e ≤ 1 / (2 * floor) * w := calc
    1 / 2 * (2 : ℚ) ^ e = 1 / (2 * floor) * (floor * 2 ^ e) := by
      field_simp
    _ ≤ 1 / (2 * floor) * w := mul_le_mul_of_nonneg_left hw (by positivity)
  refine ⟨by linarith, by linarith, ?_, ?_⟩
  · linarith [hfraction hvalue]
  · linarith [hfraction hlow]

theorem factor_le_roundingFactor {floor : Nat} (h : leadingBit ≤ floor) :
    1 + 1 / (2 * floor : ℚ) ≤ roundingFactor := by
  have hleading : (2 ^ 52 : ℚ) ≤ floor := by
    rw [leadingBit] at h
    exact_mod_cast h
  rw [roundingFactor, add_le_add_iff_left]
  exact one_div_le_one_div_of_le (by positivity) (by linarith)

/-- **Rounding changes a number by no more than the rounding factor**, unless it is subnormal. -/
theorem within_value (h : Legal m q) (hv : (ofParts m q).Contains v)
    (hnormal : 2 ^ (-1022 : Int) ≤ v) : Within roundingFactor v (value m q) := by
  obtain ⟨e, he, hlow, hhigh⟩ : ∃ e, leastExponent ≤ e ∧ leadingBit * (2 : ℚ) ^ e ≤ v
      ∧ v ≤ 2 ^ 53 * 2 ^ e := by
    rcases le_or_gt (leadingBit * (2 : ℚ) ^ q) v with hlow | hhigh
    · exact ⟨q, h.least_le, hlow, (le_span h hv).trans
        (mul_le_mul_of_nonneg_right (by norm_num) (two_zpow_pos q).le)⟩
    · -- a power of two has numbers of the binade below it in its interval
      have hq : leastExponent < q := by
        refine lt_of_le_of_ne h.least_le fun heq => ?_
        have hleast : (leadingBit : ℚ) * 2 ^ q = 2 ^ (-1022 : Int) := by
          rw [← heq, leadingBit, leastExponent, show (-1022 : Int) = 52 + -1074 from rfl,
            zpow_add₀ (by norm_num)]
          norm_num
        exact absurd hnormal (not_le.mpr (hleast ▸ hhigh))
      have hdouble : (2 : ℚ) ^ q = 2 * 2 ^ (q - 1) := by
        rw [zpow_sub_one₀ (by norm_num)]
        ring
      have hlower := le_of_contains h hq hv
      rw [hdouble] at hlower hhigh
      refine ⟨q - 1, by omega, ?_, ?_⟩
      · have hunit := two_zpow_pos (q - 1)
        rw [leadingBit]
        push_cast
        linarith
      · rw [leadingBit] at hhigh
        push_cast at hhigh
        linarith
  exact (within_value_of_binade h hv he le_rfl hlow hhigh).mono (factor_le_roundingFactor le_rfl)

/-- Rounding changes the first subnormal numbers by no more than the coarse factor. -/
theorem within_value_coarse (h : Legal m q) (hv : (ofParts m q).Contains v)
    (hlarge : 2 ^ (-1024 : Int) ≤ v) : Within coarseFactor v (value m q) := by
  have hunit := two_zpow_pos (q - 2)
  obtain ⟨hbelow, habove⟩ := abs_sub_le hv
  have hquarters : 2 ^ 52 * 2 ^ (q - 2) ≤ v := by
    rcases h.least_le.lt_or_eq with hnormal | rfl
    · have hm : (2 ^ 52 : ℚ) ≤ m := by
        have hleading := h.leading_le hnormal
        rw [leadingBit] at hleading
        exact_mod_cast hleading
      rw [value_eq_quarters] at hbelow
      have hgrow := mul_le_mul_of_nonneg_right hm hunit.le
      linarith
    · refine le_trans (le_of_eq ?_) hlarge
      rw [leastExponent, ← zpow_natCast, ← zpow_add₀ (by norm_num)]
      rfl
  have hstep : 2 * 2 ^ (q - 2) ≤ 1 / 2 ^ 50 * value m q := by linarith
  refine ⟨by linarith, by linarith, ?_, ?_⟩
  · rw [coarseFactor, add_mul, one_mul]
    linarith
  · rw [coarseFactor, add_mul, one_mul]
    linarith

/-! ## How many doubles apart -/

/-- A number that is not near the end of its binade is fewer places. -/
theorem le_span_of_binade {n : Int} (h : Legal m q) (hv : (ofParts m q).Contains v)
    (hlow : 2 ^ n < v) (hhigh : v ≤ span * 2 ^ n) : v ≤ span * 2 ^ 52 * 2 ^ q := by
  have hunit := two_zpow_pos n
  have hn : n ≤ q + 52 := by
    by_contra hlarge
    have hpower : (2 : ℚ) ^ 53 * 2 ^ q ≤ 2 ^ n := by
      rw [← zpow_natCast, ← zpow_add₀ (by norm_num)]
      exact zpow_le_zpow_right₀ (by norm_num) (by omega)
    linarith [le_span h hv, two_zpow_pos q]
  have hspan : 0 < span := pos_of_mul_pos_left ((hunit.trans hlow).trans_le hhigh) hunit.le
  calc v ≤ span * 2 ^ n := hhigh
    _ ≤ span * (2 ^ 52 * 2 ^ q) := by
      rw [← zpow_natCast, ← zpow_add₀ (by norm_num)]
      exact mul_le_mul_of_nonneg_left
        (zpow_le_zpow_right₀ (by norm_num) (by push_cast; omega)) hspan.le
    _ = span * 2 ^ 52 * 2 ^ q := (mul_assoc ..).symm

/-- **The factor between two numbers bounds how many doubles apart those are that they read back
as.** -/
theorem place_le_add {k : Nat} (h : Legal m q) (h' : Legal m' q') (hv : (ofParts m q).Contains v)
    (hw : (ofParts m' q').Contains w) (hwithin : Within r v w) (hspan : v ≤ span * 2 ^ q)
    (hk : (r - 1) * span < k) : place m' q' ≤ place m q + k := by
  by_contra hfar
  have hcount := mul_two_zpow_le_sub h h' (by omega) hv hw
  have hmany : (k : ℚ) ≤ ((place m' q' - place m q - 1 : Nat) : ℚ) := by
    exact_mod_cast (by omega : k ≤ place m' q' - place m q - 1)
  have hunit := two_zpow_pos q
  have hless : w - v < k * 2 ^ q := calc
    w - v ≤ (r - 1) * v := by linarith [hwithin.right_le]
    _ ≤ (r - 1) * (span * 2 ^ q) :=
      mul_le_mul_of_nonneg_left hspan (sub_nonneg.mpr hwithin.one_le)
    _ = (r - 1) * span * 2 ^ q := (mul_assoc ..).symm
    _ < k * 2 ^ q := mul_lt_mul_of_pos_right hk hunit
  linarith [mul_le_mul_of_nonneg_right hmany hunit.le]

end Interval

/-! ## Calculations with doubles -/

namespace Binary64

variable {x y : Float} {r r' v w : ℚ}

theorem pos_of_value {m : Nat} {q : Int} (h : 0 < value m q) : 0 < m := by
  rcases Nat.eq_zero_or_pos m with rfl | hpos
  · rw [value, Nat.cast_zero, zero_mul] at h
    exact absurd h (lt_irrefl 0)
  · exact hpos

/-- **A double stands for a number up to a factor.** -/
def Approximates (x : Float) (r v : ℚ) : Prop :=
  ∃ m q, ofFloat x = .finite false m q ∧ Within r v (value m q)

theorem Nearest.approximates_of_binade {floor : Nat} {e : Int} (h : Nearest x v)
    (he : leastExponent ≤ e) (hfloor : leadingBit ≤ floor) (hlow : floor * 2 ^ e ≤ v)
    (hhigh : v ≤ 2 ^ 53 * 2 ^ e) : Approximates x (1 + 1 / (2 * floor)) v := by
  obtain ⟨m, q, hparts, hv⟩ := h
  exact ⟨m, q, hparts, Interval.within_value_of_binade (toNat_toBits_of_ofFloat hparts).2 hv he
    hfloor hlow hhigh⟩

theorem Nearest.approximates (h : Nearest x v) (hnormal : 2 ^ (-1022 : Int) ≤ v) :
    Approximates x roundingFactor v := by
  obtain ⟨m, q, hparts, hv⟩ := h
  exact ⟨m, q, hparts, Interval.within_value (toNat_toBits_of_ofFloat hparts).2 hv hnormal⟩

theorem Nearest.approximates_coarse (h : Nearest x v) (hlarge : 2 ^ (-1024 : Int) ≤ v) :
    Approximates x coarseFactor v := by
  obtain ⟨m, q, hparts, hv⟩ := h
  exact ⟨m, q, hparts, Interval.within_value_coarse (toNat_toBits_of_ofFloat hparts).2 hv hlarge⟩

/-- A number with at most 53 binary digits is its own nearest double. -/
theorem Nearest.approximates_exact {n k : Nat} (h : Nearest x (n * 2 ^ k)) (hpos : 0 < n)
    (hn : n < 2 * leadingBit) (hk : k ≤ 971) : Approximates x 1 (n * 2 ^ k) := by
  obtain ⟨hlegal, hvalue⟩ := exists_legal hpos hn hk
  rw [← hvalue] at h
  refine ⟨_, _, h.ofFloat_eq hlegal, ?_⟩
  rw [hvalue]
  exact Within.refl (by positivity)

namespace Approximates

theorem of_within (hx : Approximates x r' w) (h : Within r v w) : Approximates x (r * r') v := by
  obtain ⟨m, q, hparts, hw⟩ := hx
  exact ⟨m, q, hparts, h.trans hw⟩

/-- **A product is nearest to a number within both factors of the true product.** -/
theorem mul (hx : Approximates x r v) (hy : Approximates y r' w)
    (hsmall : r * r' * (v * w) < overflow) :
    ∃ z, Nearest (x * y) z ∧ Within (r * r') (v * w) z := by
  obtain ⟨m, q, hparts, hv⟩ := hx
  obtain ⟨m', q', hparts', hw⟩ := hy
  have hproduct := hv.mul hw
  exact ⟨_, nearest_mul hparts hparts' (pos_of_value hv.right_pos) (pos_of_value hw.right_pos)
    (hproduct.right_le.trans_lt hsmall), hproduct⟩

/-- **A quotient is nearest to a number within both factors of the true quotient.** -/
theorem div (hx : Approximates x r v) (hy : Approximates y r' w)
    (hsmall : r * r' * (v / w) < overflow) :
    ∃ z, Nearest (x / y) z ∧ Within (r * r') (v / w) z := by
  obtain ⟨m, q, hparts, hv⟩ := hx
  obtain ⟨m', q', hparts', hw⟩ := hy
  have hquotient := hv.div hw
  exact ⟨_, nearest_div hparts hparts' (pos_of_value hv.right_pos) (pos_of_value hw.right_pos)
    (hquotient.right_le.trans_lt hsmall), hquotient⟩

end Approximates

end Binary64

end AgentSweep
