import AgentSweep.Proofs.Decimal.WholeNumbers
import AgentSweep.Proofs.Json.Scaling

/-!
# How near a double is read back

No double is read back as one that is more than two places away (`readsWithin_collected`). One step
of the reader is not enough for that in two ranges, at either end of the doubles.

A power of ten below `10 ^ -308` takes two divisions. The first one is by `10 ^ 308`, which happens
to be very near to a double, and the second one is by a power that is a double, unless the number is
so small that a factor hardly matters. There are still three roundings, and three full factors would
be more than two places. But if the word is changed by the full factor, the first quotient is not,
or the number lies in the middle of its binade, where a factor makes fewer places
(`Scaled.StandsFor.readsWithin_two_of_few`).

At the other end a product may overflow. Only for the last three doubles is that so close that the
calculation itself has to be looked at (`readsWithin_greatest`).
-/

namespace AgentSweep

namespace NumberLiteral

open Binary64

variable {x : Float} {s : Scaled} {k m places : Nat} {q : Int} {r : ℚ}

/-! ## Two steps -/

/-- Where the largest power of ten lies in its binade. -/
theorem largestPower_bounds :
    89 * 2 ^ 1023 ≤ 80 * (10 : ℚ) ^ largestPower
      ∧ 10000 * (10 : ℚ) ^ largestPower ≤ 11126 * 2 ^ 1023 := by
  have hbelow : 89 * 2 ^ 1023 ≤ 80 * 10 ^ largestPower := by decide +kernel
  have habove : 10000 * 10 ^ largestPower ≤ 11126 * 2 ^ 1023 := by decide +kernel
  exact ⟨by exact_mod_cast hbelow, by exact_mod_cast habove⟩

/-- Where a quotient by the largest power of ten lies. -/
theorem div_largestPower_bounds {a : ℚ} (ha : 0 ≤ a) :
    10000 / 11126 * a * 2 ^ (-1023 : Int) ≤ a / 10 ^ largestPower
      ∧ a / 10 ^ largestPower ≤ 80 / 89 * a * 2 ^ (-1023 : Int) := by
  obtain ⟨hbelow, habove⟩ := largestPower_bounds
  have hunit : (2 : ℚ) ^ (-1023 : Int) * 2 ^ 1023 = 1 := by
    rw [← zpow_natCast, ← zpow_add₀ (by norm_num)]
    rfl
  have hpower : (0 : ℚ) < 10 ^ largestPower := by positivity
  have hpos := two_zpow_pos (-1023)
  rw [le_div_iff₀ hpower, div_le_iff₀ hpower]
  generalize (2 : ℚ) ^ (-1023 : Int) = unit at *
  generalize (2 : ℚ) ^ 1023 = whole at *
  generalize (10 : ℚ) ^ largestPower = power at *
  have hproduct (factor : ℚ) : factor * a * unit * power = factor * a * (unit * power) := by ring
  rw [hproduct, hproduct]
  constructor
  · have hless : unit * power ≤ 11126 / 10000 := by
      linarith [mul_le_mul_of_nonneg_left habove hpos.le]
    calc 10000 / 11126 * a * (unit * power) ≤ 10000 / 11126 * a * (11126 / 10000) :=
          mul_le_mul_of_nonneg_left hless (by positivity)
      _ = a := by ring
  · have hless : 89 / 80 ≤ unit * power := by
      linarith [mul_le_mul_of_nonneg_left hbelow hpos.le]
    calc a = 80 / 89 * a * (89 / 80) := by ring
      _ ≤ 80 / 89 * a * (unit * power) := mul_le_mul_of_nonneg_left hless (by positivity)

/-! ### The first quotient -/

/-- **The first of two quotients** is rounded from a number that is as near to the true quotient as
the word is to the digits, up to the small error of the largest power of ten. -/
theorem Scaled.StandsFor.exists_quotient (h : s.StandsFor m q)
    (hs : Approximates s.significand.toUInt64.toFloat r s.significand) (hr : r ≤ 3 / 2) :
    ∃ t, Nearest (s.significand.toUInt64.toFloat / powerOfTen largestPower) t
      ∧ Within (r * (1 + 1 / 2 ^ 56)) (s.significand / 10 ^ largestPower) t := by
  have hfraction : (s.significand : ℚ) / 10 ^ largestPower ≤ UInt64.size :=
    (div_le_self (Nat.cast_nonneg _) (one_le_pow₀ (by norm_num))).trans
      (Nat.cast_le.mpr h.significand_lt.le)
  exact hs.div approximates_largestPower (mul_lt_overflow (by linarith) (by positivity) hfraction)

/-- A number that is within a little of a quotient is not much smaller than it. -/
theorem mul_two_zpow_le_of_within {a t : ℚ} (ha : 0 ≤ a) (hr : r ≤ 1 + 1 / 2 ^ 50)
    (h : Within r (a / 10 ^ largestPower) t) : 898 / 1000 * a * 2 ^ (-1023 : Int) ≤ t := by
  have hbound := (div_largestPower_bounds ha).1.trans h.left_le
  have hless : r * t ≤ (1 + 1 / 2 ^ 50) * t := mul_le_mul_of_nonneg_right hr h.right_pos.le
  have hproduct : 0 ≤ a * 2 ^ (-1023 : Int) := mul_nonneg ha (two_zpow_pos _).le
  rw [mul_assoc] at hbound ⊢
  generalize a * 2 ^ (-1023 : Int) = product at *
  linarith

/-- The first quotient is among the first subnormal numbers at least. -/
theorem Scaled.StandsFor.approximates_quotient_coarse (h : s.StandsFor m q) :
    Approximates (s.significand.toUInt64.toFloat / powerOfTen largestPower)
      (roundingFactor * (1 + 1 / 2 ^ 56) * coarseFactor) (s.significand / 10 ^ largestPower) := by
  obtain ⟨t, hnearest, hwithin⟩ := h.exists_quotient
    (approximates_word h.significand_pos h.significand_lt) (by norm_num [roundingFactor])
  refine (hnearest.approximates_coarse (le_trans ?_
    (mul_two_zpow_le_of_within (Nat.cast_nonneg _) ?_ hwithin))).of_within hwithin
  · have hdigits : (1 : ℚ) ≤ s.significand := Nat.one_le_cast.mpr h.significand_pos
    rw [show (-1024 : Int) = -1023 - 1 from rfl, zpow_sub_one₀ (by norm_num), mul_comm]
    exact mul_le_mul_of_nonneg_right (by linarith) (two_zpow_pos _).le
  · norm_num [roundingFactor]

/-- The first quotient is a normal number unless its significand is one or two. -/
theorem Scaled.StandsFor.approximates_quotient (h : s.StandsFor m q)
    (hs : Approximates s.significand.toUInt64.toFloat r s.significand) (hr : r ≤ roundingFactor)
    (hlarge : 3 ≤ s.significand) :
    Approximates (s.significand.toUInt64.toFloat / powerOfTen largestPower)
      (r * (1 + 1 / 2 ^ 56) * roundingFactor) (s.significand / 10 ^ largestPower) := by
  rw [roundingFactor] at hr
  obtain ⟨t, hnearest, hwithin⟩ := h.exists_quotient hs (hr.trans (by norm_num))
  refine (hnearest.approximates (le_trans ?_
    (mul_two_zpow_le_of_within (Nat.cast_nonneg _) ?_ hwithin))).of_within hwithin
  · have hdigits : (3 : ℚ) ≤ s.significand := by exact_mod_cast hlarge
    rw [show (-1022 : Int) = -1023 + 1 from rfl, zpow_add_one₀ (by norm_num), mul_comm]
    exact mul_le_mul_of_nonneg_right (by linarith) (two_zpow_pos _).le
  · linarith

/-! ### Digits with more than 53 binary places

Three roundings by the full factor would be too much, but they do not come together. A word is
changed by the full factor only if it is little more than a power of two. Then its quotient by the
largest power of ten is little less than one. -/

/-- The larger a word is within its binade, the less it is changed. -/
theorem approximates_word_of_binade {n floor e : Nat} (hsize : n < UInt64.size)
    (hfloor : leadingBit ≤ floor) (hlow : floor * 2 ^ e ≤ 2 ^ 52 * n) (hhigh : n ≤ 2 ^ (e + 1)) :
    Approximates n.toUInt64.toFloat (1 + 1 / (2 * floor)) n := by
  have hpos : 0 < n := by
    refine Nat.pos_of_mul_pos_left (Nat.lt_of_lt_of_le (Nat.mul_pos ?_ (Nat.two_pow_pos e)) hlow)
    exact Nat.lt_of_lt_of_le (by decide) hfloor
  have hpower : (2 : ℚ) ^ (e - 52 : Int) * 2 ^ 52 = 2 ^ e := by
    rw [← zpow_natCast, ← zpow_add₀ (by norm_num), ← zpow_natCast]
    congr 1
    omega
  have hunit := two_zpow_pos (e - 52)
  refine (nearest_natural hpos hsize).approximates_of_binade (e := e - 52) ?_ hfloor ?_ ?_
  · rw [leastExponent]
    omega
  · have hcast : (floor * 2 ^ e : ℚ) ≤ 2 ^ 52 * n := by exact_mod_cast hlow
    rw [← hpower] at hcast
    linarith
  · have hcast : (n : ℚ) ≤ 2 ^ (e + 1) := by exact_mod_cast hhigh
    rw [pow_succ, ← hpower] at hcast
    linarith

/-- If a word is little more than a power of two, its quotient is little less than one. -/
theorem Scaled.StandsFor.approximates_quotient_of_binade (h : s.StandsFor m q) {e : Nat}
    (he : 2 ≤ e) (hlow : 2 ^ e ≤ s.significand) (hhigh : 64 * s.significand < 71 * 2 ^ e) :
    Approximates (s.significand.toUInt64.toFloat / powerOfTen largestPower)
      (roundingFactor * (1 + 1 / 2 ^ 56) * (1 + 1 / (2 * (458 * 2 ^ 44 : Nat))))
      (s.significand / 10 ^ largestPower) := by
  obtain ⟨t, hnearest, hwithin⟩ := h.exists_quotient
    (approximates_word h.significand_pos h.significand_lt) (by norm_num [roundingFactor])
  have hbelow :=
    mul_two_zpow_le_of_within (Nat.cast_nonneg _) (by norm_num [roundingFactor]) hwithin
  have habove := (div_largestPower_bounds (Nat.cast_nonneg s.significand)).2
  have hunit := two_zpow_pos (-1023)
  have hpower : (2 : ℚ) ^ (e - 1076 : Int) * 2 ^ 53 = 2 ^ e * 2 ^ (-1023 : Int) := by
    rw [← zpow_natCast, ← zpow_natCast, ← zpow_add₀ (by norm_num), ← zpow_add₀ (by norm_num)]
    congr 1
    push_cast
    ring
  have hlow : (2 ^ e : ℚ) * 2 ^ (-1023 : Int) ≤ s.significand * 2 ^ (-1023 : Int) :=
    mul_le_mul_of_nonneg_right (by exact_mod_cast hlow) hunit.le
  have hhigh : (64 * s.significand : ℚ) * 2 ^ (-1023 : Int) ≤ 71 * 2 ^ e * 2 ^ (-1023 : Int) :=
    mul_le_mul_of_nonneg_right (by exact_mod_cast hhigh.le) hunit.le
  refine (hnearest.approximates_of_binade (e := e - 1076) ?_ (by decide) ?_ ?_).of_within hwithin
  · rw [leastExponent]
    omega
  · push_cast
    linarith
  · have hless : t ≤ (1 + 1 / 2 ^ 50) * (s.significand / 10 ^ largestPower) :=
      hwithin.right_le.trans (mul_le_mul_of_nonneg_right (by norm_num [roundingFactor])
        hwithin.left_pos.le)
    linarith

/-- Where a power of ten that takes two steps lies in its binade. -/
theorem exists_binade (hpos : 0 < k) (hk : k ≤ 22) :
    ∃ e, 65 * 10 ^ (largestPower + k) ≤ 71 * 2 ^ e
      ∧ 297 * 2 ^ e * 10000 ≤ 256 * 19698 * 10 ^ (largestPower + k) := by
  have htable : ∀ k ≤ 22, 0 < k →
      65 * 10 ^ (largestPower + k) ≤ 71 * 2 ^ ((64 * 10 ^ (largestPower + k) / 71).log2 + 1)
        ∧ 297 * 2 ^ ((64 * 10 ^ (largestPower + k) / 71).log2 + 1) * 10000
          ≤ 256 * 19698 * 10 ^ (largestPower + k) := by
    decide +kernel
  exact ⟨_, htable k hk hpos⟩

/-- If a word is changed almost by the full factor and so is its quotient, the number that they make
is not near the end of its binade. -/
theorem Scaled.value_bounds {e : Nat} (hpos : 0 < k) (hk : k ≤ 22)
    (hexponent : s.exponent = -(largestPower + k : Nat)) (hlow : 71 * 2 ^ e ≤ 64 * s.significand)
    (hhigh : 256 * s.significand < 297 * 2 ^ e) :
    ∃ n : Int, 65 / 64 * 2 ^ n ≤ s.value ∧ s.value ≤ 19698 / 10000 * 2 ^ n := by
  obtain ⟨f, hbelow, habove⟩ := exists_binade hpos hk
  have hcast (a b : Nat) (hab : a ≤ b) : (a : ℚ) ≤ b := Nat.cast_le.mpr hab
  have hlow := hcast _ _ hlow
  have hhigh := hcast _ _ hhigh.le
  have hbelow := hcast _ _ hbelow
  have habove := hcast _ _ habove
  simp only [Nat.cast_mul, Nat.cast_pow, Nat.cast_ofNat] at hlow hhigh hbelow habove
  have hword : (0 : ℚ) < 2 ^ e := by positivity
  have hpower : (0 : ℚ) < 10 ^ (largestPower + k) := by positivity
  have hbinade : (0 : ℚ) < 2 ^ f := by positivity
  refine ⟨e - f, ?_, ?_⟩
  · rw [Scaled.value_eq_div hexponent, zpow_sub₀ (by norm_num), zpow_natCast, zpow_natCast,
      mul_div_assoc', div_le_div_iff₀ hbinade hpower]
    generalize (10 : ℚ) ^ (largestPower + k) = power at *
    calc 65 / 64 * (2 : ℚ) ^ e * power = 2 ^ e / 64 * (65 * power) := by ring
      _ ≤ 2 ^ e / 64 * (71 * 2 ^ f) := mul_le_mul_of_nonneg_left hbelow (by positivity)
      _ = 71 * 2 ^ e * (2 ^ f / 64) := by ring
      _ ≤ 64 * s.significand * (2 ^ f / 64) := mul_le_mul_of_nonneg_right hlow (by positivity)
      _ = s.significand * 2 ^ f := by ring
  · rw [Scaled.value_eq_div hexponent, zpow_sub₀ (by norm_num), zpow_natCast, zpow_natCast,
      mul_div_assoc', div_le_div_iff₀ hpower hbinade]
    generalize (10 : ℚ) ^ (largestPower + k) = power at *
    calc s.significand * (2 : ℚ) ^ f = 256 * s.significand * (2 ^ f / 256) := by ring
      _ ≤ 297 * 2 ^ e * (2 ^ f / 256) := mul_le_mul_of_nonneg_right hhigh (by positivity)
      _ = 2 ^ e / 2560000 * (297 * 2 ^ f * 10000) := by ring
      _ ≤ 2 ^ e / 2560000 * (256 * 19698 * power) :=
        mul_le_mul_of_nonneg_left habove (by positivity)
      _ = 19698 / 10000 * 2 ^ e * power := by ring

/-- A number that is not near the end of its binade is read back by no more places than this. -/
theorem ReadsNear.readsWithin_of_binade (hread : ReadsNear r s) (h : s.StandsFor m q) {n : Int}
    (hbelow : 65 / 64 * 2 ^ n ≤ s.value) (habove : s.value ≤ 19698 / 10000 * 2 ^ n)
    (hr : r ≤ 1 + 1 / 2 ^ 50) (hplaces : (r - 1) * (197 / 100 * 2 ^ 52) < places) :
    ReadsWithin places m q s := by
  have hunit := two_zpow_pos n
  refine hread.readsWithin_of_span h (fun z m' q' hwithin h' hz =>
    Interval.le_span_of_binade h' hz (?_ : 2 ^ n < z) ?_) hplaces
  · have hless := hwithin.left_le.trans (mul_le_mul_of_nonneg_right hr hwithin.right_pos.le)
    linarith
  · have hless := hwithin.right_le.trans (mul_le_mul_of_nonneg_right hr hwithin.left_pos.le)
    linarith

/-- **Two divisions take the reader no more than two places away** if the second one is by a double
and the first one is normal. -/
theorem Scaled.StandsFor.readsWithin_two_of_few (h : s.StandsFor m q) (hpos : 0 < k) (hk : k ≤ 22)
    (hexponent : s.exponent = -(largestPower + k : Nat)) (hlarge : 3 ≤ s.significand) :
    ReadsWithin 2 m q s := by
  have hkle : k ≤ largestPower := Nat.le_trans hk (by decide)
  have hword := approximates_word h.significand_pos h.significand_lt
  have hpower := approximates_powerOfTen_exact hk
  have hread {r : ℚ} (hr : r ≤ 2)
      (hquotient : Approximates (s.significand.toUInt64.toFloat / powerOfTen largestPower) r
        (s.significand / 10 ^ largestPower)) : ReadsNear (r * 1) s :=
    readsNear_div_div hpos hkle hexponent hword hquotient hpower
      (h.mul_value_lt_overflow (by omega) (by rwa [mul_one]))
  have hbinade (floor e : Nat) (hfloor : leadingBit ≤ floor)
      (hlow : floor * 2 ^ e ≤ 2 ^ 52 * s.significand) (hhigh : s.significand < 2 ^ (e + 1)) :=
    h.approximates_quotient (approximates_word_of_binade h.significand_lt hfloor hlow hhigh.le)
      (Interval.factor_le_roundingFactor hfloor) hlarge
  rcases Nat.lt_or_ge s.significand (2 * leadingBit) with hfew | hmany
  · -- the word is a double
    have hexact := approximates_word_exact h.significand_pos h.significand_lt
      (show s.significand = s.significand * 2 ^ 0 from (Nat.mul_one _).symm) hfew
    refine (hread ?_ (h.approximates_quotient hexact ?_ hlarge)).readsWithin h ?_
    all_goals norm_num [roundingFactor]
  have hne := Nat.ne_of_gt h.significand_pos
  have he : 53 ≤ s.significand.log2 := (Nat.le_log2 hne).mpr hmany
  have hlow := Nat.log2_self_le hne
  have hhigh := Nat.lt_log2_self (n := s.significand)
  generalize s.significand.log2 = e at *
  by_cases hsmall : 64 * s.significand < 71 * 2 ^ e
  · refine (hread ?_ (h.approximates_quotient_of_binade (by omega) hlow hsmall)).readsWithin h ?_
    all_goals norm_num [roundingFactor]
  by_cases hmiddle : 256 * s.significand < 297 * 2 ^ e
  · have hquotient := hbinade (71 * 2 ^ 46) e (by decide) (by omega) hhigh
    obtain ⟨n, hbelow, habove⟩ := Scaled.value_bounds hpos hk hexponent (not_lt.mp hsmall) hmiddle
    refine (hread ?_ hquotient).readsWithin_of_binade h hbelow habove ?_ ?_
    all_goals norm_num [roundingFactor]
  · refine (hread ?_ (hbinade (297 * 2 ^ 44) e (by decide) (by omega) hhigh)).readsWithin h ?_
    all_goals norm_num [roundingFactor]

/-! ### Very small numbers -/

/-- A number in the interval of a double other than zero is not below half of the least one. -/
theorem Scaled.StandsFor.two_zpow_le_value (h : s.StandsFor m q) :
    2 ^ (-1075 : Int) ≤ s.value := by
  have hm := h.pos
  have hlower : 2 ≤ (Interval.ofParts m q).lower := by
    rcases Interval.lower_ofParts_eq m q with ⟨heq, rfl, -⟩ | ⟨heq, -⟩
    · rw [heq]
      decide
    · omega
  have hleast := h.legal.least_le
  rw [leastExponent] at hleast
  calc (2 : ℚ) ^ (-1075 : Int) = 2 * 2 ^ (-1076 : Int) := by
        rw [show (-1075 : Int) = -1076 + 1 from rfl, zpow_add_one₀ (by norm_num), mul_comm]
    _ ≤ (Interval.ofParts m q).lower * 2 ^ (q - 2) :=
        mul_le_mul (by exact_mod_cast hlower) (zpow_le_zpow_right₀ (by norm_num) (by omega))
          (two_zpow_pos _).le (Nat.cast_nonneg _)
    _ ≤ s.value := (Interval.contains_ofParts_iff.mp h.contains).1.1

/-- Digits that are few or far behind the point make no more than a fifth. -/
theorem Scaled.StandsFor.mul_five_le_pow (h : s.StandsFor m q) (hk : 0 < k)
    (hfew : ¬(k ≤ 22 ∧ 3 ≤ s.significand)) : s.significand * 5 ≤ 10 ^ k := by
  have hsize := h.significand_lt
  rw [UInt64.size] at hsize
  rcases Nat.lt_or_ge 22 k with hlarge | hle
  · calc s.significand * 5 ≤ 10 ^ 23 := by omega
      _ ≤ 10 ^ k := Nat.pow_le_pow_right (by decide) hlarge
  · calc s.significand * 5 ≤ 10 ^ 1 := by omega
      _ ≤ 10 ^ k := Nat.pow_le_pow_right (by decide) hk

/-- No power of ten needs more than two steps. -/
theorem Scaled.StandsFor.le_exponent (h : s.StandsFor m q) : -616 ≤ s.exponent := by
  by_contra htiny
  have hpower : (10 : ℚ) ^ s.exponent ≤ 2 ^ (-1139 : Int) := by
    have hbits : ((2 ^ 1139 : Nat) : ℚ) ≤ ((10 ^ 343 : Nat) : ℚ) :=
      Nat.cast_le.mpr (pow_two_le_pow_ten (by decide))
    rw [Nat.cast_pow, Nat.cast_pow, Nat.cast_ofNat, Nat.cast_ofNat] at hbits
    calc (10 : ℚ) ^ s.exponent ≤ 10 ^ (-(343 : Nat) : Int) :=
          zpow_le_zpow_right₀ (by norm_num) (by omega)
      _ ≤ 2 ^ (-(1139 : Nat) : Int) := by
        rw [zpow_neg, zpow_neg, zpow_natCast, zpow_natCast]
        exact inv_anti₀ (by positivity) hbits
  have hdigits : (s.significand : ℚ) < 2 ^ 64 := by exact_mod_cast h.significand_lt
  have hless : s.value < 2 ^ (-1075 : Int) := calc
    s.value ≤ s.significand * 2 ^ (-1139 : Int) :=
      mul_le_mul_of_nonneg_left hpower (Nat.cast_nonneg _)
    _ < 2 ^ 64 * 2 ^ (-1139 : Int) := mul_lt_mul_of_pos_right hdigits (two_zpow_pos _)
    _ = 2 ^ (-1075 : Int) := by
      rw [← zpow_natCast, ← zpow_add₀ (by norm_num)]
      rfl
  exact absurd h.two_zpow_le_value (not_le.mpr hless)

/-- Digits that make no more than a fifth of the largest negative power of ten make few places of
the least double. -/
theorem mul_value_le_places (hr : r ≤ 5 / 4)
    (hexponent : s.exponent = -(largestPower + k : Nat)) (h : s.significand * 5 ≤ 10 ^ k) :
    r * s.value ≤ 2 ^ 49 * 2 ^ leastExponent := by
  have hfifth : (s.significand : ℚ) / 10 ^ k ≤ 1 / 5 := by
    rw [div_le_div_iff₀ (by positivity) (by norm_num), one_mul]
    exact_mod_cast h
  have hpos : 0 ≤ (s.significand : ℚ) / 10 ^ k := by positivity
  have hvalue : s.value = s.significand / 10 ^ k / 10 ^ largestPower := by
    rw [Scaled.value_eq_div hexponent, pow_add, div_div, mul_comm]
  have hquotient := hvalue ▸ (div_largestPower_bounds hpos).2
  have hunit := two_zpow_pos (-1023)
  have hplaces : (2 : ℚ) ^ 49 * 2 ^ leastExponent = 1 / 4 * 2 ^ (-1023 : Int) := by
    rw [leastExponent, ← zpow_natCast, ← zpow_add₀ (by norm_num),
      show ((49 : Nat) + -1074 : Int) = -2 + -1023 from rfl, zpow_add₀ (by norm_num)]
    norm_num
  rw [hplaces]
  calc r * s.value ≤ 5 / 4 * (80 / 89 * (s.significand / 10 ^ k) * 2 ^ (-1023 : Int)) :=
        mul_le_mul hr hquotient (hvalue ▸ by positivity) (by norm_num)
    _ ≤ 5 / 4 * (80 / 89 * (1 / 5) * 2 ^ (-1023 : Int)) := by gcongr
    _ ≤ 1 / 4 * 2 ^ (-1023 : Int) := by linarith

/-- **Two steps take the reader no more than two places away.** -/
theorem Scaled.StandsFor.readsWithin_two_of_lt (h : s.StandsFor m q)
    (hexponent : s.exponent < -308) : ReadsWithin 2 m q s := by
  have hleast := h.le_exponent
  obtain ⟨k, hk⟩ : ∃ k : Nat, s.exponent = -(largestPower + k : Nat) :=
    ⟨(-308 - s.exponent).toNat, by rw [largestPower]; omega⟩
  obtain ⟨hkpos, hkle⟩ : 0 < k ∧ k ≤ largestPower := by
    rw [largestPower] at *
    omega
  by_cases hfew : k ≤ 22 ∧ 3 ≤ s.significand
  · exact h.readsWithin_two_of_few hkpos hfew.1 hk hfew.2
  · -- the number is so small that a factor hardly matters
    refine (readsNear_div_div hkpos hkle hk (approximates_word h.significand_pos h.significand_lt)
      h.approximates_quotient_coarse (approximates_powerOfTen hkle)
      (h.mul_value_lt_overflow (by omega) ?_)).readsWithin_of_small h
      (mul_value_le_places ?_ hk (h.mul_five_le_pow hkpos hfew)) (by positivity) ?_
    all_goals norm_num [roundingFactor, coarseFactor]

/-! ## The digits of a double -/

/-- The last three doubles are so near to the overflow that nothing but the calculation itself tells
on which side of it they are read. -/
theorem readsWithin_greatest (hlt : m < 2 * leadingBit) (hgreat : 2 * leadingBit ≤ m + 3) :
    ReadsWithin 2 m 971 (collected (.shortest .even m 971)) := by
  have hcases : m = 2 * leadingBit - 1 ∨ m = 2 * leadingBit - 2 ∨ m = 2 * leadingBit - 3 := by omega
  rcases hcases with rfl | rfl | rfl
  · exact ⟨.ofBits 0x7fefffffffffffff, 2 * leadingBit - 1, 971, by decide +kernel,
      by decide +kernel, by decide, by decide⟩
  · exact ⟨.ofBits 0x7fefffffffffffff, 2 * leadingBit - 1, 971, by decide +kernel,
      by decide +kernel, by decide, by decide⟩
  · exact ⟨.ofBits 0x7feffffffffffffd, 2 * leadingBit - 3, 971, by decide +kernel,
      by decide +kernel, by decide, by decide⟩

/-- Other doubles leave room for the errors of one step. -/
theorem Scaled.StandsFor.mul_lt_overflow_of_room (h : s.StandsFor m q)
    (hroom : q < 971 ∨ m + 4 ≤ 2 * leadingBit) :
    roundingFactor * roundingFactor * s.value < overflow := by
  have hupper := (Interval.contains_ofParts_iff.mp h.contains).1.2
  have hunit := two_zpow_pos 969
  suffices hvalue : s.value ≤ (8 * leadingBit - 14) * 2 ^ (969 : Int) by
    calc roundingFactor * roundingFactor * s.value
        ≤ roundingFactor * roundingFactor * ((8 * leadingBit - 14) * 2 ^ (969 : Int)) :=
          mul_le_mul_of_nonneg_left hvalue (by norm_num [roundingFactor])
      _ = roundingFactor * roundingFactor * (8 * leadingBit - 14) * 2 ^ (969 : Int) :=
          (mul_assoc ..).symm
      _ < overflow :=
          mul_lt_mul_of_pos_right (by norm_num [roundingFactor, leadingBit]) hunit
  refine hupper.trans ?_
  rcases hroom with hq | hm
  · have hm : (4 * m + 2 : ℚ) ≤ 8 * leadingBit := by
      exact_mod_cast (by have := h.legal.lt; omega : 4 * m + 2 ≤ 8 * leadingBit)
    calc (4 * m + 2) * (2 : ℚ) ^ (q - 2) ≤ 8 * leadingBit * 2 ^ (968 : Int) :=
          mul_le_mul hm (zpow_le_zpow_right₀ (by norm_num) (by omega)) (two_zpow_pos _).le
            (by norm_num [leadingBit])
      _ = 4 * leadingBit * 2 ^ (969 : Int) := by
        rw [show (969 : Int) = 968 + 1 from rfl, zpow_add_one₀ (by norm_num)]
        generalize (2 : ℚ) ^ (968 : Int) = unit
        ring
      _ ≤ (8 * leadingBit - 14) * 2 ^ (969 : Int) :=
        mul_le_mul_of_nonneg_right (by norm_num [leadingBit]) hunit.le
  · have hm : (4 * m + 2 : ℚ) ≤ 8 * leadingBit - 14 := by
      have hcast : ((m + 4 : Nat) : ℚ) ≤ ((2 * leadingBit : Nat) : ℚ) := Nat.cast_le.mpr hm
      push_cast at hcast
      linarith
    have hgreatest := h.legal.le_greatest
    exact mul_le_mul hm (zpow_le_zpow_right₀ (by norm_num) (by omega)) (two_zpow_pos _).le
      (by norm_num [leadingBit])

/-- Zero is read as zero. -/
theorem readsWithin_collected_zero (h : Legal 0 q) :
    ReadsWithin 0 0 q (collected (.shortest .even 0 q)) := by
  have hq : q = leastExponent := by
    by_contra hne
    exact absurd (h.leading_le (lt_of_le_of_ne h.least_le (Ne.symm hne))) (by decide)
  subst hq
  exact ⟨0, 0, leastExponent, by decide +kernel, by decide +kernel, by decide, by decide⟩

/-- **The digits of a double are read as one of its neighbours.** The reader ends no more than two
places away, and nowhere else if its steps are exact. -/
theorem readsWithin_collected (h : Legal m q) (hs : collected (.shortest .even m q) = s) :
    ReadsWithin 2 m q s
      ∧ ∀ digits zeros, s.significand = digits * 2 ^ zeros → digits < 2 * leadingBit →
        s.exponent.natAbs ≤ 22 → ReadsWithin 0 m q s := by
  rcases Nat.eq_zero_or_pos m with rfl | hm
  · have hzero := hs ▸ readsWithin_collected_zero h
    exact ⟨hzero.mono (Nat.zero_le 2), fun _ _ _ _ _ => hzero⟩
  · have hstands : s.StandsFor m q := hs ▸ standsFor_collected h hm
    refine ⟨?_, fun digits zeros => hstands.readsWithin_zero⟩
    rcases Int.lt_or_le s.exponent (-308) with hlow | hhigh
    · exact hstands.readsWithin_two_of_lt hlow
    · by_cases hgreat : q = 971 ∧ 2 * leadingBit ≤ m + 3
      · obtain ⟨rfl, hgreat⟩ := hgreat
        exact hs ▸ readsWithin_greatest h.lt hgreat
      · have hq := h.le_greatest
        exact hstands.readsWithin_two (hstands.mul_lt_overflow_of_room (by omega)) hhigh

theorem negative_ofDecimal (negative : Bool) (d : Decimal) :
    (ofDecimal negative d).negative = negative := by
  unfold ofDecimal
  dsimp only
  split
  · split <;> rfl
  · rfl

/-- **The reader collects the shortest decimal of a double in full.** -/
theorem scaled_shortest (negative : Bool) (h : Legal m q) :
    (ofDecimal negative (.shortest .even m q)).scaled = collected (.shortest .even m q) := by
  refine scaled_ofDecimal negative (significand_collected_lt ?_)
  rcases Nat.eq_zero_or_pos m with rfl | hm
  · exact (show 0 < UInt64.size by decide)
  · exact (Decimal.shortest_spec .even h hm).2

/-- **The literal of a double**: its sign, and what the reader collects from it. -/
theorem exists_ofFloat?_eq {negative : Bool} (h : ofFloat x = .finite negative m q) :
    ∃ n, ofFloat? x = some n ∧ n.negative = negative
      ∧ n.scaled = collected (.shortest .even m q) := by
  refine ⟨ofDecimal negative (.shortest .even m q), ?_, negative_ofDecimal .., ?_⟩
  · rw [ofFloat?, h]
  · exact scaled_shortest negative (toNat_toBits_of_ofFloat h).2

/-- A reader that ends near the parts of a double reads a number of either sign near the double. -/
theorem ReadsWithin.exists_toFloat?_eq {n : NumberLiteral} (hx : ofFloat x = .finite n.negative m q)
    (h : ReadsWithin places m q n.scaled) :
    ∃ y, n.toFloat? = some y ∧ y.isFinite = true
      ∧ ((y.toBits.toNat : Int) - x.toBits.toNat).natAbs ≤ places := by
  obtain ⟨y, m', q', hy, hparts, habove, hbelow⟩ := h
  have hresult : ∃ z, n.toFloat? = some z ∧ ofFloat z = .finite n.negative m' q' := by
    rw [toFloat?, hy, Option.map_some]
    cases n.negative
    · exact ⟨y, rfl, hparts⟩
    · exact ⟨-y, rfl, ofFloat_neg hparts⟩
  obtain ⟨z, hz, hparts⟩ := hresult
  refine ⟨z, hz, (isFinite_iff z).mpr ⟨_, _, _, hparts⟩, ?_⟩
  rw [(toNat_toBits_of_ofFloat hparts).1, (toNat_toBits_of_ofFloat hx).1]
  omega

/-- **A natural number below `2 ^ 53` is collected with the zero after its point.** -/
theorem exists_collected_natural {n : Nat} (h : n < 2 * leadingBit) :
    ∃ m q, ofFloat n.toUInt64.toFloat = .finite false m q
      ∧ collected (.shortest .even m q) = ⟨10 * n, -1⟩ := by
  rcases Nat.eq_zero_or_pos n with rfl | hpos
  · exact ⟨0, leastExponent, by decide +kernel, by decide +kernel⟩
  · refine ⟨_, _, ofFloat_natural hpos h, ?_⟩
    obtain ⟨j, hshortest, hdvd⟩ := Decimal.shortest_natural .even hpos h
    have hwhole : 0 < n / 10 ^ j :=
      Nat.div_pos (Nat.le_of_dvd hpos hdvd) (Nat.pow_pos (by decide))
    have hdigits := congrArg List.length (Decimal.toDigits_mul_pow hwhole j)
    rw [Nat.div_mul_cancel hdvd, List.length_append, List.length_replicate] at hdigits
    have hfew : (Nat.toDigits 10 n).length ≤ 16 :=
      (Nat.length_toDigits_le_iff (by decide) (by decide)).mpr (Nat.lt_trans h (by decide))
    have hpositional : isPositional (Decimal.leadingExponent ⟨n / 10 ^ j, j⟩) = true := by
      have hleading : Decimal.leadingExponent ⟨n / 10 ^ j, j⟩ = (Nat.toDigits 10 n).length - 1 := by
        show (j : Int) + (Nat.toDigits 10 (n / 10 ^ j)).length - 1 = _
        omega
      rw [isPositional, hleading, Bool.and_eq_true, decide_eq_true_eq, decide_eq_true_eq]
      omega
    rw [hshortest, collected, if_pos ⟨hpositional, Int.natCast_nonneg j⟩, Int.toNat_natCast,
      Nat.pow_succ, Nat.mul_right_comm, Nat.mul_div_cancel' hdvd, Nat.mul_comm]

/-- So is its negative. -/
theorem scaled_natural {n : NumberLiteral} {k : Nat} (hn : ofFloat? x = some n)
    (hk : k < 2 * leadingBit) (hx : x = k.toUInt64.toFloat ∨ x = -k.toUInt64.toFloat) :
    n.scaled = ⟨10 * k, -1⟩ := by
  obtain ⟨m, q, hnatural, hcollected⟩ := exists_collected_natural hk
  obtain ⟨negative, hparts⟩ : ∃ negative, ofFloat x = .finite negative m q := by
    rcases hx with rfl | rfl
    · exact ⟨false, hnatural⟩
    · exact ⟨true, ofFloat_neg hnatural⟩
  obtain ⟨n', hn', -, hscaled⟩ := exists_ofFloat?_eq hparts
  rw [Option.some.inj (hn.symm.trans hn'), hscaled, hcollected]

end NumberLiteral

end AgentSweep
