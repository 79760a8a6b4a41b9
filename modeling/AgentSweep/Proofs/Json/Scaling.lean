import AgentSweep.Proofs.Decimal.RelativeErrors
import AgentSweep.Proofs.Decimal.ShortestDigits
import AgentSweep.Proofs.Json.Significands

/-!
# How a reader scales what it has collected

A reader that has collected the digits of a double converts them to a double, and multiplies or
divides it by a power of ten, which is a double too. Each of the two is changed by no more than the
rounding factor. The number that is rounded last is as near to the digits as these factors say
(`ReadsNear`), and what it is rounded to is as many doubles away from the one that was written
(`ReadsWithin`). In one step the reader gets no more than two doubles away
(`Scaled.StandsFor.readsWithin_two`), and nowhere else if nothing is rounded
(`Scaled.StandsFor.readsWithin_zero`).
-/

namespace AgentSweep

open Binary64

variable {x y : Float} {r r' r'' : ℚ}

/-! ## Finite doubles -/

namespace Binary64

theorem isInf_eq_false {negative : Bool} {m : Nat} {q : Int}
    (h : ofFloat x = .finite negative m q) : x.isInf = false := by
  show x.toModel.unpack.isInf = false
  rw [unpack_of_ofFloat h]
  rcases Nat.eq_zero_or_pos m with rfl | hm
  · rfl
  · rw [unpacked_of_pos hm rfl rfl]
    rfl

/-- A change of sign changes nothing else. -/
theorem ofFloat_neg {negative : Bool} {m : Nat} {q : Int} (h : ofFloat x = .finite negative m q) :
    ofFloat (-x) = .finite (!negative) m q := by
  have hneg : -x = .ofModel (Float.Model.pack (unpacked (signOf !negative) m q)) := by
    show Float.ofModel (Float.Model.pack x.toModel.unpack.neg) = _
    rw [unpack_of_ofFloat h]
    rcases Nat.eq_zero_or_pos m with rfl | hm
    · cases negative <;> rfl
    · rw [unpacked_of_pos hm rfl rfl, unpacked_of_pos hm rfl rfl]
      cases negative <;> rfl
  rw [hneg]
  exact ofFloat_pack _ (toNat_toBits_of_ofFloat h).2

/-- A double that stands for a positive number is not zero. -/
theorem Approximates.beq_zero {v : ℚ} (h : Approximates x r v) : (x == 0) = false := by
  obtain ⟨m, q, hparts, hv⟩ := h
  have hzero : ofFloat 0 = .finite false 0 leastExponent := by decide +kernel
  show x.toModel.unpack.beq (0 : Float).toModel.unpack = false
  rw [unpack_of_ofFloat hparts, unpack_of_ofFloat hzero,
    unpacked_of_pos (pos_of_value hv.right_pos) rfl rfl]
  rfl

end Binary64

namespace NumberLiteral

variable {s : Scaled} {k m : Nat} {q : Int}

/-! ## What the reader begins with -/

/-- The number that a significand and a power of ten make. -/
def Scaled.value (s : Scaled) : ℚ := s.significand * 10 ^ s.exponent

/-- A negative power of ten divides. -/
theorem Scaled.value_eq_div (hexponent : s.exponent = -k) :
    s.value = s.significand / 10 ^ k := by
  rw [Scaled.value, hexponent, zpow_neg, zpow_natCast, div_eq_mul_inv]

/-- **What has been collected stands for a double** other than zero: it lies in the interval of the
double, and its significand is a word. -/
structure Scaled.StandsFor (s : Scaled) (m : Nat) (q : Int) : Prop where
  legal : Legal m q
  pos : 0 < m
  contains : (Interval.ofParts m q).Contains s.value
  significand_pos : 0 < s.significand
  significand_lt : s.significand < UInt64.size

/-- **What a reader collects from the shortest decimal of a double stands for the double.** -/
theorem standsFor_collected (h : Legal m q) (hm : 0 < m) :
    (collected (.shortest .even m q)).StandsFor m q := by
  obtain ⟨hcontains, hroom⟩ := Decimal.shortest_spec .even h hm
  rw [← collected_value] at hcontains
  exact ⟨h, hm, hcontains, significand_collected_pos
    (Decimal.digits_shortest_pos .even hm h.lt h.least_le h.le_greatest),
    significand_collected_lt hroom⟩

theorem approximates_word {n : Nat} (hpos : 0 < n) (hsize : n < UInt64.size) :
    Approximates n.toUInt64.toFloat roundingFactor n := by
  refine (nearest_natural hpos hsize).approximates (le_trans ?_ (Nat.one_le_cast.mpr hpos))
  exact zpow_le_one_of_nonpos₀ (by norm_num) (by norm_num)

theorem approximates_powerOfTen (h : k ≤ 308) :
    Approximates (powerOfTen k) roundingFactor (10 ^ k) := by
  refine (nearest_ofScientific h).approximates (le_trans ?_ (one_le_pow₀ (by norm_num)))
  exact zpow_le_one_of_nonpos₀ (by norm_num) (by norm_num)

/-- The powers of ten up to the 22nd are doubles. -/
theorem approximates_powerOfTen_exact (h : k ≤ 22) : Approximates (powerOfTen k) 1 (10 ^ k) := by
  have hpower : (10 : ℚ) ^ k = (5 ^ k : Nat) * 2 ^ k := by
    rw [Nat.cast_pow, ← mul_pow]
    norm_num
  have hnearest := nearest_ofScientific (k := k) (by omega)
  rw [hpower] at hnearest ⊢
  refine hnearest.approximates_exact (Nat.pow_pos (by decide)) ?_ (by omega)
  calc 5 ^ k ≤ 5 ^ 22 := Nat.pow_le_pow_right (by decide) h
    _ < 2 * leadingBit := by decide

/-- The largest power of ten happens to be very near to a double. -/
theorem approximates_largestPower :
    Approximates (powerOfTen largestPower) (1 + 1 / 2 ^ 56) (10 ^ largestPower) := by
  have hbelow : 2 ^ 56 * 10 ^ largestPower ≤ (2 ^ 56 + 1) * (5010420900022432 * 2 ^ 971) := by
    decide +kernel
  have habove : 2 ^ 56 * (5010420900022432 * 2 ^ 971) ≤ (2 ^ 56 + 1) * 10 ^ largestPower := by
    decide +kernel
  rw [← Nat.cast_le (α := ℚ)] at hbelow habove
  simp only [Nat.cast_mul, Nat.cast_add, Nat.cast_pow, Nat.cast_ofNat, Nat.cast_one]
    at hbelow habove
  refine ⟨5010420900022432, 971, by decide +kernel, ?_⟩
  rw [value, show (971 : Int) = (971 : Nat) from rfl, zpow_natCast, Nat.cast_ofNat]
  have hpower : (0 : ℚ) < 2 ^ 971 := by positivity
  have hten : (0 : ℚ) < 10 ^ largestPower := by positivity
  generalize (2 : ℚ) ^ 971 = power at *
  generalize (10 : ℚ) ^ 308 = ten at *
  exact ⟨hten, by linarith, by linarith, by linarith⟩

/-! ## Applying the power of ten -/

/-- **The reader ends with the double nearest to a number** that is within a factor of the one that
it has collected. -/
def ReadsNear (r : ℚ) (s : Scaled) : Prop :=
  ∃ y z, applyPower? s.significand.toUInt64.toFloat s.exponent = some y
    ∧ Nearest y z ∧ Within r s.value z

/-- A power of ten from one on is multiplied by. -/
theorem readsNear_mul (hk : k ≤ largestPower) (hexponent : s.exponent = k)
    (hs : Approximates s.significand.toUInt64.toFloat r s.significand)
    (hpower : Approximates (powerOfTen k) r' (10 ^ k)) (hsmall : r * r' * s.value < overflow) :
    ReadsNear (r * r') s := by
  have hvalue : s.value = s.significand * 10 ^ k := by
    rw [Scaled.value, hexponent, zpow_natCast]
  rw [hvalue] at hsmall
  obtain ⟨z, hnearest, hwithin⟩ := hs.mul hpower hsmall
  refine ⟨_, z, ?_, hnearest, hvalue ▸ hwithin⟩
  obtain ⟨m, q, hparts, -⟩ := hnearest
  rw [applyPower?, hexponent, Int.natAbs_natCast, if_pos hk, if_pos (Int.natCast_nonneg k)]
  dsimp only
  rw [isInf_eq_false hparts, if_neg Bool.false_ne_true]

/-- A power of ten below one is divided by. -/
theorem readsNear_div (hpos : 0 < k) (hk : k ≤ largestPower) (hexponent : s.exponent = -k)
    (hs : Approximates s.significand.toUInt64.toFloat r s.significand)
    (hpower : Approximates (powerOfTen k) r' (10 ^ k)) (hsmall : r * r' * s.value < overflow) :
    ReadsNear (r * r') s := by
  have hvalue := Scaled.value_eq_div hexponent
  rw [hvalue] at hsmall
  obtain ⟨z, hnearest, hwithin⟩ := hs.div hpower hsmall
  refine ⟨_, z, ?_, hnearest, hvalue ▸ hwithin⟩
  rw [applyPower?, hexponent, Int.natAbs_neg, Int.natAbs_natCast, if_pos hk, if_neg (by omega)]

/-- A power of ten below `10 ^ -308` is divided by in two steps. -/
theorem readsNear_div_div (hpos : 0 < k) (hk : k ≤ largestPower)
    (hexponent : s.exponent = -(largestPower + k : Nat))
    (hs : Approximates s.significand.toUInt64.toFloat r'' s.significand)
    (hquotient : Approximates (s.significand.toUInt64.toFloat / powerOfTen largestPower) r
      (s.significand / 10 ^ largestPower))
    (hpower : Approximates (powerOfTen k) r' (10 ^ k)) (hsmall : r * r' * s.value < overflow) :
    ReadsNear (r * r') s := by
  have hvalue := Scaled.value_eq_div hexponent
  rw [pow_add, ← div_div] at hvalue
  rw [hvalue] at hsmall
  obtain ⟨z, hnearest, hwithin⟩ := hquotient.div hpower hsmall
  refine ⟨_, z, ?_, hnearest, hvalue ▸ hwithin⟩
  have hlarge : ¬ s.exponent.natAbs ≤ largestPower := by omega
  have hrest : s.exponent + (largestPower : Nat) = -(k : Int) := by omega
  rw [applyPower?, if_neg hlarge, if_neg (by rw [hs.beq_zero]; exact Bool.false_ne_true),
    if_neg (by omega), hrest, applyPower?, Int.natAbs_neg, Int.natAbs_natCast, if_pos hk,
    if_neg (by omega)]

/-! ## How far from the written double -/

variable {places : Nat}

/-- **The reader ends with a double** that is no more than some places away from the one with the
given parts. -/
def ReadsWithin (places m : Nat) (q : Int) (s : Scaled) : Prop :=
  ∃ y m' q', applyPower? s.significand.toUInt64.toFloat s.exponent = some y
    ∧ ofFloat y = .finite false m' q'
    ∧ place m' q' ≤ place m q + places ∧ place m q ≤ place m' q' + places

theorem ReadsWithin.mono {more : Nat} (h : ReadsWithin places m q s) (hle : places ≤ more) :
    ReadsWithin more m q s := by
  obtain ⟨y, m', q', hy, hparts, habove, hbelow⟩ := h
  exact ⟨y, m', q', hy, hparts, by omega, by omega⟩

/-- The factor of a calculation bounds how far the reader ends from the written double, if neither
is many places of its own. -/
theorem ReadsNear.readsWithin_of_span {span : ℚ} (hread : ReadsNear r s) (h : s.StandsFor m q)
    (hspan : ∀ z m' q', Within r s.value z → Legal m' q' → (Interval.ofParts m' q').Contains z →
      z ≤ span * 2 ^ q') (hr : (r - 1) * span < places) : ReadsWithin places m q s := by
  obtain ⟨y, z, hy, ⟨m', q', hparts, hz⟩, hwithin⟩ := hread
  have h' := (toNat_toBits_of_ofFloat hparts).2
  have hself : Within r s.value s.value := (Within.refl hwithin.left_pos).mono hwithin.one_le
  have hle := hspan _ _ _ hself h.legal h.contains
  have hle' := hspan _ _ _ hwithin h' hz
  exact ⟨y, m', q', hy, hparts, Interval.place_le_add h.legal h' h.contains hz hwithin hle hr,
    Interval.place_le_add h' h.legal hz h.contains hwithin.symm hle' hr⟩

/-- No double is `2 ^ 53` places. -/
theorem ReadsNear.readsWithin (hread : ReadsNear r s) (h : s.StandsFor m q)
    (hr : (r - 1) * (2 ^ 53 - 1 / 2) < places) : ReadsWithin places m q s :=
  hread.readsWithin_of_span h (fun _ _ _ _ h' hz => Interval.le_span h' hz) hr

/-- The smaller a number is, the less a factor changes. -/
theorem ReadsNear.readsWithin_of_small {span : ℚ} (hread : ReadsNear r s) (h : s.StandsFor m q)
    (hsmall : r * s.value ≤ span * 2 ^ leastExponent) (hspan : 0 ≤ span)
    (hr : (r - 1) * span < places) : ReadsWithin places m q s :=
  hread.readsWithin_of_span h (fun _ _ _ hwithin h' _ =>
    (hwithin.right_le.trans hsmall).trans
      (mul_le_mul_of_nonneg_left (zpow_le_zpow_right₀ (by norm_num) h'.least_le) hspan)) hr

/-- Nothing that has room in a word is too large. -/
theorem mul_lt_overflow {v : ℚ} (hr : r ≤ 2) (hpos : 0 ≤ v) (hv : v ≤ UInt64.size) :
    r * v < overflow := calc
  r * v ≤ 2 * UInt64.size := mul_le_mul hr hv hpos (by norm_num)
  _ < 10 ^ 20 := by norm_num [UInt64.size]
  _ < overflow := ten_pow_lt_overflow (by decide)

/-- Digits that are not scaled up make no number that is too large. -/
theorem Scaled.StandsFor.mul_value_lt_overflow (h : s.StandsFor m q) (hexponent : s.exponent ≤ 0)
    (hr : r ≤ 2) : r * s.value < overflow := by
  have hpower : (10 : ℚ) ^ s.exponent ≤ 1 := zpow_le_one_of_nonpos₀ (by norm_num) hexponent
  have hdigits : (0 : ℚ) ≤ s.significand := Nat.cast_nonneg _
  exact mul_lt_overflow hr (mul_nonneg hdigits (ten_zpow_pos _).le)
    ((mul_le_of_le_one_right hdigits hpower).trans (Nat.cast_le.mpr h.significand_lt.le))

/-- No power of ten beyond the largest one comes into play. -/
theorem Scaled.StandsFor.exponent_le (h : s.StandsFor m q) (hsmall : s.value < overflow) :
    s.exponent ≤ largestPower := by
  by_contra hlarge
  have hdigits : (1 : ℚ) ≤ s.significand := Nat.one_le_cast.mpr h.significand_pos
  have hten : overflow ≤ 10 ^ 309 := calc
    overflow ≤ 2 ^ 55 * 2 ^ (969 : Int) := by
      refine mul_le_mul_of_nonneg_right ?_ (two_zpow_pos _).le
      norm_num [leadingBit]
    _ = ((2 ^ 1024 : Nat) : ℚ) := by
      rw [Nat.cast_pow, Nat.cast_ofNat, ← zpow_natCast, ← zpow_natCast, ← zpow_add₀ (by norm_num)]
      rfl
    _ ≤ ((10 ^ 309 : Nat) : ℚ) := Nat.cast_le.mpr (pow_two_le_pow_ten (by decide))
    _ = 10 ^ 309 := by rw [Nat.cast_pow, Nat.cast_ofNat]
  have hpower : (10 : ℚ) ^ 309 ≤ 10 ^ s.exponent := by
    rw [← zpow_natCast]
    exact zpow_le_zpow_right₀ (by norm_num) (by rw [largestPower] at hlarge; omega)
  have hvalue : (10 : ℚ) ^ s.exponent ≤ s.value :=
    le_mul_of_one_le_left (ten_zpow_pos _).le hdigits
  exact absurd (hten.trans (hpower.trans hvalue)) (not_le.mpr hsmall)

/-! ## One step -/

/-- **One step takes the reader no more than two places away.** -/
theorem Scaled.StandsFor.readsWithin_two (h : s.StandsFor m q)
    (hroom : roundingFactor * roundingFactor * s.value < overflow)
    (hexponent : -308 ≤ s.exponent) : ReadsWithin 2 m q s := by
  have hs := approximates_word h.significand_pos h.significand_lt
  have hfactor : (roundingFactor * roundingFactor - 1) * (2 ^ 53 - 1 / 2) < (2 : Nat) := by
    norm_num [roundingFactor]
  rcases Int.lt_or_le s.exponent 0 with hneg | hnonneg
  · obtain ⟨k, hk⟩ : ∃ k : Nat, s.exponent = -k := ⟨s.exponent.natAbs, by omega⟩
    exact (readsNear_div (by omega) (by rw [largestPower]; omega) hk hs
      (approximates_powerOfTen (by omega)) hroom).readsWithin h hfactor
  · obtain ⟨k, hk⟩ := Int.eq_ofNat_of_zero_le hnonneg
    have hvalue : 0 ≤ s.value := mul_nonneg (Nat.cast_nonneg _) (ten_zpow_pos _).le
    have hless : s.value < overflow := lt_of_le_of_lt
      (le_mul_of_one_le_left hvalue (by norm_num [roundingFactor])) hroom
    have hlarge := h.exponent_le hless
    rw [hk, Int.ofNat_le] at hlarge
    exact (readsNear_mul hlarge hk hs (approximates_powerOfTen hlarge) hroom).readsWithin h
      hfactor

/-! ## No rounding at all -/

/-- Nothing but the written double is nearest to its digits. -/
theorem ReadsNear.readsWithin_zero (hread : ReadsNear 1 s) (h : s.StandsFor m q) :
    ReadsWithin 0 m q s := by
  obtain ⟨y, z, hy, ⟨m', q', hparts, hz⟩, hwithin⟩ := hread
  rw [← hwithin.eq_of_one] at hz
  obtain ⟨hm, hq⟩ := Interval.parts_unique h.legal (toNat_toBits_of_ofFloat hparts).2 h.contains hz
  have hplace : place m q = place m' q' := by rw [hm, hq]
  exact ⟨y, m', q', hy, hparts, by omega, by omega⟩

/-- A word of at most 53 binary digits, whatever zeros follow them, is a double. -/
theorem approximates_word_exact {n digits zeros : Nat} (hpos : 0 < n) (hsize : n < UInt64.size)
    (hn : n = digits * 2 ^ zeros) (hdigits : digits < 2 * leadingBit) :
    Approximates n.toUInt64.toFloat 1 n := by
  have hnearest := nearest_natural hpos hsize
  have hcast : (n : ℚ) = digits * 2 ^ zeros := by exact_mod_cast hn
  rw [hcast] at hnearest ⊢
  have hdigitsPos : 0 < digits := by
    by_contra hzero
    rw [Nat.eq_zero_of_not_pos hzero, Nat.zero_mul] at hn
    exact absurd hpos (Nat.not_lt_of_le hn.le)
  have hzeros : zeros < 64 := by
    refine (Nat.pow_lt_pow_iff_right (by decide : 1 < 2)).mp ?_
    exact lt_of_le_of_lt (hn ▸ Nat.le_mul_of_pos_left _ hdigitsPos) hsize
  exact hnearest.approximates_exact hdigitsPos hdigits (by omega)

/-- **If all steps are exact the reader ends with the written double.** -/
theorem Scaled.StandsFor.readsWithin_zero {digits zeros : Nat} (h : s.StandsFor m q)
    (hs : s.significand = digits * 2 ^ zeros) (hdigits : digits < 2 * leadingBit)
    (hexponent : s.exponent.natAbs ≤ 22) : ReadsWithin 0 m q s := by
  have hexact := approximates_word_exact h.significand_pos h.significand_lt hs hdigits
  suffices hread : ReadsNear (1 * 1) s from ReadsNear.readsWithin_zero (one_mul (1 : ℚ) ▸ hread) h
  rcases Int.lt_or_le s.exponent 0 with hneg | hnonneg
  · obtain ⟨k, hk⟩ : ∃ k : Nat, s.exponent = -k := ⟨s.exponent.natAbs, by omega⟩
    exact readsNear_div (by omega) (by rw [largestPower]; omega) hk hexact
      (approximates_powerOfTen_exact (by omega)) (h.mul_value_lt_overflow hneg.le (by norm_num))
  · obtain ⟨k, hk⟩ := Int.eq_ofNat_of_zero_le hnonneg
    refine readsNear_mul (by rw [largestPower]; omega) hk hexact
      (approximates_powerOfTen_exact (by omega)) ?_
    calc (1 * 1 : ℚ) * s.value = s.significand * 10 ^ k := by
          rw [Scaled.value, hk, zpow_natCast, one_mul, one_mul]
      _ ≤ 10 ^ 20 * 10 ^ 22 := by
        refine mul_le_mul ?_ (pow_le_pow_right₀ (by norm_num) (by omega)) (by positivity)
          (by norm_num)
        exact_mod_cast h.significand_lt.le.trans (by decide)
      _ = 10 ^ 42 := (pow_add ..).symm
      _ < overflow := ten_pow_lt_overflow (by decide)

end NumberLiteral

end AgentSweep
