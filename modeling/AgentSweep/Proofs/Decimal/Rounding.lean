import Mathlib.Tactic.LinearCombination
import AgentSweep.Proofs.Decimal.Intervals

/-!
# Rounding to a double

A conversion, a product and a quotient are calculated exactly and then rounded. The result that is
rounded is a fraction, of which the whole part is kept, and two bits that tell how the rest compares
with a half (`Describes`). Shifting the whole part to the right keeps this up, so that the result is
the double in whose interval the fraction lies (`exists_roundWithAccuracy_eq`).

Whether a double is the nearest one to a number is thus a matter of its interval (`Nearest`). The
product and the quotient of two doubles are nearest to the product and the quotient of their numbers
(`nearest_mul`, `nearest_div`), as long as these stay below the overflow. So are a word that is
converted to a double (`nearest_natural`) and a power of ten (`nearest_ofScientific`).
-/

namespace AgentSweep

namespace Binary64

open Float.Model UnpackedFloat

/-! ## Rounding a fraction to a natural number -/

theorem accuracyOfFraction_of_lt {rest den : Nat} (hpos : 0 < rest) (h : 2 * rest < den) :
    accuracyOfFraction rest den = .inexact .lt := by
  rw [accuracyOfFraction, if_neg (Nat.ne_of_gt hpos), Nat.compare_eq_lt.mpr h]

theorem accuracyOfFraction_of_eq {rest den : Nat} (hpos : 0 < rest) (h : 2 * rest = den) :
    accuracyOfFraction rest den = .inexact .eq := by
  rw [accuracyOfFraction, if_neg (Nat.ne_of_gt hpos), Nat.compare_eq_eq.mpr h]

theorem accuracyOfFraction_of_gt {rest den : Nat} (hpos : 0 < rest) (h : den < 2 * rest) :
    accuracyOfFraction rest den = .inexact .gt := by
  rw [accuracyOfFraction, if_neg (Nat.ne_of_gt hpos), Nat.compare_eq_gt.mpr h]

/-- **The natural number nearest to a fraction**, and the even one of two that are equally near. -/
def nearestEven (num den : Nat) : Nat :=
  Accuracy.roundToNearestEven (num / den) (accuracyOfFraction (num % den) den)

/-- The fraction is no farther away than a half, and nearer if its neighbour is odd. -/
theorem nearestEven_spec (num : Nat) {den : Nat} (hden : 0 < den) :
    (2 * num ≤ 2 * (nearestEven num den * den) + den
        ∧ 2 * (nearestEven num den * den) ≤ 2 * num + den)
      ∧ (nearestEven num den % 2 = 1 → 2 * num < 2 * (nearestEven num den * den) + den
        ∧ 2 * (nearestEven num den * den) < 2 * num + den) := by
  have hnum := Nat.mod_add_div' num den
  have hrest := Nat.mod_lt num hden
  unfold nearestEven
  generalize num / den = whole at *
  generalize num % den = rest at *
  rcases Nat.eq_zero_or_pos rest with rfl | hpos
  · rw [show accuracyOfFraction 0 den = .exact from rfl, Accuracy.roundToNearestEven]
    omega
  · rcases Nat.lt_trichotomy (2 * rest) den with hlt | heq | hgt
    · rw [accuracyOfFraction_of_lt hpos hlt, Accuracy.roundToNearestEven]
      omega
    · rw [accuracyOfFraction_of_eq hpos heq, Accuracy.roundToNearestEven]
      rcases Nat.mod_two_eq_zero_or_one whole with heven | hodd
      · rw [heven, Nat.add_zero]
        omega
      · rw [hodd, Nat.add_mul, Nat.one_mul]
        omega
    · rw [accuracyOfFraction_of_gt hpos hgt, Accuracy.roundToNearestEven, Nat.add_mul, Nat.one_mul]
      omega

/-- **What an extended mantissa describes**: the whole part of a fraction, and how its rest compares
with a half. -/
structure Describes (em : ExtendedMantissa) (num den : Nat) : Prop where
  mantissa_eq : em.mantissa = num / den
  accuracy_eq : em.accuracy = accuracyOfFraction (num % den) den

namespace Describes

variable {em : ExtendedMantissa} {num den : Nat}

theorem ofFraction (num den : Nat) :
    Describes (.ofMantissaAndAccuracy (num / den) (accuracyOfFraction (num % den) den))
      num den := by
  generalize haccuracy : accuracyOfFraction (num % den) den = accuracy
  rcases accuracy with _ | _ | _ | _ <;> exact ⟨rfl, haccuracy.symm⟩

theorem roundedMantissa_eq (h : Describes em num den) :
    em.roundedMantissa = nearestEven num den := by
  rw [ExtendedMantissa.roundedMantissa, h.mantissa_eq, h.accuracy_eq]
  rfl

/-- The two bits are clear if and only if there is no rest. -/
theorem bits_eq (h : Describes em num den) :
    (em.roundBit || em.stickyBit) = decide (0 < num % den) := by
  obtain ⟨mantissa, roundBit, stickyBit⟩ := em
  obtain ⟨-, haccuracy⟩ := h
  rcases Nat.eq_zero_or_pos (num % den) with hzero | hpos
  · rw [hzero, show accuracyOfFraction 0 den = .exact from rfl] at haccuracy
    rw [hzero]
    cases roundBit <;> cases stickyBit <;> first | rfl | cases haccuracy
  · rw [accuracyOfFraction, if_neg (Nat.ne_of_gt hpos)] at haccuracy
    rw [decide_eq_true hpos]
    cases roundBit <;> cases stickyBit <;> first | rfl | cases haccuracy

/-- **A bit that is shifted out is not forgotten.** -/
theorem shiftRightOne (hden : 0 < den) (h : Describes em num den) :
    Describes em.shiftRightOne num (den * 2) := by
  have hrest := Nat.mod_lt num hden
  refine ⟨by rw [ExtendedMantissa.shiftRightOne, h.mantissa_eq, Nat.div_div_eq_div_mul], ?_⟩
  rw [ExtendedMantissa.shiftRightOne, h.bits_eq, h.mantissa_eq, Nat.mod_mul]
  rcases Nat.mod_two_eq_zero_or_one (num / den) with heven | hodd
  · rw [heven, Nat.mul_zero, Nat.add_zero]
    rcases Nat.eq_zero_or_pos (num % den) with hzero | hpos
    · rw [hzero]
      rfl
    · rw [accuracyOfFraction_of_lt hpos (by omega), decide_eq_true hpos]
      rfl
  · rw [hodd, Nat.mul_one]
    rcases Nat.eq_zero_or_pos (num % den) with hzero | hpos
    · rw [hzero, accuracyOfFraction_of_eq (by omega) (by omega)]
      rfl
    · rw [accuracyOfFraction_of_gt (by omega) (by omega), decide_eq_true hpos]
      rfl

theorem shiftRight (hden : 0 < den) (h : Describes em num den) (places : Nat) :
    Describes (em >>> places) num (den * 2 ^ places) := by
  show Describes (places.repeat ExtendedMantissa.shiftRightOne em) _ _
  induction places with
  | zero => rwa [Nat.pow_zero, Nat.mul_one]
  | succ places ih =>
    rw [Nat.pow_succ, ← Nat.mul_assoc]
    exact ih.shiftRightOne (Nat.mul_pos hden (Nat.two_pow_pos places))

end Describes

/-! ## Rounding to the format -/

/-- A positive number, or zero, from its parts. -/
def unpacked (sign : Sign) (m : Nat) (q : Int) : UnpackedFloat :=
  if hm : m = 0 then .zero sign else .finite sign m q (Nat.pos_of_ne_zero hm)

theorem unpacked_of_pos {sign : Sign} {m m' : Nat} {q q' : Int} (hpos : 0 < m') (hm : m = m')
    (hq : q = q') : unpacked sign m q = .finite sign m' q' hpos := by
  subst hm hq
  exact dif_neg (Nat.ne_of_gt hpos)

/-- By how many places a significand has to be shifted to get its leading bit into its place, or
its exponent to the least one. -/
def surplus (m : Nat) (e : Int) : Nat :=
  (max ((m.log2 : Int) + 1 + e - 53) leastExponent - e).toNat

theorem shiftToTargetExponent_eq_shift (m : Nat) (e : Int) (accuracy : Accuracy) :
    shiftToTargetExponent .binary64 m e accuracy
      = (ExtendedMantissa.ofMantissaAndAccuracy m accuracy >>> surplus m e, e + surplus m e) := rfl

/-- A significand that fits is left alone. -/
theorem shiftToTargetExponent_of_lt {m : Nat} {q : Int} (hm : m < 2 * leadingBit)
    (hq : leastExponent ≤ q) :
    shiftToTargetExponent .binary64 m q .exact = (⟨m, false, false⟩, q) := by
  have hlog : m.log2 ≤ 52 := by
    rcases Nat.eq_zero_or_pos m with rfl | hpos
    · decide
    · exact Nat.le_of_lt_succ ((Nat.log2_lt (Nat.ne_of_gt hpos)).mpr hm)
  have hsurplus : surplus m q = 0 := by
    rw [surplus]
    omega
  rw [shiftToTargetExponent_eq_shift, hsurplus, Nat.cast_zero, add_zero]
  rfl

/-- A significand that has become too large by one is shifted by one place. -/
theorem shiftToTargetExponent_carry {q : Int} (hq : leastExponent ≤ q) :
    shiftToTargetExponent .binary64 (2 * leadingBit) q .exact
      = (⟨leadingBit, false, false⟩, q + 1) := by
  have hlog : (2 * leadingBit).log2 = 53 := by
    rw [show 2 * leadingBit = 2 ^ 53 from rfl, Nat.log2_two_pow]
  have hsurplus : surplus (2 * leadingBit) q = 1 := by
    rw [surplus, hlog]
    omega
  rw [shiftToTargetExponent_eq_shift, hsurplus]
  rfl

/-- How a fraction and the parts of a double compare, in quarters of the last binary place. -/
theorem contains_of_quarters {num den m : Nat} {q : Int} {v : ℚ} (hden : 0 < den)
    (hv : v * den = num * 2 ^ q)
    (h : (Interval.ofParts m q).lower * den ≤ 4 * num ∧ 4 * num ≤ (4 * m + 2) * den)
    (hodd : m % 2 = 1 →
      (Interval.ofParts m q).lower * den < 4 * num ∧ 4 * num < (4 * m + 2) * den) :
    (Interval.ofParts m q).Contains v := by
  have hden : (0 : ℚ) < den := by exact_mod_cast hden
  have hquarter : (2 : ℚ) ^ q = 4 * 2 ^ (q - 2) := by
    rw [zpow_sub₀ (by norm_num)]
    ring
  have hvalue : v * den = ((4 * num : Nat) : ℚ) * 2 ^ (q - 2) := by
    rw [hv, hquarter, Nat.cast_mul, Nat.cast_ofNat]
    ring
  have hscaled (a : Nat) : (a : ℚ) * 2 ^ (q - 2) * den = ((a * den : Nat) : ℚ) * 2 ^ (q - 2) := by
    rw [Nat.cast_mul]
    ring
  have hle (a b : Nat) : (a : ℚ) * 2 ^ (q - 2) ≤ b * 2 ^ (q - 2) ↔ a ≤ b := by
    rw [mul_le_mul_iff_of_pos_right (two_zpow_pos _), Nat.cast_le]
  have hlt (a b : Nat) : (a : ℚ) * 2 ^ (q - 2) < b * 2 ^ (q - 2) ↔ a < b := by
    rw [mul_lt_mul_iff_of_pos_right (two_zpow_pos _), Nat.cast_lt]
  have hupper : (4 * m + 2 : ℚ) = ((4 * m + 2 : Nat) : ℚ) := by push_cast; rfl
  rw [Interval.contains_ofParts_iff, hupper]
  refine ⟨⟨?_, ?_⟩, fun hm => ⟨?_, ?_⟩⟩
  · rw [← mul_le_mul_iff_of_pos_right hden, hvalue, hscaled, hle]
    exact h.1
  · rw [← mul_le_mul_iff_of_pos_right hden, hvalue, hscaled, hle]
    exact h.2
  · rw [← mul_lt_mul_iff_of_pos_right hden, hvalue, hscaled, hlt]
    exact (hodd hm).1
  · rw [← mul_lt_mul_iff_of_pos_right hden, hvalue, hscaled, hlt]
    exact (hodd hm).2

/-- **A step of the format for a number**: counted in steps of this width, the number has its
leading bit in its place, or the exponent is the least one. -/
structure Aligned (num wide : Nat) (q : Int) : Prop where
  pos : 0 < wide
  least_le : leastExponent ≤ q
  lt : num < 2 * leadingBit * wide
  leading_le : leastExponent < q → leadingBit * wide ≤ num

/-- Shifting the whole part of a fraction to its place makes for such a step. -/
theorem aligned_surplus {num den : Nat} {e : Int} (hden : 0 < den)
    (he : e ≤ max (((num / den).log2 : Int) + 1 + e - 53) leastExponent) :
    Aligned num (den * 2 ^ surplus (num / den) e) (e + surplus (num / den) e) := by
  generalize hplaces : surplus (num / den) e = places
  have htarget : e + places = max (((num / den).log2 : Int) + 1 + e - 53) leastExponent := by
    rw [surplus] at hplaces
    omega
  have hwide (m : Nat) : m * 2 ^ places * den = m * (den * 2 ^ places) := by
    rw [Nat.mul_assoc, Nat.mul_comm _ den]
  refine ⟨Nat.mul_pos hden (Nat.two_pow_pos places), htarget ▸ le_max_right _ _, ?_,
    fun hnormal => ?_⟩
  · have hlog : num / den < 2 ^ (53 + places) :=
      lt_of_lt_of_le Nat.lt_log2_self (Nat.pow_le_pow_right (by decide) (by omega))
    have hnum := (Nat.div_lt_iff_lt_mul hden).mp hlog
    rwa [Nat.pow_add, hwide] at hnum
  · have hlog : (num / den).log2 = 52 + places := by omega
    have hpos : num / den ≠ 0 := by
      rintro hzero
      rw [hzero, Nat.log2_zero] at hlog
      omega
    have hnum := (Nat.le_div_iff_mul_le hden).mp (hlog ▸ Nat.log2_self_le hpos)
    rwa [Nat.pow_add, hwide] at hnum

namespace Aligned

variable {num wide : Nat} {q : Int} {v : ℚ}

/-- Rounding does not take the leading bit away. -/
theorem leading_le_nearestEven (h : Aligned num wide q) (hnormal : leastExponent < q) :
    leadingBit ≤ nearestEven num wide := by
  obtain ⟨⟨hupper, -⟩, -⟩ := nearestEven_spec num h.pos
  have hnum := h.leading_le hnormal
  by_contra hlt
  have hsmall := Nat.mul_le_mul_right wide (Nat.succ_le_of_lt (not_le.mp hlt))
  have hpos := h.pos
  rw [Nat.succ_mul] at hsmall
  omega

/-- **The fraction lies in the interval of the nearest number of steps**, if that fits. -/
theorem contains_nearestEven (h : Aligned num wide q) (hv : v * wide = num * 2 ^ q) :
    (Interval.ofParts (nearestEven num wide) q).Contains v := by
  obtain ⟨⟨hupper, hlower⟩, hodd⟩ := nearestEven_spec num h.pos
  generalize nearestEven num wide = r at *
  have hfour : 4 * r * wide = 4 * (r * wide) := Nat.mul_assoc ..
  refine contains_of_quarters h.pos hv ?_ fun hm => ?_
  · rw [Nat.add_mul, hfour]
    rcases Interval.lower_ofParts_eq r q with ⟨heq, rfl, hnormal⟩ | ⟨heq, -⟩
    · -- below a power of two the interval is narrower, but the number is not below it
      have hnum := h.leading_le hnormal
      rw [heq, Nat.sub_mul, hfour]
      omega
    · rw [heq, Nat.sub_mul, hfour]
      omega
  · obtain ⟨hupper, hlower⟩ := hodd hm
    rw [Nat.add_mul, hfour]
    rcases Interval.lower_ofParts_eq r q with ⟨-, rfl, -⟩ | ⟨heq, -⟩
    · exact absurd hm (by decide)
    · have hself : wide ≤ r * wide := Nat.le_mul_of_pos_left wide (by omega)
      rw [heq, Nat.sub_mul, hfour]
      omega

/-- If it does not fit, it is one too large: the number is so little below the next power of two
that it is rounded to that. -/
theorem nearestEven_eq_of_carry (h : Aligned num wide q)
    (hcarry : 2 * leadingBit ≤ nearestEven num wide) :
    nearestEven num wide = 2 * leadingBit := by
  obtain ⟨⟨-, hlower⟩, -⟩ := nearestEven_spec num h.pos
  have hless := h.lt
  have hpos := h.pos
  by_contra hne
  have hlarge := Nat.mul_le_mul_right wide (show 2 * leadingBit + 1 ≤ nearestEven num wide by omega)
  rw [Nat.add_mul, Nat.one_mul] at hlarge
  omega

/-- **The fraction then lies in the interval of that power of two.** -/
theorem contains_of_carry (h : Aligned num wide q) (hv : v * wide = num * 2 ^ q)
    (hcarry : nearestEven num wide = 2 * leadingBit) :
    (Interval.ofParts leadingBit (q + 1)).Contains v := by
  obtain ⟨⟨-, hlower⟩, -⟩ := nearestEven_spec num h.pos
  have hless := h.lt
  have hleast := h.least_le
  have hdouble : v * (2 * wide : Nat) = num * 2 ^ (q + 1) := by
    rw [zpow_add_one₀ (by norm_num), Nat.cast_mul, Nat.cast_ofNat]
    linear_combination 2 * hv
  rw [hcarry, Nat.mul_assoc] at hlower
  rw [Nat.mul_assoc] at hless
  refine contains_of_quarters (Nat.mul_pos two_pos h.pos) hdouble ?_ fun hm => ?_
  · rcases Interval.lower_ofParts_eq leadingBit (q + 1) with ⟨heq, -⟩ | ⟨-, hfar⟩
    · rw [heq, Nat.sub_mul, Nat.add_mul, Nat.mul_left_comm, Nat.mul_assoc 4]
      omega
    · exact absurd ⟨rfl, by omega⟩ hfar
  · exact absurd hm (by decide)

end Aligned

/-- A whole part and its rest are rounded like the fraction, at the step to which they are
shifted. -/
theorem roundWithAccuracy_eq (sign : Sign) (num : Nat) {den : Nat} (hden : 0 < den) (e : Int) :
    let rounded := shiftToTargetExponent .binary64
      (nearestEven num (den * 2 ^ surplus (num / den) e)) (e + surplus (num / den) e) .exact
    roundWithAccuracy .binary64 sign (num / den) e (accuracyOfFraction (num % den) den)
      = unpacked sign rounded.1.mantissa rounded.2 := by
  have hrounded := ((Describes.ofFraction num den).shiftRight hden
    (surplus (num / den) e)).roundedMantissa_eq
  intro rounded
  unfold roundWithAccuracy
  rw [shiftToTargetExponent_eq_shift (num / den) e]
  dsimp only
  rw [hrounded]
  rfl

/-- **A fraction is rounded to the double in whose interval it lies.** -/
theorem exists_roundWithAccuracy_eq (sign : Sign) (num : Nat) {den : Nat} {e : Int} {v : ℚ}
    (hden : 0 < den) (hv : v * den = num * 2 ^ e)
    (he : e ≤ max (((num / den).log2 : Int) + 1 + e - 53) leastExponent) :
    ∃ m q, m < 2 * leadingBit ∧ leastExponent ≤ q ∧ (leastExponent < q → leadingBit ≤ m)
      ∧ (Interval.ofParts m q).Contains v
      ∧ roundWithAccuracy .binary64 sign (num / den) e (accuracyOfFraction (num % den) den)
        = unpacked sign m q := by
  have hround := roundWithAccuracy_eq sign num hden e
  have haligned := aligned_surplus hden he
  have hvalue : v * (den * 2 ^ surplus (num / den) e : Nat)
      = num * 2 ^ (e + surplus (num / den) e) := by
    rw [Nat.cast_mul, Nat.cast_pow, Nat.cast_ofNat, ← mul_assoc, hv, zpow_add₀ (by norm_num),
      zpow_natCast, mul_assoc]
  generalize den * 2 ^ surplus (num / den) e = wide at *
  generalize e + surplus (num / den) e = q at *
  have hleast := haligned.least_le
  rcases Nat.lt_or_ge (nearestEven num wide) (2 * leadingBit) with hfits | hlarge
  · rw [shiftToTargetExponent_of_lt hfits hleast] at hround
    exact ⟨_, q, hfits, hleast, haligned.leading_le_nearestEven,
      haligned.contains_nearestEven hvalue, hround⟩
  · have hcarry := haligned.nearestEven_eq_of_carry hlarge
    rw [hcarry, shiftToTargetExponent_carry hleast] at hround
    exact ⟨leadingBit, q + 1, by decide, by omega, fun _ => le_rfl,
      haligned.contains_of_carry hvalue hcarry, hround⟩

/-! ## Bits -/

/-- The sign of a double. -/
def signOf : Bool → Sign
  | false => .positive
  | true => .negative

/-- The sign bit as a number. -/
def signBit : Bool → Nat
  | false => 0
  | true => 0x8000000000000000

variable {x y : Float} {negative : Bool} {m : Nat} {q : Int}

/-- **The bits of a double are its sign and its place.** -/
theorem toNat_toBits_of_ofFloat (h : ofFloat x = .finite negative m q) :
    x.toBits.toNat = signBit negative + place m q ∧ Legal m q := by
  have hbits := x.toBits.toNat_lt
  unfold ofFloat at h
  generalize x.toBits.toNat = bits at *
  have hsign : (bits / 0x8000000000000000 == 1) = negative →
      bits = signBit negative + bits % 0x8000000000000000 := by
    rintro rfl
    rcases Nat.lt_or_ge bits 0x8000000000000000 with hlt | hge
    · rw [Nat.div_eq_of_lt hlt, Nat.mod_eq_of_lt hlt]
      exact (Nat.zero_add bits).symm
    · rw [show bits / 0x8000000000000000 = 1 by omega]
      simp only [BEq.rfl, signBit]
      omega
  dsimp only at h
  generalize hfield : bits / leadingBit % 2048 = field at h
  generalize hfraction : bits % leadingBit = fraction at h
  split_ifs at h
  all_goals
    obtain ⟨hnegative, hm, hq⟩ := Binary64.finite.inj h
    have hsplit := hsign hnegative
    have hexponent : (q - leastExponent).toNat = field - 1 := by omega
    simp only [leadingBit] at hfield hfraction hm
    refine ⟨?_, ?_, ?_, ?_, fun hnormal => ?_⟩
    · rw [place, hexponent, leadingBit]
      omega
    · rw [leadingBit]
      omega
    · omega
    · rw [leastExponent] at hq
      omega
    · rw [leadingBit]
      omega

/-- The parts of a double are read off its bits. -/
theorem ofFloat_of_toNat_toBits (h : Legal m q)
    (hbits : x.toBits.toNat = signBit negative + place m q) :
    ofFloat x = .finite negative m q := by
  obtain ⟨hlt, hleast, hgreatest, hleading⟩ := h
  unfold ofFloat
  dsimp only
  generalize x.toBits.toNat = bits at *
  generalize hexponent : (q - leastExponent).toNat = exponent at *
  generalize hfield : bits / leadingBit % 2048 = field
  generalize hfraction : bits % leadingBit = fraction
  rw [place, hexponent] at hbits
  have hsmall : exponent * leadingBit + m < 0x7FF0000000000000 := by
    simp only [leadingBit, leastExponent] at *
    omega
  have hsign : (bits / 0x8000000000000000 == 1) = negative
      ∧ bits % 0x8000000000000000 = exponent * leadingBit + m := by
    cases negative
    · simp only [signBit, Nat.zero_add] at hbits
      rw [show bits / 0x8000000000000000 = 0 by omega]
      exact ⟨rfl, by omega⟩
    · simp only [signBit] at hbits
      rw [show bits / 0x8000000000000000 = 1 by omega]
      exact ⟨rfl, by omega⟩
  obtain ⟨hsign, hmod⟩ := hsign
  rw [hsign]
  rw [leadingBit] at *
  rw [leastExponent] at *
  rcases Nat.lt_or_ge m 0x10000000000000 with hsubnormal | hnormal
  · rw [if_neg (by omega), if_pos (by omega), show fraction = m by omega, show q = -1074 by omega]
  · rw [if_neg (by omega), if_neg (by omega), show 0x10000000000000 + fraction = m by omega,
      show (-1074 + (field - 1 : Nat) : Int) = q by omega]

/-- Components are packed one after the other. -/
theorem toNat_packComponents (negative : Bool) {exponent fraction : Nat}
    (hexponent : exponent < 2048) (hfraction : fraction < leadingBit) :
    (packComponents .binary64 (signOf negative) (BitVec.ofNat 11 exponent)
        (BitVec.ofNat 52 fraction)).toNat
      = signBit negative + (exponent * leadingBit + fraction) := by
  have hsign : (signOf negative).toBitVec.toNat * 0x8000000000000000 = signBit negative := by
    cases negative <;> rfl
  simp only [leadingBit] at *
  rw [← hsign, packComponents, BitVec.toNat_append, BitVec.toNat_append,
    ← Nat.shiftLeft_add_eq_or_of_lt (BitVec.isLt _),
    ← Nat.shiftLeft_add_eq_or_of_lt (BitVec.isLt _), Nat.shiftLeft_eq, Nat.shiftLeft_eq,
    BitVec.toNat_ofNat, BitVec.toNat_ofNat, Nat.mod_eq_of_lt (by omega),
    Nat.mod_eq_of_lt (by omega)]
  show ((signOf negative).toBitVec.toNat * 2 ^ 11 + exponent) * 2 ^ 52 + fraction = _
  ring

/-- **Legal parts are packed into the sign and their place.** -/
theorem toNat_pack (negative : Bool) (h : Legal m q) :
    (UnpackedFloat.pack .binary64 (unpacked (signOf negative) m q)).toNat
      = signBit negative + place m q := by
  obtain ⟨hlt, hleast, hgreatest, hleading⟩ := h
  rcases Nat.eq_zero_or_pos m with rfl | hm
  · have hplace : place 0 q = 0 * leadingBit + 0 := by
      simp only [place, leadingBit, leastExponent] at *
      omega
    rw [hplace]
    exact toNat_packComponents negative (by decide) (by decide)
  · rw [unpacked_of_pos hm rfl rfl]
    have hlog : m.log2 = 52 ↔ leadingBit ≤ m := by
      rw [Nat.log2_eq_iff (Nat.ne_of_gt hm)]
      exact and_iff_left hlt
    have hbiased :
        (q + Format.binary64.exponentBias + Format.binary64.mantissaBitsWithoutImplicit).toNat
          = (q - leastExponent).toNat + 1 := by
      show (q + (1023 : Nat) + (52 : Nat)).toNat = _
      simp only [leastExponent] at *
      omega
    have hsmall : (q - leastExponent).toNat ≤ 2045 := by
      simp only [leastExponent] at *
      omega
    unfold UnpackedFloat.pack
    dsimp only
    rw [hbiased, if_neg (show ¬ 2048 ≤ _ by omega)]
    by_cases hnormal : leadingBit ≤ m
    · have hfraction : BitVec.ofNat 52 m = BitVec.ofNat 52 (m - leadingBit) := by
        refine BitVec.eq_of_toNat_eq ?_
        rw [BitVec.toNat_ofNat, BitVec.toNat_ofNat, leadingBit] at *
        omega
      rw [if_pos (show m.log2 + 1 = Format.binary64.mantissaBits from
        congrArg (· + 1) (hlog.mpr hnormal))]
      show (packComponents .binary64 _ (BitVec.ofNat 11 _) (BitVec.ofNat 52 m)).toNat = _
      rw [hfraction, toNat_packComponents negative (by omega) (by omega), place, Nat.add_mul]
      omega
    · have hleast : q = leastExponent := by
        by_contra hne
        exact hnormal (hleading (by omega))
      rw [if_neg (show ¬ m.log2 + 1 = Format.binary64.mantissaBits from
        fun h => hnormal (hlog.mp (Nat.succ_inj.mp h)))]
      show (packComponents .binary64 _ (BitVec.ofNat 11 0) (BitVec.ofNat 52 m)).toNat = _
      rw [toNat_packComponents negative (by decide) (by omega), place, hleast, sub_self]
      rfl

/-- The fraction is read off the bits. -/
theorem toNat_unpackMantissa (bits : BitVec Format.binary64.numBits) :
    (@unpackMantissa .binary64 bits).toNat = bits.toNat % leadingBit := by
  show ((bits.extractLsb 51 0).cast _).toNat = _
  rw [BitVec.toNat_cast, BitVec.extractLsb_toNat, Nat.shiftRight_zero]
  rfl

/-- So is the sign. -/
theorem ofBitVec_unpackSign {bits : BitVec Format.binary64.numBits} {negative : Bool}
    (h : (bits.toNat / 0x8000000000000000 == 1) = negative) :
    Sign.ofBitVec (@unpackSign .binary64 bits) = signOf negative := by
  have hbits : bits.toNat < 2 ^ 64 := bits.isLt
  have hsign : (@unpackSign .binary64 bits).toNat = bits.toNat / 0x8000000000000000 := by
    show ((bits.extractLsb 63 63).cast _).toNat = _
    rw [BitVec.toNat_cast, BitVec.extractLsb_toNat, Nat.shiftRight_eq_div_pow]
    show bits.toNat / 2 ^ 63 % 2 ^ 1 = _
    omega
  have hword (n : Nat) (hn : n < 2) (hbits : bits.toNat / 0x8000000000000000 = n) :
      @unpackSign .binary64 bits = BitVec.ofNat 1 n := by
    refine BitVec.eq_of_toNat_eq ?_
    rw [hsign, hbits, BitVec.toNat_ofNat, Nat.mod_eq_of_lt hn]
  cases negative
  · rw [beq_eq_false_iff_ne] at h
    rw [hword 0 (by decide) (by omega)]
    rfl
  · rw [hword 1 (by decide) (eq_of_beq h)]
    rfl

/-- **The model of a double has the same parts.** -/
theorem unpack_of_ofFloat (h : ofFloat x = .finite negative m q) :
    x.toModel.unpack = unpacked (signOf negative) m q := by
  unfold ofFloat at h
  have hbits : x.toBits.toNat = x.toModel.toBits.toBitVec.toNat := rfl
  rw [hbits] at h
  unfold Float.Model.unpack UnpackedFloat.unpack
  generalize x.toModel.toBits.toBitVec = bits at *
  have hspecial :
      @unpackExponent .binary64 bits = -1#11 ↔ bits.toNat / leadingBit % 2048 = 2047 := by
    rw [← toNat_unpackExponent, ← BitVec.toNat_inj]
    rfl
  have hzero : @unpackExponent .binary64 bits = 0#11 ↔ bits.toNat / leadingBit % 2048 = 0 := by
    rw [← toNat_unpackExponent, ← BitVec.toNat_inj]
    rfl
  have hfraction : @unpackMantissa .binary64 bits = 0#52 ↔ bits.toNat % leadingBit = 0 := by
    rw [← toNat_unpackMantissa, ← BitVec.toNat_inj]
    rfl
  have hsign (hparts : (bits.toNat / 0x8000000000000000 == 1) = negative) :=
    ofBitVec_unpackSign hparts
  dsimp only at h ⊢
  by_cases hinfinite : bits.toNat / leadingBit % 2048 = 2047
  · rw [if_pos hinfinite] at h
    split at h <;> cases h
  · rw [if_neg hinfinite] at h
    rw [if_neg (mt hspecial.mp hinfinite)]
    by_cases hsubnormal : bits.toNat / leadingBit % 2048 = 0
    · rw [if_pos hsubnormal] at h
      obtain ⟨hnegative, rfl, rfl⟩ := Binary64.finite.inj h
      rw [if_pos (hzero.mpr hsubnormal), hsign hnegative]
      by_cases hnull : bits.toNat % leadingBit = 0
      · rw [dif_pos (hfraction.mpr hnull), unpacked, dif_pos hnull]
      · rw [dif_neg (mt hfraction.mp hnull)]
        refine (unpacked_of_pos _ (toNat_unpackMantissa bits).symm ?_).symm
        rw [toNat_unpackExponent, hsubnormal]
        rfl
    · rw [if_neg hsubnormal] at h
      obtain ⟨hnegative, rfl, rfl⟩ := Binary64.finite.inj h
      rw [if_neg (mt hzero.mp hsubnormal), hsign hnegative]
      refine (unpacked_of_pos _ (Eq.symm ?_) (Eq.symm ?_)).symm
      · rw [BitVec.toNat_append, ← Nat.shiftLeft_add_eq_or_of_lt (BitVec.isLt _),
          toNat_unpackMantissa]
        rfl
      · rw [toNat_unpackExponent]
        show (_ : Int) - ((1023 : Nat) + (52 : Nat)) = _
        rw [leastExponent]
        omega

/-! ## The nearest double -/

theorem eq_of_toBits_eq (h : x.toBits = y.toBits) : x = y := by
  obtain ⟨⟨_, _⟩⟩ := x
  obtain ⟨⟨_, _⟩⟩ := y
  cases h
  rfl

/-- **A double is nearest to a number** that is not negative: the number lies in its interval. -/
def Nearest (x : Float) (v : ℚ) : Prop :=
  ∃ m q, ofFloat x = .finite false m q ∧ (Interval.ofParts m q).Contains v

/-- The double nearest to the number of a double is that double. -/
theorem Nearest.ofFloat_eq (hx : Nearest x (value m q)) (h : Legal m q) :
    ofFloat x = .finite false m q := by
  obtain ⟨m', q', hparts, hv⟩ := hx
  obtain ⟨rfl, rfl⟩ := Interval.parts_unique (toNat_toBits_of_ofFloat hparts).2 h hv
    (Interval.contains_value m q)
  exact hparts

/-- Where the interval of the greatest double ends. -/
def overflow : ℚ := (8 * leadingBit - 2) * 2 ^ (969 : Int)

/-- Legal parts are those of a double. -/
theorem ofFloat_pack (negative : Bool) (h : Legal m q) :
    ofFloat (.ofModel (Float.Model.pack (unpacked (signOf negative) m q)))
      = .finite negative m q :=
  ofFloat_of_toNat_toBits h (toNat_pack negative h)

/-- **A fraction below the overflow is rounded to the nearest double.** -/
theorem nearest_roundWithAccuracy {num den : Nat} {e : Int} {v : ℚ} (hden : 0 < den)
    (hv : v * den = num * 2 ^ e)
    (he : e ≤ max (((num / den).log2 : Int) + 1 + e - 53) leastExponent) (hsmall : v < overflow) :
    Nearest (.ofModel (Float.Model.pack
      (roundWithAccuracy .binary64 .positive (num / den) e (accuracyOfFraction (num % den) den))))
      v := by
  obtain ⟨m, q, hlt, hleast, hleading, hcontains, hround⟩ :=
    exists_roundWithAccuracy_eq .positive num hden hv he
  have hgreatest : q ≤ 971 := by
    by_contra hlarge
    have hm : leadingBit ≤ m := hleading (by
      rw [leastExponent]
      omega)
    have hlower : 4 * leadingBit - 1 ≤ (Interval.ofParts m q).lower := by
      rcases Interval.lower_ofParts_eq m q with ⟨heq, -⟩ | ⟨heq, hfar⟩
      · omega
      · have : m ≠ leadingBit := fun h => hfar ⟨h, by rw [leastExponent]; omega⟩
        omega
    have hvalue := (Interval.contains_ofParts_iff.mp hcontains).1.1
    have hbeyond : overflow ≤ (Interval.ofParts m q).lower * 2 ^ (q - 2) := calc
      overflow = ((4 * leadingBit - 1 : Nat) : ℚ) * 2 ^ (970 : Int) := by
        rw [overflow, show (970 : Int) = 969 + 1 from rfl, zpow_add_one₀ (by norm_num)]
        generalize (2 : ℚ) ^ (969 : Int) = unit
        simp only [leadingBit]
        push_cast
        ring
      _ ≤ (Interval.ofParts m q).lower * 2 ^ (q - 2) :=
        mul_le_mul (by exact_mod_cast hlower) (zpow_le_zpow_right₀ (by norm_num) (by omega))
          (two_zpow_pos _).le (Nat.cast_nonneg _)
    linarith
  rw [hround]
  exact ⟨m, q, ofFloat_pack false ⟨hlt, hleast, hgreatest, hleading⟩, hcontains⟩

/-- **A number with finitely many binary places is rounded to the nearest double.** -/
theorem nearest_roundWithAccuracy_exact {e : Int} (hm : leadingBit ≤ m ∨ e ≤ leastExponent)
    (hsmall : value m e < overflow) :
    Nearest (.ofModel (Float.Model.pack (roundWithAccuracy .binary64 .positive m e .exact)))
      (value m e) := by
  have hvalue : value m e * (1 : Nat) = m * 2 ^ e := by rw [value, Nat.cast_one, mul_one]
  have hround := nearest_roundWithAccuracy one_pos hvalue ?_ hsmall
  · rwa [Nat.div_one, Nat.mod_one, show accuracyOfFraction 0 1 = .exact from rfl] at hround
  · rw [Nat.div_one]
    rcases hm with hm | he
    · have hlog : 52 ≤ m.log2 :=
        (Nat.le_log2 (Nat.ne_of_gt (Nat.lt_of_lt_of_le (by decide) hm))).mpr hm
      omega
    · omega

variable {m' : Nat} {q' : Int}

/-- **A product is the double nearest to the product of the numbers.** -/
theorem nearest_mul (hx : ofFloat x = .finite false m q) (hy : ofFloat y = .finite false m' q')
    (hm : 0 < m) (hm' : 0 < m') (hsmall : value m q * value m' q' < overflow) :
    Nearest (x * y) (value m q * value m' q') := by
  have hproduct : value m q * value m' q' = value (m * m') (q + q') := by
    rw [value, value, value, zpow_add₀ (by norm_num), Nat.cast_mul]
    ring
  have hxy : x * y = .ofModel (Float.Model.pack
      (roundWithAccuracy .binary64 .positive (m * m') (q + q') .exact)) := by
    show Float.ofModel (Float.Model.pack
      (UnpackedFloat.mul .binary64 x.toModel.unpack y.toModel.unpack)) = _
    rw [unpack_of_ofFloat hx, unpack_of_ofFloat hy, unpacked_of_pos hm rfl rfl,
      unpacked_of_pos hm' rfl rfl]
    rfl
  rw [hproduct] at hsmall ⊢
  rw [hxy]
  refine nearest_roundWithAccuracy_exact ?_ hsmall
  obtain ⟨-, -, hleast, -, hleading⟩ := toNat_toBits_of_ofFloat hx
  obtain ⟨-, -, hleast', -, hleading'⟩ := toNat_toBits_of_ofFloat hy
  by_cases hnormal : leastExponent < q
  · exact .inl (Nat.le_trans (hleading hnormal) (Nat.le_mul_of_pos_right m hm'))
  · by_cases hnormal' : leastExponent < q'
    · exact .inl (Nat.le_trans (hleading' hnormal') (Nat.le_mul_of_pos_left m' hm))
    · rw [leastExponent] at *
      exact .inr (by omega)

/-- **A quotient is the double nearest to the quotient of the numbers.** -/
theorem nearest_div (hx : ofFloat x = .finite false m q) (hy : ofFloat y = .finite false m' q')
    (hm : 0 < m) (hm' : 0 < m') (hsmall : value m q / value m' q' < overflow) :
    Nearest (x / y) (value m q / value m' q') := by
  generalize htarget :
    min (q - q') (Format.binary64.targetExponent (totalExponent m q - totalExponent m' q')) = target
  generalize hshift : (q - q' - target).toNat = shift
  have hxy : x / y = .ofModel (Float.Model.pack (roundWithAccuracy .binary64 .positive
      (m * 2 ^ shift / m') target (accuracyOfFraction (m * 2 ^ shift % m') m'))) := by
    show Float.ofModel (Float.Model.pack
      (UnpackedFloat.div .binary64 x.toModel.unpack y.toModel.unpack)) = _
    rw [unpack_of_ofFloat hx, unpack_of_ofFloat hy, unpacked_of_pos hm rfl rfl,
      unpacked_of_pos hm' rfl rfl, ← Nat.shiftLeft_eq, ← hshift, ← htarget]
    rfl
  rw [hxy]
  have hformat : target = min (q - q') (max ((m.log2 : Int) + 1 + q - (m'.log2 + 1 + q') - 53)
      leastExponent) := htarget.symm
  refine nearest_roundWithAccuracy hm' ?_ ?_ hsmall
  · have hm' : (m' : ℚ) ≠ 0 := Nat.cast_ne_zero.mpr (Nat.ne_of_gt hm')
    have hpower : (2 : ℚ) ^ q = 2 ^ q' * (2 ^ shift * 2 ^ target) := by
      rw [← zpow_natCast, ← zpow_add₀ (by norm_num), ← zpow_add₀ (by norm_num)]
      congr 1
      omega
    rw [value, value, hpower, Nat.cast_mul, Nat.cast_pow, Nat.cast_ofNat]
    field_simp
  · by_cases hleast : target ≤ leastExponent
    · exact Int.le_trans hleast (le_max_right _ _)
    · -- the quotient has no fewer binary places than the format
      have hpower : 2 ^ (52 + (m'.log2 + 1)) ≤ m * 2 ^ shift := calc
        2 ^ (52 + (m'.log2 + 1)) ≤ 2 ^ (m.log2 + shift) :=
          Nat.pow_le_pow_right (by decide) (by omega)
        _ = 2 ^ m.log2 * 2 ^ shift := Nat.pow_add ..
        _ ≤ m * 2 ^ shift := Nat.mul_le_mul_right _ (Nat.log2_self_le (Nat.ne_of_gt hm))
      have hquotient : 2 ^ 52 ≤ m * 2 ^ shift / m' := by
        refine (Nat.le_div_iff_mul_le hm').mpr (Nat.le_trans ?_ hpower)
        rw [Nat.pow_add]
        exact Nat.mul_le_mul_left _ Nat.lt_log2_self.le
      have hlog : 52 ≤ (m * 2 ^ shift / m').log2 :=
        (Nat.le_log2 (Nat.ne_of_gt (Nat.lt_of_lt_of_le (by decide) hquotient))).mpr hquotient
      omega

/-! ## Numbers that the reader begins with -/

/-- No power of ten up to the 308th comes near to the overflow. -/
theorem ten_pow_lt_overflow {k : Nat} (h : k ≤ 308) : (10 : ℚ) ^ k < overflow := by
  have hexponent : (2 : ℚ) ^ (969 : Int) = 2 ^ 969 := zpow_natCast 2 969
  calc (10 : ℚ) ^ k ≤ 10 ^ (44 * 7) := pow_le_pow_right₀ (by norm_num) h
    _ = (10 ^ 44) ^ 7 := pow_mul ..
    _ < (18 * 2 ^ 142) ^ 7 := pow_lt_pow_left₀ (by norm_num) (by norm_num) (by norm_num)
    _ = 18 ^ 7 * 2 ^ (25 + 969) := by rw [mul_pow, ← pow_mul]
    _ = 18 ^ 7 * 2 ^ 25 * 2 ^ (969 : Int) := by rw [pow_add, hexponent, mul_assoc]
    _ ≤ overflow := by
      refine mul_le_mul_of_nonneg_right ?_ (two_zpow_pos _).le
      simp only [leadingBit]
      norm_num

/-- **A natural number is converted to the nearest double.** -/
theorem nearest_natural {n : Nat} (hpos : 0 < n) (h : n < UInt64.size) :
    Nearest n.toUInt64.toFloat n := by
  have hword : n.toUInt64.toNat = n := UInt64.toNat_ofNat_of_lt h
  have hvalue : value (n * 2 ^ (52 - n.log2)) (0 - ((52 - n.log2 : Nat) : Int)) = n := by
    rw [value, zero_sub, Nat.cast_mul, Nat.cast_pow, Nat.cast_ofNat, zpow_neg, zpow_natCast,
      mul_assoc, mul_inv_cancel₀ (by positivity), mul_one]
  have hround : n.toUInt64.toFloat = .ofModel (Float.Model.pack (roundWithAccuracy .binary64
      .positive (n * 2 ^ (52 - n.log2)) (0 - ((52 - n.log2 : Nat) : Int)) .exact)) := by
    have hshift : (0 - Format.binary64.targetExponent (totalExponent n 0)).toNat = 52 - n.log2 := by
      show (0 - max ((n.log2 : Int) + 1 + 0 - 53) (-1074)).toNat = _
      omega
    show Float.ofModel (Float.Model.pack
      (UnpackedFloat.normalize .binary64 n.toUInt64.toNat 0 .positive)) = _
    rw [hword, UnpackedFloat.normalize, Int.compare_eq_gt.mpr (by omega)]
    dsimp only
    rw [Int.toNat_natCast, UnpackedFloat.round, decreaseExponent, hshift, Nat.shiftLeft_eq]
  have hsmall : (n : ℚ) < overflow := by
    refine lt_trans ?_ (ten_pow_lt_overflow (k := 20) (by decide))
    exact_mod_cast Nat.lt_trans h (by decide)
  rw [hround, ← hvalue]
  refine nearest_roundWithAccuracy_exact (.inl ?_) (hvalue ▸ hsmall)
  have hlog := Nat.log2_self_le (Nat.ne_of_gt hpos)
  calc leadingBit = 2 ^ 52 := rfl
    _ ≤ 2 ^ (n.log2 + (52 - n.log2)) := Nat.pow_le_pow_right (by decide) (by omega)
    _ = 2 ^ n.log2 * 2 ^ (52 - n.log2) := Nat.pow_add ..
    _ ≤ n * 2 ^ (52 - n.log2) := Nat.mul_le_mul_right _ hlog

/-- The powers of ten that are looked up in a table. -/
theorem holds_table : ∀ k ≤ 22, ∃ m q, ofFloat (Float.ofScientific 1 false k) = .finite false m q
    ∧ (Interval.ofParts m q).holds k 1 = true := by
  have htable : ∀ k ≤ 22, (match ofFloat (Float.ofScientific 1 false k) with
      | .finite false m q => (Interval.ofParts m q).holds k 1
      | _ => false) = true := by
    decide +kernel
  intro k hk
  have hentry := htable k hk
  rcases hparts : ofFloat (Float.ofScientific 1 false k) with _ | _ | ⟨_ | _, m, q⟩
  all_goals rw [hparts] at hentry
  · cases hentry
  · cases hentry
  · exact ⟨m, q, rfl, hentry⟩
  · cases hentry

/-- **A power of ten is the nearest double**, up to the greatest one that is a double. -/
theorem nearest_ofScientific {k : Nat} (h : k ≤ 308) :
    Nearest (Float.ofScientific 1 false k) (10 ^ k) := by
  by_cases htable : k ≤ 22
  · obtain ⟨m, q, hparts, hholds⟩ := holds_table k htable
    refine ⟨m, q, hparts, ?_⟩
    rwa [Interval.holds_iff, Nat.cast_one, one_mul, zpow_natCast] at hholds
  · have hvalue : value ((1 <<< 53) * 10 ^ k) (-53 + 0) = 10 ^ k := by
      rw [value, Nat.cast_mul, Nat.cast_pow, Nat.cast_ofNat, Nat.shiftLeft_eq]
      norm_num
      ring
    have hround : Float.ofScientific 1 false k = .ofModel (Float.Model.pack
        (roundWithAccuracy .binary64 .positive ((1 <<< 53) * 10 ^ k) (-53 + 0) .exact)) := by
      rw [Float.ofScientific, dif_neg (fun htiny => htable htiny.2)]
      show Float.ofModel (Float.Model.pack (UnpackedFloat.ofScientific .binary64 1 (k : Int))) = _
      have hlarge : ¬ (k : Int) > 2 ^ Format.binary64.exponentBits :=
        show ¬ (k : Int) > 2048 by omega
      have hsmall : ¬ (k : Int) < -(2 ^ Format.binary64.exponentBits + (Nat.log2 1 : Nat)) :=
        show ¬ (k : Int) < -(2048 + (Nat.log2 1 : Nat)) by omega
      rw [UnpackedFloat.ofScientific, dif_neg (show ¬ 1 = 0 by decide), if_neg hlarge,
        if_neg hsmall, if_pos (Int.natCast_nonneg k)]
      rfl
    rw [hround, ← hvalue]
    refine nearest_roundWithAccuracy_exact (.inl ?_) (hvalue ▸ ten_pow_lt_overflow h)
    exact Nat.le_trans (by decide) (Nat.le_mul_of_pos_right (1 <<< 53) (Nat.pow_pos (by decide)))

end Binary64

end AgentSweep
