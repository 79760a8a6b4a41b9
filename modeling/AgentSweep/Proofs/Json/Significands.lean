import AgentSweep.Proofs.Decimal.Intervals
import AgentSweep.Proofs.Json.Doubles

/-!
# What a reader collects from a written decimal

A decimal is written with its digits in their places, or with an exponent. A reader that has room
for them collects the digits of the decimal again. If they are written as a whole number, it also
collects the zeros that make up its places, and the one after the point
(`NumberLiteral.scaled_ofDecimal`).
-/

namespace AgentSweep

namespace NumberLiteral

variable {d : Decimal}

/-! ## Digits that have room -/

/-- Further digits make a number no smaller. -/
theorem le_ofDigitChars (chars : List Char) (n : Nat) : n ≤ Nat.ofDigitChars 10 chars n := by
  rw [Nat.ofDigitChars_eq_ofDigitChars_zero]
  exact Nat.le_trans (Nat.le_mul_of_pos_left n (Nat.pow_pos (by decide))) (Nat.le_add_right ..)

/-- Digits of the whole part that have room are collected. -/
theorem takeWhole_eq {chars : List Char} {n : Nat}
    (h : Nat.ofDigitChars 10 chars n < UInt64.size) :
    takeWhole n chars = ⟨Nat.ofDigitChars 10 chars n, 0⟩ := by
  induction chars generalizing n with
  | nil => rfl
  | cons c rest ih =>
    rw [Nat.ofDigitChars_cons] at h ⊢
    rw [takeWhole, if_pos (Nat.lt_of_le_of_lt (le_ofDigitChars rest _) h), ih h]

/-- Digits of the fraction that have room are collected, and each one divides by ten. -/
theorem takeFraction_eq {chars : List Char} {n : Nat} {exponent : Int}
    (h : Nat.ofDigitChars 10 chars n < UInt64.size) :
    takeFraction ⟨n, exponent⟩ chars
      = ⟨Nat.ofDigitChars 10 chars n, exponent - chars.length⟩ := by
  induction chars generalizing n exponent with
  | nil => simp [takeFraction]
  | cons c rest ih =>
    rw [Nat.ofDigitChars_cons] at h ⊢
    rw [takeFraction, if_pos (Nat.lt_of_le_of_lt (le_ofDigitChars rest _) h), ih h,
      List.length_cons]
    congr 1
    push_cast
    ring

/-- **A number whose digits all have room is collected in full.** -/
theorem scaled_eq {n : NumberLiteral}
    (h : Nat.ofDigitChars 10 (n.whole ++ n.fraction) 0 < UInt64.size) :
    n.scaled = ⟨Nat.ofDigitChars 10 (n.whole ++ n.fraction) 0,
      n.writtenExponent - n.fraction.length⟩ := by
  rw [Nat.ofDigitChars_append] at h ⊢
  have hwhole := Nat.lt_of_le_of_lt (le_ofDigitChars n.fraction _) h
  rw [scaled, takeWhole_eq hwhole, takeFraction_eq h]
  congr 1
  ring

/-! ## The digits of a decimal -/

theorem ofDigitChars_digitChars (d : Decimal) : Nat.ofDigitChars 10 d.digitChars 0 = d.digits :=
  Nat.ofDigitChars_ten_toDigits

/-- **The significand and the power of ten of a written decimal.** A whole number is written in full
and with one zero after the point. -/
def collected (d : Decimal) : Scaled :=
  if isPositional d.leadingExponent ∧ 0 ≤ d.exponent then
    ⟨10 ^ (d.exponent.toNat + 1) * d.digits, -1⟩
  else ⟨d.digits, d.exponent⟩

theorem length_digitChars_pos (d : Decimal) : 0 < d.digitChars.length :=
  List.length_pos_iff.mpr Nat.toDigits_ne_nil

/-- How a decimal is written in its places: its digits are those of the decimal, with zeros in front
or behind. -/
theorem positional_spec (d : Decimal) :
    (0 ≤ d.exponent ∧ d.positional.2 = []
        ∧ Nat.ofDigitChars 10 d.positional.1 0 = 10 ^ d.exponent.toNat * d.digits)
      ∨ (d.exponent < 0 ∧ (d.positional.2.length : Int) = -d.exponent
        ∧ Nat.ofDigitChars 10 (d.positional.1 ++ d.positional.2) 0 = d.digits) := by
  have hdigits := ofDigitChars_digitChars d
  have hlength := length_digitChars_pos d
  unfold Decimal.positional
  dsimp only
  split_ifs with hwhole hplaces
  · refine .inl ⟨by omega, rfl, ?_⟩
    rw [Nat.ofDigitChars_append, hdigits, Nat.ofDigitChars_replicate_zero]
  · refine .inr ⟨by omega, ?_, ?_⟩
    · rw [List.length_drop]
      omega
    · rw [List.take_append_drop, hdigits]
  · refine .inr ⟨by omega, ?_, ?_⟩
    · rw [List.length_append, List.length_replicate]
      omega
    · rw [Nat.ofDigitChars_append, Nat.ofDigitChars_append, Nat.ofDigitChars_replicate_zero]
      exact hdigits

/-- The exponent that is written is the one of the leading digit. -/
theorem writtenExponent_eq (negative : Bool) (whole fraction : List Char) (exponent : Int) :
    writtenExponent ⟨negative, whole, fraction,
      some (decide (exponent < 0), Nat.toDigits 10 exponent.natAbs)⟩ = exponent := by
  simp only [writtenExponent, Nat.ofDigitChars_ten_toDigits, decide_eq_true_eq]
  split <;> omega

/-- **A reader that has room for its digits collects a written decimal in full.** -/
theorem scaled_ofDecimal (negative : Bool) (h : (collected d).significand < UInt64.size) :
    (ofDecimal negative d).scaled = collected d := by
  have hlength := length_digitChars_pos d
  unfold collected at h ⊢
  unfold ofDecimal
  dsimp only
  by_cases hpositional : isPositional d.leadingExponent
  · rw [if_pos hpositional]
    have hspec := positional_spec d
    generalize d.positional = pair at *
    obtain ⟨whole, fraction⟩ := pair
    rcases hspec with ⟨hexponent, hnil, hdigits⟩ | ⟨hexponent, hplaces, hdigits⟩
    · rw [if_pos ⟨hpositional, hexponent⟩] at h ⊢
      cases hnil
      have hall : Nat.ofDigitChars 10 (whole ++ ['0']) 0
          = 10 ^ (d.exponent.toNat + 1) * d.digits := by
        rw [Nat.ofDigitChars_append, hdigits, Nat.pow_succ, Nat.mul_right_comm, Nat.mul_comm _ 10]
        rfl
      show scaled ⟨negative, whole, ['0'], none⟩ = _
      rw [scaled_eq (by rw [hall]; exact h), hall]
      rfl
    · rw [if_neg (fun hwhole => absurd hwhole.2 (not_le.mpr hexponent))] at h ⊢
      cases fraction with
      | nil =>
        rw [List.length_nil] at hplaces
        omega
      | cons c rest =>
        show scaled ⟨negative, whole, c :: rest, none⟩ = _
        rw [scaled_eq (by rw [hdigits]; exact h), hdigits, hplaces]
        simp [writtenExponent]
  · rw [if_neg hpositional]
    rw [if_neg (fun hwhole => hpositional hwhole.1)] at h ⊢
    have hdigits : Nat.ofDigitChars 10 (d.digitChars.take 1 ++ d.digitChars.drop 1) 0
        = d.digits := by
      rw [List.take_append_drop, ofDigitChars_digitChars]
    rw [scaled_eq (by rw [hdigits]; exact h), hdigits, writtenExponent_eq]
    congr 1
    rw [Decimal.leadingExponent, List.length_drop]
    omega

/-- The collected significand and power of ten are the decimal. -/
theorem collected_value (d : Decimal) :
    ((collected d).significand : ℚ) * 10 ^ (collected d).exponent
      = d.digits * 10 ^ d.exponent := by
  unfold collected
  split
  · next hwhole =>
    obtain ⟨places, hplaces⟩ := Int.eq_ofNat_of_zero_le hwhole.2
    rw [hplaces, Int.toNat_natCast]
    push_cast
    rw [zpow_natCast, pow_succ]
    norm_num
    ring
  · rfl

/-- The zeros of a whole number have room, since there are at most sixteen digits before its
point. -/
theorem significand_collected_lt (h : d.digits < UInt64.size) :
    (collected d).significand < UInt64.size := by
  unfold collected
  split
  · next hwhole =>
    have hplaces : d.exponent + d.digitChars.length - 1 ≤ 15 :=
      of_decide_eq_true (Bool.and_eq_true_iff.mp hwhole.1).2
    have hdigits : d.digits < 10 ^ d.digitChars.length :=
      (Nat.length_toDigits_le_iff (by decide) (length_digitChars_pos d)).mp le_rfl
    calc 10 ^ (d.exponent.toNat + 1) * d.digits
        < 10 ^ (d.exponent.toNat + 1) * 10 ^ d.digitChars.length :=
          Nat.mul_lt_mul_of_pos_left hdigits (Nat.pow_pos (by decide))
      _ = 10 ^ (d.exponent.toNat + 1 + d.digitChars.length) := (Nat.pow_add ..).symm
      _ ≤ 10 ^ 17 := Nat.pow_le_pow_right (by decide) (by omega)
      _ < UInt64.size := by decide
  · exact h

theorem significand_collected_pos (h : 0 < d.digits) : 0 < (collected d).significand := by
  unfold collected
  split
  · exact Nat.mul_pos (Nat.pow_pos (by decide)) h
  · exact h

end NumberLiteral

end AgentSweep
