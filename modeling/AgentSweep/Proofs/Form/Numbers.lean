import AgentSweep.Proofs.Form.Values
import AgentSweep.Proofs.Json.Rereading

/-!
# How numbers are read back

The digits of a finite number stand for no other double, but the reader does not look for the double
that they stand for: it converts the digits that it has collected, and multiplies or divides by a
power of ten. It never fails to find a number so, and never one that is more than two doubles away
(`Value.read?_written_number_near`). It finds the number itself if none of its steps is rounded.
Otherwise it may miss it, and does so even for some whole numbers
(`Value.read?_written_whole_number`).
-/

namespace AgentSweep

namespace Value

open Binary64 NumberLiteral

/-- A number is read back as its literal is read. -/
theorem read?_written_of_ofFloat? {x y : Float} {n : NumberLiteral} (hn : ofFloat? x = some n)
    (hy : n.toFloat? = some y) : read? (number x).written = some (number y) := by
  rw [read?_written_number, reread?, numberToJson, hn]
  show n.toFloat?.map number = _
  rw [hy, Option.map_some]

/-- Finite doubles that lie near each other have the same sign: between the signs there are the bits
of what is not finite. -/
theorem sign_eq_of_near {x y : Float} (hx : x.isFinite = true) (hy : y.isFinite = true)
    (hnear : ((y.toBits.toNat : Int) - x.toBits.toNat).natAbs ≤ 2) :
    y.toBits.toNat / 2 ^ 63 = x.toBits.toNat / 2 ^ 63 := by
  rw [isFinite_eq, decide_eq_true_eq, leadingBit] at hx hy
  have hxbits := x.toBits.toNat_lt
  have hybits := y.toBits.toNat_lt
  omega

/-- **A finite number is read back as one of its neighbours.** Let `x` be finite. Its text is read
as a finite number with the sign of `x` whose bits, taken as a natural number, differ from those of
`x` by two at most. The number is `x` itself if no step of the reader is rounded: if its significand
has no more than 53 binary digits before the zeros at its end, and its power of ten is one of the
first 22 either way. This holds of the whole numbers of either sign below a fifth of `2 ^ 53`, which
include both zeros. -/
theorem read?_written_number_near {x : Float} (h : x.isFinite = true) :
    ∃ n y, ofFloat? x = some n
      ∧ read? (number x).written = some (number y) ∧ y.isFinite = true
      ∧ y.toBits.toNat / 2 ^ 63 = x.toBits.toNat / 2 ^ 63
      ∧ ((y.toBits.toNat : Int) - x.toBits.toNat).natAbs ≤ 2
      ∧ (∀ digits zeros : Nat, n.scaled.significand = digits * 2 ^ zeros → digits < 2 ^ 53 →
        n.scaled.exponent.natAbs ≤ 22 → y = x)
      ∧ ∀ k : Nat, 5 * k < 2 ^ 53 → x = k.toUInt64.toFloat ∨ x = -k.toUInt64.toFloat → y = x := by
  obtain ⟨negative, m, q, hparts⟩ := (isFinite_iff x).mp h
  obtain ⟨n, hn, rfl, hscaled⟩ := exists_ofFloat?_eq hparts
  obtain ⟨htwo, hzero⟩ := readsWithin_collected (toNat_toBits_of_ofFloat hparts).2 hscaled.symm
  obtain ⟨y, hy, hfinite, hnear⟩ := htwo.exists_toFloat?_eq hparts
  have hexact (digits zeros : Nat) (hdigits : n.scaled.significand = digits * 2 ^ zeros)
      (hless : digits < 2 ^ 53) (hexponent : n.scaled.exponent.natAbs ≤ 22) : y = x := by
    obtain ⟨z, hz, -, hsame⟩ :=
      (hzero digits zeros hdigits hless hexponent).exists_toFloat?_eq hparts
    rw [← Option.some.inj (hy.symm.trans hz)] at hsame
    exact eq_of_toBits_eq (UInt64.toNat_inj.mp (by omega))
  refine ⟨n, y, hn, read?_written_of_ofFloat? hn hy, hfinite, sign_eq_of_near h hfinite hnear,
    hnear, hexact, fun k hk hx => ?_⟩
  -- the zero after the point of a whole number makes its digits ten times as large
  have hnatural := scaled_natural hn (by rw [leadingBit]; omega) hx
  refine hexact (5 * k) 1 ?_ hk ?_
  · rw [hnatural]
    show 10 * k = 5 * k * 2 ^ 1
    omega
  · rw [hnatural]
    exact (show 1 ≤ 22 by decide)

/-- The digits of a tenth are read in one step that is not rounded on the way. -/
theorem read?_written_number_near_tenth :
    (0.1 : Float).isFinite = true ∧ read? (number 0.1).written = some (number 0.1) := by
  have hfinite : (0.1 : Float).isFinite = true := by decide +kernel
  refine ⟨hfinite, ?_⟩
  obtain ⟨n, y, hn, hread, -, -, -, hexact, -⟩ := read?_written_number_near hfinite
  have hscaled : (ofFloat? 0.1).map scaled = some ⟨1, -1⟩ := by decide +kernel
  rw [hn, Option.map_some, Option.some.injEq] at hscaled
  have hy : y = 0.1 := hexact 1 0 (by rw [hscaled]; rfl) (by decide) (by rw [hscaled]; decide)
  rwa [hy] at hread

/-- **A whole number below `2 ^ 53` is read as the one before it.** The zero after its point makes
for a significand of more than 53 binary digits. -/
theorem read?_written_whole_number :
    (9007199254740991 : Float).isFinite = true
      ∧ read? (number 9007199254740991).written = some (number 9007199254740990)
      ∧ read? (number 9007199254740991).written ≠ some (number 9007199254740991) := by
  have hread : read? (number 9007199254740991).written = some (number 9007199254740990) := by
    have hdigits : (numberToJson 9007199254740991).float? = some 9007199254740990 := by
      decide +kernel
    rw [read?_written_number, reread?, hdigits, Option.map_some]
  refine ⟨by decide +kernel, hread, ?_⟩
  rw [hread]
  intro hsame
  have hne : (9007199254740990 : Float) ≠ 9007199254740991 := by decide +kernel
  exact hne (Value.number.inj (Option.some.inj hsame))

end Value

end AgentSweep
