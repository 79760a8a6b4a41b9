import Mathlib.Algebra.Order.Ring.Nat
import Mathlib.Tactic.Ring
import AgentSweep.Decimal.Shortest

/-!
# Every double has a shortest decimal

A double is finite if and only if it has a significand and an exponent, and these lie in the range
of the format. For such parts the search for the shortest decimal ends with a decimal: twenty-four
grids are enough. The last of them is as fine as a quarter of the last binary place, and the point
below the double on a grid as fine as that lies in the interval of the double.

Both ends of the search are a matter of comparing powers of two with powers of ten. In one
direction `2 ^ 10` is more than `10 ^ 3`, in the other one `2 ^ 93` is less than `10 ^ 28`.
-/

namespace AgentSweep

/-! ## Parts of a double -/

namespace Binary64

/-- The field of the exponent is read off the bits. -/
theorem toNat_unpackExponent (bits : BitVec Float.Model.Format.binary64.numBits) :
    (@Float.Model.UnpackedFloat.unpackExponent .binary64 bits).toNat
      = bits.toNat / leadingBit % 2048 := by
  show ((bits.extractLsb 62 52).cast _).toNat = _
  rw [BitVec.toNat_cast, BitVec.extractLsb_toNat, Nat.shiftRight_eq_div_pow]
  rfl

/-- A double is finite unless all bits of its exponent are set. -/
theorem isFinite_eq (x : Float) :
    x.isFinite = decide (x.toBits.toNat / leadingBit % 2048 ≠ 2047) := by
  show (Float.Model.UnpackedFloat.unpack .binary64 x.toModel.toBits.toBitVec).isFinite
    = decide (x.toModel.toBits.toBitVec.toNat / leadingBit % 2048 ≠ 2047)
  generalize x.toModel.toBits.toBitVec = bits
  rw [← toNat_unpackExponent bits, ← show (-1#11).toNat = 2047 from rfl]
  unfold Float.Model.UnpackedFloat.unpack
  dsimp only
  by_cases hset : @Float.Model.UnpackedFloat.unpackExponent .binary64 bits = -1#11
  · rw [if_pos hset, hset]
    split <;> rfl
  · have hexponent : (@Float.Model.UnpackedFloat.unpackExponent .binary64 bits).toNat
        ≠ (-1#11).toNat := fun h => hset (BitVec.eq_of_toNat_eq h)
    rw [if_neg hset, decide_eq_true hexponent]
    by_cases hleast : @Float.Model.UnpackedFloat.unpackExponent .binary64 bits = 0#11
    · rw [if_pos hleast]
      by_cases hzero : @Float.Model.UnpackedFloat.unpackMantissa .binary64 bits = 0#52
      · rw [dif_pos hzero]
        rfl
      · rw [dif_neg hzero]
        rfl
    · rw [if_neg hleast]
      rfl

/-- **A double is finite if and only if it has a significand and an exponent.** -/
theorem isFinite_iff (x : Float) :
    x.isFinite = true ↔ ∃ negative m q, ofFloat x = .finite negative m q := by
  rw [isFinite_eq, decide_eq_true_eq]
  unfold ofFloat
  dsimp only
  split_ifs with hfield hfraction hsubnormal <;> simp [hfield]

/-- **The parts of a double are in the range of the format.** -/
theorem bounds_of_ofFloat {x : Float} {negative : Bool} {m : Nat} {q : Int}
    (h : ofFloat x = .finite negative m q) :
    m < 2 * leadingBit ∧ leastExponent ≤ q ∧ q ≤ 971 := by
  have hfraction := Nat.mod_lt x.toBits.toNat (show 0 < leadingBit by decide)
  have hfield := Nat.mod_lt (x.toBits.toNat / leadingBit) (show 0 < 2048 by decide)
  unfold ofFloat at h
  simp only [leastExponent] at h ⊢
  split_ifs at h
  all_goals
    obtain ⟨-, rfl, rfl⟩ := Binary64.finite.inj h
    omega

end Binary64

/-! ## Powers of two and of ten -/

theorem pow_ten_le_pow_two {k n : Nat} (h : 10 * k ≤ 3 * n) : 10 ^ k ≤ 2 ^ n := by
  have hcube : (10 ^ k) ^ 3 ≤ (2 ^ n) ^ 3 := calc
    (10 ^ k) ^ 3 = 1000 ^ k := by rw [← Nat.pow_mul, Nat.mul_comm, Nat.pow_mul]
    _ ≤ 1024 ^ k := Nat.pow_le_pow_left (by decide) k
    _ = 2 ^ (10 * k) := by rw [Nat.pow_mul]
    _ ≤ 2 ^ (3 * n) := Nat.pow_le_pow_right (by decide) h
    _ = (2 ^ n) ^ 3 := by rw [← Nat.pow_mul, Nat.mul_comm]
  exact (Nat.pow_le_pow_iff_left (by decide)).mp hcube

theorem pow_two_le_pow_ten {n k : Nat} (h : 28 * n ≤ 93 * k) : 2 ^ n ≤ 10 ^ k := by
  have hpower : (2 ^ n) ^ 28 ≤ (10 ^ k) ^ 28 := calc
    (2 ^ n) ^ 28 = 2 ^ (28 * n) := by rw [← Nat.pow_mul, Nat.mul_comm]
    _ ≤ 2 ^ (93 * k) := Nat.pow_le_pow_right (by decide) h
    _ = (2 ^ 93) ^ k := by rw [Nat.pow_mul]
    _ ≤ (10 ^ 28) ^ k := Nat.pow_le_pow_left (by decide) k
    _ = (10 ^ k) ^ 28 := by rw [← Nat.pow_mul, Nat.mul_comm, Nat.pow_mul]
  exact (Nat.pow_le_pow_iff_left (by decide)).mp hpower

/-! ## The search -/

namespace Interval

variable {i : Interval} {tie : Tie} {p : Int}

theorem scale_snd_pos (i : Interval) (p : Int) : 0 < (i.scale p).2 :=
  Nat.mul_pos (Nat.pow_pos (by decide)) (Nat.pow_pos (by decide))

/-- A grid that is as fine as a quarter of the last binary place has a point in the interval. -/
theorem isSome_point? (hlower : i.lower < i.centre) (hupper : i.centre < i.upper)
    (hfine : (i.scale p).2 ≤ (i.scale p).1) (tie : Tie) : (i.point? tie p).isSome = true := by
  have hden := i.scale_snd_pos p
  have hheld : (decide (0 < i.centre * (i.scale p).1 / (i.scale p).2)
      && i.holds p (i.centre * (i.scale p).1 / (i.scale p).2)) = true := by
    unfold holds
    dsimp only
    generalize (i.scale p).1 = num at *
    generalize (i.scale p).2 = den at *
    have hbelow := Nat.div_mul_le_self (i.centre * num) den
    have habove := Nat.lt_div_mul_add (a := i.centre * num) hden
    have hfirst : (i.lower + 1) * num ≤ i.centre * num := Nat.mul_le_mul_right num hlower
    have hlast : (i.centre + 1) * num ≤ i.upper * num := Nat.mul_le_mul_right num hupper
    have hpositive : 0 < i.centre * num / den :=
      Nat.div_pos (le_trans hfine (Nat.le_mul_of_pos_left num (by omega))) hden
    rw [Nat.add_mul, Nat.one_mul] at hfirst hlast
    generalize i.centre * num / den * den = low at *
    split_ifs <;> simp only [Bool.and_eq_true, decide_eq_true_eq] <;> omega
  unfold point?
  dsimp only
  rw [hheld]
  split
  · contradiction
  · rfl
  · rfl
  · split_ifs <;> first | rfl | (cases tie <;> rfl)

/-- A decimal other than zero stands for a double. -/
theorem point?_pos {n : Nat} (h : i.point? tie p = some n) : 0 < n := by
  unfold point? at h
  dsimp only at h
  split at h
  · cases h
  · next hlow _ =>
    cases h
    exact of_decide_eq_true (Bool.and_eq_true_iff.mp hlow).1
  · cases h
    exact Nat.succ_pos _
  · next hlow _ =>
    have hlow := of_decide_eq_true (Bool.and_eq_true_iff.mp hlow).1
    split_ifs at h
    · cases h
      exact hlow
    · cases h
      exact Nat.succ_pos _
    all_goals cases tie <;> cases h <;> omega

/-- The search finds a decimal other than zero if one of its grids has a point. -/
theorem digits_search_pos {grids k : Nat} (hk : k < grids)
    (h : (i.point? tie (p - k)).isSome = true) : 0 < (i.search tie p grids).digits := by
  induction grids generalizing p k with
  | zero => exact absurd hk (Nat.not_lt_zero k)
  | succ grids ih =>
    rw [search]
    split
    · next n hn => exact point?_pos hn
    · next hnone =>
      cases k with
      | zero =>
        rw [Nat.cast_zero, sub_zero, hnone] at h
        cases h
      | succ k =>
        refine ih (Nat.lt_of_succ_lt_succ hk) ?_
        rwa [show p - 1 - (k : Int) = p - (k + 1 : Nat) by push_cast; ring]

/-- **Twenty-four grids are enough.** The last grid on which a decimal is looked for is as fine as a
quarter of the last binary place. -/
theorem scale_coarse_le {m : Nat} {q : Int} (hm : 0 < m) (hlt : m < 2 * Binary64.leadingBit)
    (hleast : Binary64.leastExponent ≤ q) (hq : q ≤ 971) :
    ((ofParts m q).scale ((ofParts m q).coarse - 23)).2
      ≤ ((ofParts m q).scale ((ofParts m q).coarse - 23)).1 := by
  have hlog : (4 * m + 2).log2 < 55 := by
    rw [Nat.log2_lt (by omega)]
    simp only [Binary64.leadingBit] at hlt
    omega
  simp only [scale, coarse, ofParts, Nat.pow_eq]
  simp only [Binary64.leastExponent] at hleast
  generalize (4 * m + 2).log2 = log at *
  generalize hp : ((log : Int) + 1 + (q - 2)) * 30103 / 100000 + 2 - 23 = p
  rcases Int.lt_or_le (q - 2) 0 with hneg | hpos
  · have hpow := pow_two_le_pow_ten (n := (-(q - 2)).toNat) (k := (-p).toNat) (by omega)
    rw [show (q - 2).toNat = 0 by omega, show p.toNat = 0 by omega]
    simpa only [Nat.pow_zero, Nat.mul_one, Nat.one_mul] using hpow
  · have hpow := pow_ten_le_pow_two (k := p.toNat) (n := (q - 2).toNat) (by omega)
    rw [show (-(q - 2)).toNat = 0 by omega, Nat.pow_zero, Nat.one_mul]
    exact le_trans hpow (Nat.le_mul_of_pos_right _ (Nat.pow_pos (by decide)))

end Interval

/-- **The shortest decimal of a double other than zero is not zero.** -/
theorem Decimal.digits_shortest_pos (tie : Tie) {m : Nat} {q : Int} (hm : 0 < m)
    (hlt : m < 2 * Binary64.leadingBit) (hleast : Binary64.leastExponent ≤ q) (hq : q ≤ 971) :
    0 < (Decimal.shortest tie m q).digits := by
  rw [shortest, if_neg (Nat.ne_of_gt hm)]
  have hlower : (Interval.ofParts m q).lower < (Interval.ofParts m q).centre := by
    simp only [Interval.ofParts]
    split <;> omega
  have hupper : (Interval.ofParts m q).centre < (Interval.ofParts m q).upper := by
    simp only [Interval.ofParts]
    omega
  exact Interval.digits_search_pos (k := 23) (by decide)
    (Interval.isSome_point? hlower hupper (Interval.scale_coarse_le hm hlt hleast hq) tie)

end AgentSweep
