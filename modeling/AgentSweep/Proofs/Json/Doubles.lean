import AgentSweep.Json.Number
import AgentSweep.Proofs.Decimal.Doubles
import AgentSweep.Proofs.Json.Literals

/-!
# Doubles are written as numbers

How a finite double is written is a number of the strict grammar, so that it is read back as that
literal. What could go wrong is a row of zeros before the point. It does not come about, since the
shortest decimal of a double other than zero is not zero, and zero itself is written without
places.
-/

namespace AgentSweep

/-- A decimal that is written without a row of zeros in front: zero has no places. -/
def Decimal.Trim (d : Decimal) : Prop := d.digits = 0 → d.exponent = 0

namespace NumberLiteral

variable {d : Decimal}

theorem isDigit_of_mem_digitChars {c : Char} (h : c ∈ d.digitChars) : c.isDigit = true :=
  isDigit_of_mem_toDigits h

theorem isDigit_of_mem_replicate {c : Char} {count : Nat} (h : c ∈ List.replicate count '0') :
    c.isDigit = true := by
  rw [(List.mem_replicate.mp h).2]
  rfl

/-- The digits of a decimal are a zero alone or begin with another digit. -/
theorem digitChars_cases (d : Decimal) :
    (d.digits = 0 ∧ d.digitChars = ['0'])
      ∨ ∃ c rest, d.digitChars = c :: rest ∧ c ≠ '0' := by
  rcases Nat.eq_zero_or_pos d.digits with hzero | hpos
  · refine .inl ⟨hzero, ?_⟩
    rw [Decimal.digitChars, hzero, Nat.toDigits_zero]
  · exact .inr (exists_toDigits_eq_cons (Nat.ne_of_gt hpos))

/-- The digits before the point are a whole part of the strict grammar. -/
theorem positional_fst_cases (h : d.Trim) :
    d.positional.1 = ['0'] ∨ ∃ c rest, d.positional.1 = c :: rest ∧ c ≠ '0' := by
  unfold Decimal.positional
  dsimp only
  split_ifs with hwhole hplaces
  · rcases digitChars_cases d with ⟨hzero, hdigits⟩ | ⟨c, rest, hdigits, hc⟩
    · left
      simp only [hdigits, h hzero]
      rfl
    · right
      exact ⟨c, _, by rw [hdigits, List.cons_append], hc⟩
  · right
    rcases digitChars_cases d with ⟨-, hdigits⟩ | ⟨c, rest, hdigits, hc⟩
    · rw [hdigits, List.length_singleton] at hplaces
      exact absurd (Nat.lt_one_iff.mp hplaces) hwhole
    · have htake : (c :: rest).length - (-d.exponent).toNat ≠ 0 := by
        rw [← hdigits]
        omega
      obtain ⟨count, hcount⟩ := Nat.exists_eq_succ_of_ne_zero htake
      refine ⟨c, rest.take count, ?_, hc⟩
      simp only [hdigits, hcount, List.take_succ_cons]
  · exact .inl rfl

theorem isDigit_of_mem_positional {c : Char} (h : c ∈ d.positional.1 ∨ c ∈ d.positional.2) :
    c.isDigit = true := by
  unfold Decimal.positional at h
  dsimp only at h
  split_ifs at h
  · rcases h with h | h
    · rcases List.mem_append.mp h with h | h
      · exact isDigit_of_mem_digitChars h
      · exact isDigit_of_mem_replicate h
    · cases h
  · rcases h with h | h
    · exact isDigit_of_mem_digitChars (List.mem_of_mem_take h)
    · exact isDigit_of_mem_digitChars (List.mem_of_mem_drop h)
  · rcases h with h | h
    · rw [List.mem_singleton.mp h]
      rfl
    · rcases List.mem_append.mp h with h | h
      · exact isDigit_of_mem_replicate h
      · exact isDigit_of_mem_digitChars h

/-- **A decimal is written as a number of the strict grammar.** -/
theorem sound_ofDecimal (negative : Bool) (h : d.Trim) : (ofDecimal negative d).Sound := by
  unfold ofDecimal
  dsimp only
  split
  · have hcases := positional_fst_cases h
    have hdigits (c : Char) := isDigit_of_mem_positional (d := d) (c := c)
    split
    · next whole hpositional =>
      rw [hpositional] at hcases hdigits
      exact ⟨fun c hc => hdigits c (.inl hc), hcases, by simp, by simp⟩
    · next whole fraction _ hpositional =>
      rw [hpositional] at hcases hdigits
      exact ⟨fun c hc => hdigits c (.inl hc), hcases, fun c hc => hdigits c (.inr hc), by simp⟩
  · refine ⟨fun c hc => isDigit_of_mem_digitChars (List.mem_of_mem_take hc), ?_,
      fun c hc => isDigit_of_mem_digitChars (List.mem_of_mem_drop hc), ?_⟩
    · rcases digitChars_cases d with ⟨-, hdigits⟩ | ⟨c, rest, hdigits, hc⟩
      · exact .inl (by rw [hdigits]; rfl)
      · exact .inr ⟨c, [], by rw [hdigits]; rfl, hc⟩
    · intro sign row hrow
      cases hrow
      exact ⟨Nat.toDigits_ne_nil, fun c => isDigit_of_mem_toDigits⟩

/-- **A double is written as a number of the strict grammar**, if it is finite. -/
theorem sound_ofFloat? {x : Float} {n : NumberLiteral} (h : ofFloat? x = some n) : n.Sound := by
  unfold ofFloat? at h
  split at h
  · next negative m q hparts =>
    cases h
    obtain ⟨hlt, hleast, hq⟩ := Binary64.bounds_of_ofFloat hparts
    refine sound_ofDecimal negative fun hzero => ?_
    rcases Nat.eq_zero_or_pos m with rfl | hpos
    · rfl
    · exact absurd hzero (Nat.ne_of_gt (Decimal.digits_shortest_pos .even hpos hlt hleast hq))
  · cases h

/-- A double has a written form if and only if it is finite. -/
theorem isSome_ofFloat? (x : Float) : (ofFloat? x).isSome = x.isFinite := by
  rw [Bool.eq_iff_iff, Binary64.isFinite_iff]
  unfold ofFloat?
  split
  · next hparts => simp [hparts]
  · next hparts => simpa using hparts

end NumberLiteral

end AgentSweep
