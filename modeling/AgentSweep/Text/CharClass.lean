/-!
# Classes of characters

A class of characters is given by the ranges of its code points. Besides the look-up this module
says when a table of ranges is well laid out: each range is below the next one, and a gap is
between them, so that no table says the same thing in two ways.
-/

namespace AgentSweep

/-- **A range of code points**, both ends included. -/
abbrev CodeRange := Nat × Nat

namespace CodeRange

/-- Whether the ranges ascend, with at least one code point between any two of them. -/
def ascend : List CodeRange → Bool
  | [] => true
  | [(first, last)] => first ≤ last
  | (first, last) :: next :: rest =>
    first ≤ last && last + 1 < next.1 && ascend (next :: rest)

end CodeRange

/-- **A class of characters.** -/
structure CharClass where
  ranges : List CodeRange
  ascending : CodeRange.ascend ranges = true

namespace CharClass

/-- Whether a character belongs to a class. -/
def holds (k : CharClass) (c : Char) : Bool :=
  k.ranges.any fun (first, last) => first ≤ c.toNat && c.toNat ≤ last

/-- A character belongs to a class when one of the ranges has its code point. -/
theorem holds_iff {k : CharClass} {c : Char} :
    k.holds c = true ↔ ∃ r ∈ k.ranges, r.1 ≤ c.toNat ∧ c.toNat ≤ r.2 := by
  simp [holds, List.any_eq_true]

end CharClass

end AgentSweep
