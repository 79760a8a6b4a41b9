/-!
# Hexadecimal digits
-/

namespace AgentSweep

namespace Hexadecimal

/-- The value of a hexadecimal digit of either case. -/
def value? (c : Char) : Option Nat :=
  if '0' ≤ c ∧ c ≤ '9' then some (c.toNat - '0'.toNat)
  else if 'a' ≤ c ∧ c ≤ 'f' then some (c.toNat - 'a'.toNat + 10)
  else if 'A' ≤ c ∧ c ≤ 'F' then some (c.toNat - 'A'.toNat + 10)
  else none

/-- The number that a row of digits stands for. -/
def number? (digits : List Char) : Option Nat :=
  (digits.mapM value?).map fun values => values.foldl (fun n d => 16 * n + d) 0

/-- The last digits of a number, as many as are asked for, in lower case. -/
def digits (n : Nat) : Nat → List Char
  | 0 => []
  | count + 1 => digits (n / 16) count ++ [Nat.digitChar (n % 16)]

end Hexadecimal

end AgentSweep
