/-!
# What a double stands for

A finite double is a sign and a number `m * 2 ^ q` with a natural significand `m` below `2 ^ 53`.
This module reads these parts out of the bits.
-/

namespace AgentSweep

/-- **The parts of a double.** -/
inductive Binary64 where
  | nan
  | infinite (negative : Bool)
  /-- The number `significand * 2 ^ exponent`, with a sign. -/
  | finite (negative : Bool) (significand : Nat) (exponent : Int)
deriving DecidableEq, Repr

namespace Binary64

/-- The significand of a normal number before its fraction is added. -/
def leadingBit : Nat := 0x10000000000000

/-- The exponent of the subnormal numbers, which is the least one. -/
def leastExponent : Int := -1074

/-- The parts of a double. -/
def ofFloat (x : Float) : Binary64 :=
  let bits := x.toBits.toNat
  let negative := bits / 0x8000000000000000 == 1
  let field := bits / leadingBit % 2048
  let fraction := bits % leadingBit
  if field = 2047 then
    if fraction = 0 then infinite negative else nan
  else if field = 0 then finite negative fraction leastExponent
  else finite negative (leadingBit + fraction) (leastExponent + (field - 1 : Nat))

end Binary64

end AgentSweep
