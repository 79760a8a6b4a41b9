import AgentSweep.Decimal.Shortest
import AgentSweep.Json.Literal

/-!
# Doubles in JSON

A double is written in the fewest digits that read back as it. Between `1e-5` and `1e16` the digits
are positional, with at least one after the point; other doubles have an exponent with its sign.
What is not finite has no number.

Reading keeps the digits in a 64-bit word. Digits of the whole part for which the word has no room
count only as places, and those of the fraction are dropped. The word is turned into a double and
multiplied or divided by a power of ten, so that the result need not be the double nearest to the
number that is written. A number too large for a double is refused.
-/

namespace AgentSweep

namespace NumberLiteral

/-! ## Writing -/

/-- The exponents of the leading digit for which digits are written in their places. -/
def isPositional (exponent : Int) : Bool := decide (-5 ≤ exponent) && decide (exponent ≤ 15)

/-- How a decimal is written. -/
def ofDecimal (negative : Bool) (d : Decimal) : NumberLiteral :=
  let exponent := d.leadingExponent
  if isPositional exponent then
    match d.positional with
    | (whole, []) => ⟨negative, whole, ['0'], none⟩
    | (whole, fraction) => ⟨negative, whole, fraction, none⟩
  else
    ⟨negative, d.digitChars.take 1, d.digitChars.drop 1,
      some (decide (exponent < 0), Nat.toDigits 10 exponent.natAbs)⟩

/-- **How a double is written**, if it is finite. Of two equally near decimals the even one is
taken. -/
def ofFloat? (x : Float) : Option NumberLiteral :=
  match Binary64.ofFloat x with
  | .finite negative m q => some (ofDecimal negative (.shortest .even m q))
  | _ => none

/-! ## Reading -/

/-- A significand and the power of ten that goes with it. -/
structure Scaled where
  significand : Nat
  exponent : Int
deriving DecidableEq, Repr

/-- Takes the digits of the whole part. From the first digit on for which there is no room, each
digit counts as a place. -/
def takeWhole (n : Nat) : List Char → Scaled
  | [] => ⟨n, 0⟩
  | c :: rest =>
    let next := 10 * n + (c.toNat - '0'.toNat)
    if next < UInt64.size then takeWhole next rest else ⟨n, (c :: rest).length⟩

/-- Takes the digits of the fraction up to the first one for which there is no room. -/
def takeFraction (s : Scaled) : List Char → Scaled
  | [] => s
  | c :: rest =>
    let next := 10 * s.significand + (c.toNat - '0'.toNat)
    if next < UInt64.size then takeFraction ⟨next, s.exponent - 1⟩ rest else s

/-- The exponent that is written. -/
def writtenExponent (n : NumberLiteral) : Int :=
  match n.exponent with
  | none => 0
  | some (negative, digits) =>
    let size := Nat.ofDigitChars 10 digits 0
    if negative then -size else size

/-- The significand and the power of ten of a number. -/
def scaled (n : NumberLiteral) : Scaled :=
  let s := takeFraction (takeWhole 0 n.whole) n.fraction
  ⟨s.significand, s.exponent + n.writtenExponent⟩

/-- The largest power of ten that is a double. -/
def largestPower : Nat := 308

/-- A power of ten as a double. -/
def powerOfTen (n : Nat) : Float := Float.ofScientific 1 false n

/-- Multiplies or divides by a power of ten, in several steps if it is no double by itself. -/
def applyPower? (x : Float) (exponent : Int) : Option Float :=
  if exponent.natAbs ≤ largestPower then
    if 0 ≤ exponent then
      let y := x * powerOfTen exponent.natAbs
      if y.isInf then none else some y
    else some (x / powerOfTen exponent.natAbs)
  else if x == 0 then some x
  else if 0 ≤ exponent then none
  else applyPower? (x / powerOfTen largestPower) (exponent + largestPower)
termination_by exponent.natAbs
decreasing_by
  -- the exponent is below -308 here, and comes nearer to zero
  simp only [largestPower] at *
  omega

/-- **The double that a number is read as**, unless it is too large. -/
def toFloat? (n : NumberLiteral) : Option Float :=
  let s := n.scaled
  (applyPower? s.significand.toUInt64.toFloat s.exponent).map fun x =>
    if n.negative then -x else x

end NumberLiteral

end AgentSweep
