import AgentSweep.Decimal.Binary64

/-!
# The shortest decimal of a double

Reading a decimal gives the nearest double, so every double stands for an interval of decimals: all
that lie nearer to it than to its neighbours, and those half-way if its significand is even. The
decimals with exponent `p` form a grid of step `10 ^ p`. The shortest decimal of a double lies on
the coarsest grid that has a point in its interval. There it is the point nearest to the double;
where two are equally near, the caller says which one is meant.

Everything is counted in quarters of the last binary place, in which the double itself and the
ends of its interval are natural numbers.
-/

namespace AgentSweep

/-- **The decimal** `digits * 10 ^ exponent`. -/
structure Decimal where
  digits : Nat
  exponent : Int
deriving DecidableEq, Repr

/-- Which of two equally near decimals is meant. -/
inductive Tie where
  /-- The larger one. -/
  | up
  /-- The one whose last digit is even. -/
  | even
deriving DecidableEq, Repr

/-- **The decimals that read back as one double**, in quarters of its last binary place. -/
structure Interval where
  lower : Nat
  centre : Nat
  upper : Nat
  /-- Whether the ends belong to the interval. -/
  closed : Bool
  /-- The exponent of the quarter: a count `n` stands for `n * 2 ^ unit`. -/
  unit : Int
deriving Repr

namespace Interval

/-- The interval of the positive double `m * 2 ^ q`. Below a power of two the doubles lie twice as
close as above it, unless it is as small as normal numbers are. -/
def ofParts (m : Nat) (q : Int) : Interval :=
  let near := m = Binary64.leadingBit ∧ Binary64.leastExponent < q
  { lower := if near then 4 * m - 1 else 4 * m - 2
    centre := 4 * m
    upper := 4 * m + 2
    closed := m % 2 == 0
    unit := q - 2 }

/-- What a count of quarters is divided by to become a number of steps of the grid of exponent
`p`, as a fraction `(numerator, denominator)` of the count. -/
def scale (i : Interval) (p : Int) : Nat × Nat :=
  (Nat.pow 2 i.unit.toNat * Nat.pow 10 (-p).toNat, Nat.pow 2 (-i.unit).toNat * Nat.pow 10 p.toNat)

/-- Whether the grid point `n` lies in the interval. -/
def holds (i : Interval) (p : Int) (n : Nat) : Bool :=
  let (num, den) := i.scale p
  if i.closed then i.lower * num ≤ n * den && n * den ≤ i.upper * num
  else i.lower * num < n * den && n * den < i.upper * num

/-- The point of a grid that stands for the double: of the two points about it those in the
interval, and of these the nearer one. -/
def point? (i : Interval) (tie : Tie) (p : Int) : Option Nat :=
  let (num, den) := i.scale p
  let low := i.centre * num / den
  let below := i.centre * num - low * den
  let above := (low + 1) * den - i.centre * num
  match decide (0 < low) && i.holds p low, i.holds p (low + 1) with
  | false, false => none
  | true, false => some low
  | false, true => some (low + 1)
  | true, true =>
    if below < above then some low
    else if above < below then some (low + 1)
    else match tie with
      | .up => some (low + 1)
      | .even => some (if low % 2 = 0 then low else low + 1)

/-- The first point found on the grids of exponents `p`, `p - 1`, … -/
def search (i : Interval) (tie : Tie) (p : Int) : Nat → Decimal
  | 0 => ⟨0, p⟩
  | grids + 1 =>
    match i.point? tie p with
    | some n => ⟨n, p⟩
    | none => i.search tie (p - 1) grids

/-- An exponent whose grid is coarser than every number in the interval. -/
def coarse (i : Interval) : Int :=
  -- 30103 / 100000 is a little more than the logarithm of 2 to the base 10
  ((i.upper.log2 : Int) + 1 + i.unit) * 30103 / 100000 + 2

/-- The point of the coarsest grid that has one. No interval is so narrow that twenty-four grids
miss it: each grid is ten times as fine as the one before, and doubles have less than seventeen
significant digits. -/
def shortest (i : Interval) (tie : Tie) : Decimal :=
  i.search tie i.coarse 24

end Interval

namespace Decimal

/-- **The shortest decimal that reads back as** `m * 2 ^ q`. -/
def shortest (tie : Tie) (m : Nat) (q : Int) : Decimal :=
  if m = 0 then ⟨0, 0⟩ else (Interval.ofParts m q).shortest tie

/-- The digits of the number, without zeros in front. -/
def digitChars (d : Decimal) : List Char := Nat.toDigits 10 d.digits

/-- The exponent of the leading digit. -/
def leadingExponent (d : Decimal) : Int :=
  d.exponent + d.digitChars.length - 1

/-- The digits before and after the decimal point when the number is written without an
exponent. A whole number has none after it. -/
def positional (d : Decimal) : List Char × List Char :=
  let chars := d.digitChars
  let places := (-d.exponent).toNat
  if places = 0 then (chars ++ List.replicate d.exponent.toNat '0', [])
  else if places < chars.length then
    (chars.take (chars.length - places), chars.drop (chars.length - places))
  else (['0'], List.replicate (places - chars.length) '0' ++ chars)

end Decimal

end AgentSweep
