/-!
# The random generator

Random numbers come from xoshiro256++, whose state is four 64-bit words. A seed is spread over the
state by SplitMix64. Code that needs a random number takes the upper half of one output.
-/

namespace AgentSweep

/-- **The state of a random generator.** -/
structure Random where
  s0 : UInt64
  s1 : UInt64
  s2 : UInt64
  s3 : UInt64
deriving DecidableEq, Repr

namespace Random

/-- The output of SplitMix64 for one value of its counter. -/
def mix (x : UInt64) : UInt64 :=
  let z := (x ^^^ (x >>> 30)) * 0xbf58476d1ce4e5b9
  let z := (z ^^^ (z >>> 27)) * 0x94d049bb133111eb
  z ^^^ (z >>> 31)

/-- The step of the SplitMix64 counter. -/
def gamma : UInt64 := 0x9e3779b97f4a7c15

/-- The generator of a seed: four outputs of SplitMix64. -/
def ofSeed (seed : UInt64) : Random :=
  ⟨mix (seed + gamma), mix (seed + 2 * gamma), mix (seed + 3 * gamma), mix (seed + 4 * gamma)⟩

instance : Inhabited Random := ⟨ofSeed 0⟩

/-- Turns a word to the left by `n` places. -/
def rotate (x n : UInt64) : UInt64 := (x <<< n) ||| (x >>> (64 - n))

/-- The output of the present state. -/
def output (r : Random) : UInt64 := rotate (r.s0 + r.s3) 23 + r.s0

/-- The state after the present one. -/
def advance (r : Random) : Random :=
  let s2 := r.s2 ^^^ r.s0
  let s3 := r.s3 ^^^ r.s1
  ⟨r.s0 ^^^ s3, r.s1 ^^^ s2, s2 ^^^ (r.s1 <<< 17), rotate s3 45⟩

/-- The upper 32 bits of the present output. -/
def word (r : Random) : Nat := r.output.toNat / UInt32.size

/-- A draw is a 32-bit word. -/
theorem word_lt (r : Random) : r.word < UInt32.size :=
  Nat.div_lt_of_lt_mul r.output.toNat_lt

end Random

end AgentSweep
