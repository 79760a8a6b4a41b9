import AgentSweep.Random.Generator

/-!
# Drawing below a bound

A 32-bit word times a bound has the wanted number in its upper half. The lower half says how far
the product is from the next number; where it comes so close that the bits beyond could matter, a
second word supplies them, and its carry is added. One draw therefore takes one word, rarely two.
-/

namespace AgentSweep

namespace Random

/-- **A number below `bound`**, and the generator after the draw. -/
def below (r : Random) (bound : Nat) : Nat × Random :=
  let product := r.word * bound
  let next := r.advance
  let high := product / UInt32.size
  let low := product % UInt32.size
  -- only here can the bits of another word carry into the upper half
  if low > UInt32.size - bound then
    let carry := next.word * bound / UInt32.size
    (if low + carry ≥ UInt32.size then high + 1 else high, next.advance)
  else
    (high, next)

end Random

end AgentSweep
