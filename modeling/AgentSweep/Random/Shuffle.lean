import AgentSweep.Random.Draw

/-!
# Shuffling

A list is shuffled from its front: the item at each place `i` changes places with the item at a
random place up to `i`. The choices at places 1, 2, 3, … lie below 2, 3, 4, …, and several of them
are taken from one draw: a draw below `m * (m + 1) * … ` is a choice below `m`, one below
`m + 1`, and so on, as long as the product fits a 32-bit word.
-/

namespace AgentSweep

/-- **A supply of choices**, the next one below an ever larger bound. -/
structure Choices where
  random : Random
  /-- What is left of the last draw. -/
  chunk : Nat
  /-- How many more choices the chunk holds. -/
  left : Nat

namespace Choices

/-- The supply at the start. The first choice is below 1 and needs no draw. -/
def start (random : Random) : Choices := ⟨random, 0, 1⟩

/-- Extends the product `b = m * (m + 1) * …` of `k` factors while it fits a 32-bit word. -/
def extend (m b k : Nat) : Nat × Nat :=
  if b < b * (m + k) ∧ b * (m + k) < UInt32.size then extend m (b * (m + k)) (k + 1) else (b, k)
termination_by UInt32.size - b

/-- A supply with at least one choice left, the next one being below `m`. -/
def refill (c : Choices) (m : Nat) : Choices :=
  if c.left = 0 then
    let (bound, count) := extend m m 1
    let (chunk, random) := c.random.below bound
    ⟨random, chunk, count⟩
  else c

/-- The next choice, which lies below `m`. The last choice in a chunk is all that is left of
it. -/
def next (c : Choices) (m : Nat) : Nat × Choices :=
  let c := c.refill m
  if c.left = 1 then (c.chunk, { c with left := 0 })
  else (c.chunk % m, { c with chunk := c.chunk / m, left := c.left - 1 })

end Choices

namespace Random

/-- Lets the items at places `i` and after change places with chosen ones before them; `steps` is
how many places there still are. -/
def shuffleFrom {α : Type} (items : Array α) (c : Choices) (i : Nat) : Nat → Array α × Random
  | 0 => (items, c.random)
  | steps + 1 =>
    let (j, c) := c.next (i + 1)
    shuffleFrom (items.swapIfInBounds i j) c (i + 1) steps

/-- **The items in random order**, and the generator after the draws. -/
def shuffle {α : Type} (r : Random) (items : Array α) : Array α × Random :=
  shuffleFrom items (.start r) 0 items.size

/-- Shuffling loses nothing and adds nothing. -/
theorem shuffleFrom_perm {α : Type} (items : Array α) (c : Choices) (i steps : Nat) :
    (shuffleFrom items c i steps).1.Perm items := by
  induction steps generalizing items c i with
  | zero => exact .refl _
  | succ steps ih =>
    refine (ih _ _ _).trans ?_
    unfold Array.swapIfInBounds
    split
    · split
      · exact Array.swap_perm _ _
      · exact .refl _
    · exact .refl _

/-- **A shuffled list is a permutation of the list.** -/
theorem shuffle_perm {α : Type} (r : Random) (items : Array α) :
    (r.shuffle items).1.Perm items :=
  shuffleFrom_perm items _ 0 _

end Random

end AgentSweep
