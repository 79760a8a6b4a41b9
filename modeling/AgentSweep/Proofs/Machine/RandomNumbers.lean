import AgentSweep.Proofs.Decimal.WholeNumbers
import AgentSweep.Proofs.Machine.Course
import AgentSweep.Proofs.Random.Draws

/-!
# Random numbers in code

A random expression never fails, whoever evaluates it. Its value is a natural number, and a double
has room for every such number that a bound allows, so that nothing is lost on the way from the
generator to the value (`Expr.eval_random`). With the bound 0 there is nothing to choose from: the
value is 0, and the generator stays where it is.
-/

namespace AgentSweep

namespace Expr

/-- A random expression comes to a whole number, which a draw gives unless the bound is 0. -/
theorem exists_eval_random (c : Context) (s : Scene) (bound : UInt32) :
    ∃ (number : Nat) (after : Random),
      (random bound).eval c s = (.ok (.ofNat number), after)
        ∧ number < 2 * Binary64.leadingBit
        ∧ if bound = 0 then number = 0 ∧ after = s.random
          else s.random.Draws bound.toNat number after := by
  by_cases hzero : bound = 0
  · refine ⟨0, s.random, by rw [eval, if_pos hzero], by decide, ?_⟩
    rw [if_pos hzero]
    exact ⟨rfl, rfl⟩
  · have hpos : 0 < bound.toNat := Nat.pos_of_ne_zero fun h => hzero (UInt32.toNat_inj.mp h)
    have hbound : bound.toNat ≤ UInt32.size := Nat.le_of_lt bound.toNat_lt
    have hdraws := s.random.draws_below hpos hbound
    refine ⟨_, _, by rw [eval, if_neg hzero], ?_, ?_⟩
    · exact Nat.lt_of_lt_of_le hdraws.lt (Nat.le_trans hbound (by decide))
    · rwa [if_neg hzero]

/-- **A random expression comes to a natural number in its range.** Its value is the double whose
value is that number. With the bound 0 it is 0, and the generator is left alone; with any other
bound it is a number below the bound, which the generator gives and thereby moves on. -/
theorem eval_random (c : Context) (s : Scene) (bound : UInt32) :
    ∃ (number : Nat) (x : Float) (after : Random),
      (random bound).eval c s = (.ok (.number x), after)
        ∧ (∃ m q, Binary64.ofFloat x = .finite false m q ∧ Binary64.value m q = number)
        ∧ if bound = 0 then number = 0 ∧ after = s.random
          else s.random.Draws bound.toNat number after := by
  obtain ⟨number, after, heval, hsmall, hdraws⟩ := exists_eval_random c s bound
  exact ⟨number, _, after, heval, Binary64.exists_value_eq_natural hsmall, hdraws⟩

end Expr

/-- The next word is the last one that stands for 0 of 3, and the one after it is greater than a
third of all words. -/
def Random.thirds : Random := ⟨0, 0, 0, 0xaaaaaaaa00⟩

/-- The first word alone stands for 0, but comes so close to 1 that the second one makes the
difference. -/
theorem Expr.eval_random_thirds :
    Random.scaled Random.thirds.word 0 3 = 0
      ∧ ∃ x, (random 3).eval (.new default none .all) ⟨.empty, .thirds, 0⟩
          = (.ok (.number x), Random.thirds.advance.advance)
        ∧ ∃ m q, Binary64.ofFloat x = .finite false m q ∧ Binary64.value m q = 1 := by
  have hfirst : Random.scaled Random.thirds.word 0 3 = 0 := by decide +kernel
  have hboth : Random.scaled Random.thirds.word Random.thirds.advance.word 3 = 1 := by
    decide +kernel
  obtain ⟨number, x, after, heval, hvalue, hdraws⟩ :=
    eval_random (.new default none .all) ⟨.empty, .thirds, 0⟩ 3
  rw [if_neg (by decide)] at hdraws
  have hnumber : number = 1 := hdraws.eq_scaled.trans hboth
  have hafter : after = Random.thirds.advance.advance := by
    refine hdraws.two ⟨0, by decide, ?_⟩
    rw [hnumber]
    exact hfirst.trans_ne Nat.zero_ne_one
  rw [hafter] at heval
  rw [hnumber, Nat.cast_one] at hvalue
  exact ⟨hfirst, x, heval, hvalue⟩

/-- **What is printed of a random expression are the digits of a number in its range.** -/
theorem Context.step_print_random {c : Context} {s : Scene} {bound : UInt32}
    (h : (c.step s).instruction = some (.print (.random bound))) :
    ∃ number : Nat, (c.step s).outcome = .ok .more
      ∧ (c.step s).scene.world = s.world.print (toString number)
      ∧ if bound = 0 then number = 0 else number < bound.toNat := by
  obtain ⟨frame, -, -, hstep⟩ := step_of_instruction h
  obtain ⟨number, after, heval, hsmall, hdraws⟩ := Expr.exists_eval_random c s bound
  have hline : (Value.ofNat number).render s.world = toString number := by
    rw [Value.ofNat, Value.render, Value.numberText_natural hsmall]
  refine ⟨number, ?_, ?_, ?_⟩
  · rw [hstep, perform, heval]
  · rw [hstep, perform, heval]
    exact congrArg s.world.print hline
  · by_cases hzero : bound = 0
    · rw [if_pos hzero] at hdraws ⊢
      exact hdraws.1
    · rw [if_neg hzero] at hdraws ⊢
      exact hdraws.lt

end AgentSweep
