import AgentSweep.Text.CharClass

/-!
# Blanks

The characters that are white space, as of Unicode 17. The four blanks that `Char.isWhitespace`
knows are among them.
-/

namespace AgentSweep

namespace CharClass

/-- **White space.** -/
def blank : CharClass :=
  ⟨[(0x9, 0xd), (0x20, 0x20), (0x85, 0x85), (0xa0, 0xa0), (0x1680, 0x1680), (0x2000, 0x200a),
    (0x2028, 0x2029), (0x202f, 0x202f), (0x205f, 0x205f), (0x3000, 0x3000)],
    by decide +kernel⟩

/-- The blanks of ASCII are white space. -/
theorem holds_blank_of_isWhitespace {c : Char} (h : c.isWhitespace = true) :
    blank.holds c = true := by
  simp only [Char.isWhitespace, Bool.or_eq_true, decide_eq_true_eq] at h
  rcases h with ((rfl | rfl) | rfl) | rfl <;> decide

end CharClass

end AgentSweep
