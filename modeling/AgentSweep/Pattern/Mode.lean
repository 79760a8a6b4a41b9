import AgentSweep.Text.Blank

/-!
# Modes of patterns

A pattern is a regular expression. Modes decide how it is read, and the pattern itself can switch
them, for one group or for what is left of a group. A list of switches has a letter for each mode
to be turned on, and then, after a hyphen, one for each mode to be turned off. Only three of the
modes have an influence on which patterns are in order.
-/

namespace AgentSweep

namespace Pattern

/-- **The modes that decide how a part of a pattern is read.** -/
structure Mode where
  /-- Whether small and capital letters are the same. -/
  ignoreCase : Bool
  /-- Whether the pattern is about characters, and not about bytes. -/
  unicode : Bool
  /-- Whether blanks and comments may stand between the parts. -/
  spaced : Bool
deriving DecidableEq, Repr

/-- What follows the blanks and comments at the front, when a comment has begun or has not. A
comment goes from `#` to the end of its line. -/
def afterBlanks : Bool → List Char → List Char
  | _, [] => []
  | true, c :: rest => afterBlanks (c != '\n') rest
  | false, c :: rest =>
    if CharClass.blank.holds c then afterBlanks false rest
    else if c = '#' then afterBlanks true rest
    else c :: rest

theorem length_afterBlanks (comment : Bool) (chars : List Char) :
    (afterBlanks comment chars).length ≤ chars.length := by
  fun_induction afterBlanks comment chars <;> simp_all <;> omega

namespace Mode

/-- The modes at the beginning of a pattern. -/
def standard : Mode := ⟨false, true, false⟩

/-- What follows the blanks and comments at the front, in a mode that has them. -/
def skip (m : Mode) (chars : List Char) : List Char :=
  if m.spaced then afterBlanks false chars else chars

theorem length_skip (m : Mode) (chars : List Char) : (m.skip chars).length ≤ chars.length := by
  unfold skip
  split
  · exact length_afterBlanks false chars
  · exact Nat.le_refl _

/-- What is left after one more character is shorter than what blanks and comments were skipped
in. -/
theorem length_lt_of_skip {m : Mode} {chars rest rest' : List Char} {c : Char}
    (h : m.skip chars = c :: rest) (hle : rest'.length ≤ rest.length) :
    rest'.length < chars.length := by
  have := m.length_skip chars
  simp only [h, List.length_cons] at this
  omega

/-- The letters of all modes. -/
def letters : List Char := ['i', 'm', 's', 'U', 'u', 'R', 'x']

/-- Whether characters are a list of switches. None may be there twice, and the hyphen does not
stand at the end. -/
def areSwitches (switches : List Char) : Bool :=
  switches.all (fun c => c = '-' || c ∈ letters) && decide switches.Nodup
    && switches.getLast? != some '-'

/-- The modes after a list of switches. -/
def switch (m : Mode) (switches : List Char) : Mode :=
  let on := switches.takeWhile fun c => c != '-'
  let off := switches.dropWhile fun c => c != '-'
  let turn (old : Bool) (letter : Char) : Bool := letter ∈ on || (old && letter ∉ off)
  ⟨turn m.ignoreCase 'i', turn m.unicode 'u', turn m.spaced 'x'⟩

end Mode

end Pattern

end AgentSweep
