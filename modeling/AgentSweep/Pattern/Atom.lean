import AgentSweep.Pattern.Mode
import AgentSweep.Text.Hexadecimal

/-!
# Atoms of patterns

An atom is what a single character of a pattern, or a single escape, stands for. An escape is a
backslash with a letter or a mark after it, or with `x`, `u` or `U` and the two, four or eight
hexadecimal digits of a character.

Patterns are about UTF-8 texts, and the tables of Unicode are not at hand. So with Unicode on,
letters cannot be taken regardless of case and there are no named classes; with Unicode off, no
atom may stand for a part of a character.
-/

namespace AgentSweep

namespace Pattern

/-- **What one place of a pattern stands for.** -/
inductive Atom where
  /-- A character. With Unicode off a character that is written by two digits is a byte. -/
  | char (c : Char) (twoDigits : Bool)
  /-- The digits, the blanks, or the characters of words, or all but these. -/
  | named (negated : Bool)
  /-- Every character. -/
  | any
  /-- An end of the text or of a line. -/
  | anchor
  /-- An edge of a word, or a place that is none. -/
  | wordEdge
deriving DecidableEq, Repr

/-- Whether the letters of ASCII can be taken as a mode says. -/
def Mode.takesLetters (m : Mode) : Bool := !(m.unicode && m.ignoreCase)

namespace Atom

/-- Whether an atom may stand outside of brackets. -/
def fits (m : Mode) : Atom → Bool
  | char c twoDigits => m.takesLetters && (m.unicode || !twoDigits || c.toNat < 0x80)
  | named negated => !m.unicode && !negated
  | any => m.unicode
  | anchor => true
  | wordEdge => true

/-- Whether an atom may stand in brackets. -/
def fitsBrackets (m : Mode) : Atom → Bool
  | char c _ => m.takesLetters && (m.unicode || c.toNat < 0x80)
  | named negated => !m.unicode && !negated
  | _ => false

/-! ## Escapes -/

/-- What a backslash with one character after it stands for. -/
def ofEscape? : Char → Option Atom
  | 'a' => some (char '\x07' false)
  | 'f' => some (char '\x0c' false)
  | 't' => some (char '\t' false)
  | 'n' => some (char '\n' false)
  | 'r' => some (char '\r' false)
  | 'v' => some (char '\x0b' false)
  | 'd' | 's' | 'w' => some (named false)
  | 'D' | 'S' | 'W' => some (named true)
  | 'A' | 'z' => some anchor
  | 'b' | 'B' | '<' | '>' => some wordEdge
  | c => if c.toNat < 0x80 && !c.isAlphanum then some (char c false) else none

/-- How many digits follow the letter of an escape. -/
def digitCount? : Char → Option Nat
  | 'x' => some 2
  | 'u' => some 4
  | 'U' => some 8
  | _ => none

/-- A number of hexadecimal digits at the front, and what follows them. -/
def scanDigits (m : Mode) : Nat → List Char → Option (List Char × List Char)
  | 0, chars => some ([], chars)
  | count + 1, chars =>
    match m.skip chars with
    | [] => none
    | c :: rest =>
      if (Hexadecimal.value? c).isSome then
        (scanDigits m count rest).map fun (digits, rest) => (c :: digits, rest)
      else none

/-- The character with a given number. -/
def ofNumber? (n : Nat) (twoDigits : Bool) : Option Atom :=
  if n.isValidChar then some (char (Char.ofNat n) twoDigits) else none

/-- The escape at the front, without its backslash, and what follows it. -/
def scanEscape (m : Mode) : List Char → Option (Atom × List Char)
  | [] => none
  | c :: rest =>
    match digitCount? c with
    | some count => do
      let (digits, rest) ← scanDigits m count rest
      let atom ← Hexadecimal.number? digits >>= (ofNumber? · (count == 2))
      pure (atom, rest)
    | none => (ofEscape? c).map fun atom => (atom, rest)

theorem length_scanDigits {m : Mode} {count : Nat} {chars digits rest : List Char}
    (h : scanDigits m count chars = some (digits, rest)) : rest.length ≤ chars.length := by
  induction count generalizing chars digits rest with
  | zero => simp_all [scanDigits]
  | succ count ih =>
    have hs := m.length_skip chars
    unfold scanDigits at h
    split at h
    · simp at h
    · rename_i c tail heq
      split at h
      · obtain ⟨⟨digits, rest'⟩, h', he⟩ := Option.map_eq_some_iff.1 h
        have := ih h'
        simp only [Prod.mk.injEq] at he
        obtain ⟨_, rfl⟩ := he
        simp only [heq, List.length_cons] at hs
        omega
      · simp at h

theorem length_scanEscape {m : Mode} {chars rest : List Char} {atom : Atom}
    (h : scanEscape m chars = some (atom, rest)) : rest.length < chars.length := by
  unfold scanEscape at h
  split at h
  · simp at h
  · split at h
    · simp only [bind, Option.bind_eq_some_iff, pure, Option.some.injEq, Prod.mk.injEq] at h
      obtain ⟨⟨digits, rest'⟩, hd, _, _, _, rfl⟩ := h
      exact Nat.lt_succ_of_le (length_scanDigits hd)
    · obtain ⟨_, _, he⟩ := Option.map_eq_some_iff.1 h
      simp only [Prod.mk.injEq] at he
      simp [he.2]

end Atom

end Pattern

end AgentSweep
