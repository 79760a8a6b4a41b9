import AgentSweep.Text.Hexadecimal
import AgentSweep.Text.Invisible

/-!
# Quoted text

A text in quotation marks, as it stands in messages for those who look after the program. Whatever
would not show is written by an escape: some control characters have a letter, all other characters
that do not show are written by their number, as in `\u{301}`.
-/

namespace AgentSweep

namespace Quoted

/-- The hexadecimal digits of a number, without zeros in front. -/
def number (n : Nat) : List Char := Nat.toDigits 16 n

/-- How a character stands between the quotation marks. -/
def charText (c : Char) : List Char :=
  if c = '\x00' then ['\\', '0']
  else if c = '\t' then ['\\', 't']
  else if c = '\r' then ['\\', 'r']
  else if c = '\n' then ['\\', 'n']
  else if c = '\\' ∨ c = '"' then ['\\', c]
  else if CharClass.invisible.holds c then
    '\\' :: 'u' :: '\x7b' :: number c.toNat ++ ['\x7d']
  else [c]

/-- **A text in quotation marks.** -/
def text (s : String) : String := String.ofList ('"' :: s.toList.flatMap charText ++ ['"'])

end Quoted

end AgentSweep
