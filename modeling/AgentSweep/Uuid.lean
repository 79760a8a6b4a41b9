import AgentSweep.Text.Hexadecimal

/-!
# Universally unique identifiers

A UUID is a 128-bit number. It is written as 32 hexadecimal digits in groups of 8, 4, 4, 4 and 12.
On reading, the groups may be run together, or be set in braces, or follow the words `urn:uuid:`;
words and digits may be of either case.
-/

namespace AgentSweep

/-- **A universally unique identifier.** -/
structure Uuid where
  bits : BitVec 128
deriving DecidableEq, Repr

namespace Uuid

/-- The identifier whose bits are all zero. -/
def zero : Uuid := ⟨0⟩

instance : Inhabited Uuid := ⟨zero⟩

/-- The identifier with the given digits. -/
def ofDigits? (digits : List Char) : Option Uuid :=
  if digits.length = 32 then (Hexadecimal.number? digits).map fun n => ⟨BitVec.ofNat 128 n⟩
  else none

/-- Sets hyphens between the groups of digits. -/
def group (digits : List Char) : List Char :=
  digits.take 8 ++ '-' :: (digits.drop 8).take 4 ++ '-' :: (digits.drop 12).take 4
    ++ '-' :: (digits.drop 16).take 4 ++ '-' :: digits.drop 20

/-- The identifier in its grouped form. -/
def ofGroups? (chars : List Char) : Option Uuid :=
  let digits := chars.filter fun c => c != '-'
  if group digits = chars then ofDigits? digits else none

/-- **The identifier that a text names.** -/
def ofString? (s : String) : Option Uuid :=
  let chars := s.toList
  match chars with
  | '\x7b' :: rest => if rest.getLast? = some '\x7d' then ofGroups? rest.dropLast else none
  | chars =>
    if (chars.take 9).map Char.toLower = "urn:uuid:".toList then ofGroups? (chars.drop 9)
    else if chars.length = 32 then ofDigits? chars
    else ofGroups? chars

/-- **The text of an identifier**, in lower case. -/
def text (u : Uuid) : String := String.ofList (group (Hexadecimal.digits u.bits.toNat 32))

end Uuid

end AgentSweep
