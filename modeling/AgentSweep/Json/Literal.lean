import AgentSweep.Text.Hexadecimal

/-!
# JSON literals

Numbers and strings as they stand in a JSON text. A literal keeps how it was written, since what
it is good for depends on who reads it: `1.0` is a number but no integer, `-0` is no integer
either, and half of a surrogate pair may stand in a string that nobody looks into.

A string is a list of `Piece`s. Reading it (`StringLiteral.text?`) joins surrogate pairs and
refuses what is left of them, as well as bytes that are no text. Writing it (`ofText`) escapes
the quotation mark, the backslash and the control characters below U+0020, and nothing else.
-/

namespace AgentSweep

/-! ## Strings -/

/-- **A piece of a string literal.** -/
inductive Piece where
  /-- A character that stands for itself. -/
  | plain (c : Char)
  /-- A backslash and a letter. -/
  | escape (letter : Char)
  /-- A UTF-16 unit, written with four hexadecimal digits. -/
  | unit (code : Nat)
  /-- A byte that is no text. -/
  | stray
deriving DecidableEq, Repr

/-- The characters that have an escape of their own, each with its letter. -/
def Piece.shortEscapes : List (Char × Char) :=
  [('"', '"'), ('\\', '\\'), ('/', '/'), ('b', '\x08'), ('f', '\x0c'), ('n', '\n'), ('r', '\r'),
    ('t', '\t')]

/-- **A string as it stands in a JSON text.** -/
abbrev StringLiteral := List Piece

namespace StringLiteral

/-- The characters of a string, if every piece of it is one or half of one. -/
def chars? : StringLiteral → Option (List Char)
  | [] => some []
  | .plain c :: rest => (chars? rest).map (c :: ·)
  | .escape letter :: rest =>
    match Piece.shortEscapes.lookup letter with
    | some c => (chars? rest).map (c :: ·)
    | none => none
  | .unit high :: .unit low :: rest =>
    if 0xd800 ≤ high ∧ high < 0xdc00 then
      if 0xdc00 ≤ low ∧ low < 0xe000 then
        (chars? rest).map
          (Char.ofNat (0x10000 + 0x400 * (high - 0xd800) + (low - 0xdc00)) :: ·)
      else none
    else if 0xdc00 ≤ high ∧ high < 0xe000 then none
    else (chars? (.unit low :: rest)).map (Char.ofNat high :: ·)
  | .unit code :: rest =>
    if 0xd800 ≤ code ∧ code < 0xe000 then none
    else (chars? rest).map (Char.ofNat code :: ·)
  | .stray :: _ => none

/-- **The text of a string**, if it is one. -/
def text? (s : StringLiteral) : Option String := (chars? s).map String.ofList

/-- How a character is written. -/
def piece (c : Char) : Piece :=
  if c = '"' then .escape '"'
  else if c = '\\' then .escape '\\'
  else if c.toNat < 0x20 then
    match Piece.shortEscapes.find? fun entry => entry.2 = c with
    | some (letter, _) => .escape letter
    | none => .unit c.toNat
  else .plain c

/-- **How a text is written.** -/
def ofText (s : String) : StringLiteral := s.toList.map piece

/-- The written form of a piece. -/
def pieceChars : Piece → List Char
  | .plain c => [c]
  | .escape letter => ['\\', letter]
  | .unit code => '\\' :: 'u' :: Hexadecimal.digits code 4
  | .stray => []

/-- The written form of a string, with its quotation marks. -/
def chars (s : StringLiteral) : List Char := '"' :: s.flatMap pieceChars ++ ['"']

end StringLiteral

/-! ## Numbers -/

/-- **A number as it stands in a JSON text.** The parts are rows of decimal digits. -/
structure NumberLiteral where
  negative : Bool
  whole : List Char
  /-- The digits after the decimal point. There is no point without digits after it. -/
  fraction : List Char
  /-- The exponent, with whether it is negative. -/
  exponent : Option (Bool × List Char)
deriving DecidableEq, Repr

namespace NumberLiteral

/-- How a natural number is written. -/
def ofNat (n : Nat) : NumberLiteral := ⟨false, Nat.toDigits 10 n, [], none⟩

/-- Whether the number is written as an integer. -/
def isIntegral (n : NumberLiteral) : Bool := n.fraction.isEmpty && n.exponent.isNone

/-- **The natural number that is written.** A sign makes it something else, even before a zero. -/
def toNat? (n : NumberLiteral) : Option Nat :=
  if n.isIntegral && !n.negative then some (Nat.ofDigitChars 10 n.whole 0) else none

/-- The written form of an exponent. -/
def exponentChars : Option (Bool × List Char) → List Char
  | none => []
  | some (negative, digits) => 'e' :: (if negative then '-' else '+') :: digits

/-- The written form of a number. -/
def chars (n : NumberLiteral) : List Char :=
  (if n.negative then ['-'] else []) ++ n.whole
    ++ (if n.fraction.isEmpty then [] else '.' :: n.fraction) ++ exponentChars n.exponent

end NumberLiteral

end AgentSweep
