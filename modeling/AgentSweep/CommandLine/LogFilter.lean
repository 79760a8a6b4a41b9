import AgentSweep.CommandLine.Arguments
import AgentSweep.Pattern.Draft

/-!
# Log filters

A log filter is a row of directives with commas between them. A directive names what is logged, and
from which level on:

    target[span{field=pattern}]=level

The target, the brackets, the braces in them, the pattern, and the level may each be left out.
A directive that makes no sense is passed over, and `report` has the lines that say so.

Blanks at the ends of a directive are passed over when its form is read, but the texts in it are
cut out of the whole directive, at the byte positions that they have without the blanks. Where
there are blanks in front, other texts than were meant are looked at. A cut that would go through
a character ends all reading.
-/

namespace AgentSweep

namespace LogFilter

/-- **What may be wrong with a directive.** -/
inductive Flaw where
  /-- It is not of the form of a directive. -/
  | malformed
  /-- The pattern of its field cannot be used. -/
  | pattern (flaw : Pattern.Flaw)
  /-- What should be its level is none. -/
  | unknownLevel
  /-- A text in it would begin or end within a character. -/
  | brokenCharacter
deriving DecidableEq, Repr

/-- The wording of a flaw. -/
def Flaw.message : Flaw → String
  | malformed => "invalid filter directive"
  | pattern flaw => "invalid field filter: " ++ flaw.message
  | unknownLevel =>
    "error parsing level filter: expected one of \"off\", \"error\", \"warn\", \"info\", "
      ++ "\"debug\", \"trace\", or a number 0-5"
  | brokenCharacter => "byte index is not a character boundary"

/-! ## Texts in a directive -/

/-- The number of bytes of a text. -/
def byteLength : List Char → Nat
  | [] => 0
  | c :: rest => c.utf8Size + byteLength rest

/-- Takes a number of bytes off the front: the text of these bytes, and what follows it. -/
def splitBytes? : Nat → List Char → Option (List Char × List Char)
  | 0, chars => some ([], chars)
  | _ + 1, [] => none
  | count + 1, c :: rest =>
    if c.utf8Size ≤ count + 1 then
      (splitBytes? (count + 1 - c.utf8Size) rest).map fun (taken, rest) => (c :: taken, rest)
    else none

/-- Cutting at the length of the front part gives the two parts back. -/
theorem splitBytes?_append (front back : List Char) :
    splitBytes? (byteLength front) (front ++ back) = some (front, back) := by
  induction front with
  | nil => cases back <;> rfl
  | cons c front ih =>
    have hpos := c.utf8Size_pos
    obtain ⟨n, hn⟩ : ∃ n, c.utf8Size + byteLength front = n + 1 :=
      ⟨c.utf8Size + byteLength front - 1, by omega⟩
    have hsub : n + 1 - c.utf8Size = byteLength front := by omega
    simp only [byteLength, List.cons_append, hn, splitBytes?, hsub, ih]
    simp
    omega

/-- The text from a byte position on. -/
def textFrom (directive : List Char) (first : Nat) : Except Flaw (List Char) :=
  match splitBytes? first directive with
  | some (_, text) => .ok text
  | none => .error .brokenCharacter

/-- The text between two byte positions. -/
def textBetween (directive : List Char) (first last : Nat) : Except Flaw (List Char) := do
  let text ← textFrom directive first
  match splitBytes? (last - first) text with
  | some (text, _) => .ok text
  | none => .error .brokenCharacter

/-! ## Levels -/

/-- The names of the levels, which may be written in either case. -/
def levelNames : List String := ["off", "error", "warn", "info", "debug", "trace"]

/-- Whether a text is a level: its name, or its number from 0 to 5. -/
def isLevel (text : List Char) : Bool :=
  let number := Arguments.word64? (String.ofList text)
  number.any (· ≤ 5) || levelNames.any fun name => name.toList == text.map Char.toLower

/-! ## Fields -/

/-- Takes the sign off a number. -/
def withoutSign : List Char → List Char
  | '+' :: rest => rest
  | '-' :: rest => rest
  | chars => chars

/-- Whether a text is the exponent of a number, or empty. -/
def isExponent (text : List Char) : Bool :=
  match text.map Char.toLower with
  | [] => true
  | 'e' :: rest => !(withoutSign rest).isEmpty && (withoutSign rest).all Char.isDigit
  | _ => false

/-- Whether a text is a decimal number without a sign. -/
def isDecimal (text : List Char) : Bool :=
  let whole := text.takeWhile Char.isDigit
  match text.dropWhile Char.isDigit with
  | '.' :: rest =>
    !(whole ++ rest.takeWhile Char.isDigit).isEmpty && isExponent (rest.dropWhile Char.isDigit)
  | rest => !whole.isEmpty && isExponent rest

/-- The names of numbers that have no digits. They may be written in either case. -/
def numberNames : List String := ["inf", "infinity", "nan"]

/-- Whether a text is a number. -/
def isNumber (text : List Char) : Bool :=
  let text := withoutSign text
  isDecimal text || numberNames.any fun name => name.toList == text.map Char.toLower

/-- Looks at a field. What stands between the first equals sign and the next one is a pattern,
unless it is a number. -/
def checkField (field : List Char) : Except Flaw Unit :=
  match field.splitOn '=' with
  | _ :: value :: _ =>
    if isNumber value then .ok ()
    else
      match Pattern.flaw? value with
      | some flaw => .error (.pattern flaw)
      | none => .ok ()
  | _ => .ok ()

/-! ## The form of a directive

Each of the following functions looks at what is left of a directive, from a byte position on. -/

/-- After the equals sign. -/
def checkLevel (directive : List Char) (position : Nat) : Except Flaw Unit := do
  let level ← textFrom directive position
  if level.isEmpty || isLevel level then .ok () else .error .unknownLevel

/-- After the brackets. -/
def checkEnd (directive : List Char) (position : Nat) : List Char → Except Flaw Unit
  | [] => .ok ()
  | '=' :: _ => checkLevel directive (position + 1)
  | _ => .error .malformed

/-- Between the braces. -/
def checkBraces (directive : List Char) (position : Nat) (chars : List Char) :
    Except Flaw Unit :=
  let stop := position + byteLength (chars.takeWhile fun c => c != '\x7d')
  match chars.dropWhile fun c => c != '\x7d' with
  | [] => .error .malformed
  | _ :: rest => do
    let field ← textBetween directive position stop
    if field.isEmpty then .error .malformed
    checkField field
    match rest with
    | ']' :: rest => checkEnd directive (stop + 2) rest
    | _ => .error .malformed

/-- Between the brackets. -/
def checkBrackets (directive : List Char) (position : Nat) (chars : List Char) :
    Except Flaw Unit :=
  let stop := position + byteLength (chars.takeWhile fun c => c != ']' && c != '\x7b')
  match chars.dropWhile fun c => c != ']' && c != '\x7b' with
  | [] => .error .malformed
  | c :: rest => do
    let _ ← textBetween directive position stop
    if c = ']' then checkEnd directive (stop + 1) rest
    else checkBraces directive (stop + 1) rest

/-- In the target. -/
def checkTarget (directive : List Char) (chars : List Char) : Except Flaw Unit :=
  let stop := byteLength (chars.takeWhile fun c => c != '=' && c != '[')
  match chars.dropWhile fun c => c != '=' && c != '[' with
  | [] => .ok ()
  | c :: rest => do
    let _ ← textBetween directive 0 stop
    if c = '=' then checkLevel directive (stop + 1) else checkBrackets directive (stop + 1) rest

/-- Whether a target may begin with a character. -/
def opensTarget (c : Char) : Bool := c ∈ ['-', ':', '_'] || CharClass.isAlphanumeric c

/-- A directive without the blanks at its ends. -/
def trim (directive : List Char) : List Char :=
  let blank := CharClass.blank.holds
  ((directive.dropWhile blank).reverse.dropWhile blank).reverse

/-- **Looks at a directive.** -/
def check (directive : List Char) : Except Flaw Unit :=
  match trim directive with
  | [] => .error .malformed
  | c :: rest =>
    if c = '[' then checkBrackets directive 1 rest
    else if opensTarget c then checkTarget directive (c :: rest)
    else .error .malformed

/-! ## Reports -/

/-- **What the reading of a filter comes to.** -/
structure Report where
  /-- A line for each directive that is not as it should be. -/
  complaints : List String
  /-- Whether the last one of them ended all reading. -/
  broken : Bool
deriving DecidableEq, Repr

/-- The report about directives. -/
def reportOn : List (List Char) → Report
  | [] => ⟨[], false⟩
  | directive :: directives =>
    match check directive with
    | .ok () => reportOn directives
    | .error .brokenCharacter => ⟨[Flaw.brokenCharacter.message], true⟩
    | .error flaw =>
      let others := reportOn directives
      { others with
        complaints :=
          ("ignoring `" ++ String.ofList directive ++ "`: " ++ flaw.message) :: others.complaints }

/-- **The report about a filter.** Between two commas there need not be anything. -/
def report (filter : String) : Report :=
  reportOn ((filter.toList.splitOn ',').filter fun directive => !directive.isEmpty)

end LogFilter

end AgentSweep
