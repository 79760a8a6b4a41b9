import AgentSweep.Json.Literal
import AgentSweep.Text.Utf8

/-!
# JSON tokens

The tokens of a JSON text, read from its symbols (`Token.scan?`). Blanks between tokens are the
space, the tab, the line feed and the carriage return. Number literals follow the strict grammar:
no leading zeros, and digits on both sides of a point. The exponent sign `+` may be left out on
reading and is always written.
-/

namespace AgentSweep

/-- **A token of a JSON text.** -/
inductive Token where
  | openList
  | closeList
  | openObject
  | closeObject
  | comma
  | colon
  | null
  | boolean (b : Bool)
  | number (n : NumberLiteral)
  | string (s : StringLiteral)
deriving DecidableEq, Repr

namespace Token

/-- The written form of a token. -/
def chars : Token → List Char
  | openList => ['[']
  | closeList => [']']
  | openObject => ['\x7b']
  | closeObject => ['\x7d']
  | comma => [',']
  | colon => [':']
  | null => ['n', 'u', 'l', 'l']
  | boolean true => ['t', 'r', 'u', 'e']
  | boolean false => ['f', 'a', 'l', 's', 'e']
  | number n => n.chars
  | string s => StringLiteral.chars s

/-! ## Reading one token -/

/-- Whether a character may stand between tokens. -/
def isBlank (c : Char) : Bool := c == ' ' || c == '\t' || c == '\n' || c == '\r'

/-- Whether a symbol is a decimal digit. -/
def isDigit : Symbol → Bool
  | some c => c.isDigit
  | none => false

/-- The digits at the front. -/
def digits (input : List Symbol) : List Char := (input.takeWhile isDigit).filterMap id

/-- What follows the digits at the front. -/
def afterDigits (input : List Symbol) : List Symbol := input.dropWhile isDigit

/-- The pieces of a string up to its closing quotation mark, and what follows it. -/
def scanString (before : List Piece) : List Symbol → Option (StringLiteral × List Symbol)
  | [] => none
  | some '"' :: rest => some (before.reverse, rest)
  | some '\\' :: some 'u' :: some a :: some b :: some c :: some d :: rest =>
    match Hexadecimal.number? [a, b, c, d] with
    | some code => scanString (.unit code :: before) rest
    | none => none
  | some '\\' :: some letter :: rest =>
    if (Piece.shortEscapes.lookup letter).isSome then scanString (.escape letter :: before) rest
    else none
  | some c :: rest =>
    if c = '\\' ∨ c.toNat < 0x20 then none else scanString (.plain c :: before) rest
  | none :: rest => scanString (.stray :: before) rest

/-- The fraction at the front, if there is one, and what follows it. A point without digits after
it is an error. -/
def scanFraction (input : List Symbol) : Option (List Char × List Symbol) :=
  match input with
  | some '.' :: rest => if (digits rest).isEmpty then none else some (digits rest, afterDigits rest)
  | _ => some ([], input)

/-- The sign at the front – whether it is a minus – and what follows it. -/
def scanSign : List Symbol → Bool × List Symbol
  | some '-' :: rest => (true, rest)
  | some '+' :: rest => (false, rest)
  | input => (false, input)

/-- The exponent at the front, if there is one, and what follows it. -/
def scanExponent (input : List Symbol) : Option (Option (Bool × List Char) × List Symbol) :=
  match input with
  | some c :: rest =>
    if c = 'e' ∨ c = 'E' then
      let (negative, rest) := scanSign rest
      if (digits rest).isEmpty then none
      else some (some (negative, digits rest), afterDigits rest)
    else some (none, input)
  | _ => some (none, input)

/-- The digits before the point: a zero alone, or a row that begins with another digit. -/
def scanWhole (input : List Symbol) : Option (List Char × List Symbol) :=
  match digits input with
  | [] => none
  | '0' :: _ => some (['0'], input.drop 1)
  | whole => some (whole, afterDigits input)

/-- The number after its sign, and what follows it. -/
def scanNumber (negative : Bool) (input : List Symbol) : Option (NumberLiteral × List Symbol) := do
  let (whole, input) ← scanWhole input
  let (fraction, input) ← scanFraction input
  let (exponent, input) ← scanExponent input
  pure (⟨negative, whole, fraction, exponent⟩, input)

/-- A token from its first character and what follows it, and what follows the token. -/
def scanOne (c : Char) (rest : List Symbol) : Option (Token × List Symbol) :=
  match c with
  | '[' => some (openList, rest)
  | ']' => some (closeList, rest)
  | '\x7b' => some (openObject, rest)
  | '\x7d' => some (closeObject, rest)
  | ',' => some (comma, rest)
  | ':' => some (colon, rest)
  | '"' => (scanString [] rest).map fun (s, rest) => (string s, rest)
  | '-' => (scanNumber true rest).map fun (n, rest) => (number n, rest)
  | 'n' =>
    match rest with
    | some 'u' :: some 'l' :: some 'l' :: rest => some (null, rest)
    | _ => none
  | 't' =>
    match rest with
    | some 'r' :: some 'u' :: some 'e' :: rest => some (boolean true, rest)
    | _ => none
  | 'f' =>
    match rest with
    | some 'a' :: some 'l' :: some 's' :: some 'e' :: rest => some (boolean false, rest)
    | _ => none
  | c => (scanNumber false (some c :: rest)).map fun (n, rest) => (number n, rest)

/-! ## Every token takes something off the input -/

theorem length_afterDigits (input : List Symbol) : (afterDigits input).length ≤ input.length :=
  (List.dropWhile_sublist _).length_le

theorem length_afterDigits_lt {input : List Symbol} (h : digits input ≠ []) :
    (afterDigits input).length < input.length := by
  cases input with
  | nil => simp [digits] at h
  | cons x rest =>
    by_cases hx : isDigit x
    · have := length_afterDigits rest
      simp only [afterDigits, List.dropWhile_cons, hx, if_true, List.length_cons] at this ⊢
      omega
    · simp [digits, hx] at h

theorem length_scanString {before : List Piece} {input rest : List Symbol} {s : StringLiteral}
    (h : scanString before input = some (s, rest)) : rest.length < input.length := by
  fun_induction scanString before input <;> simp_all only [reduceCtorEq, Option.some.injEq,
    Prod.mk.injEq, List.length_cons, forall_const] <;> omega

theorem length_scanFraction {input rest : List Symbol} {fraction : List Char}
    (h : scanFraction input = some (fraction, rest)) : rest.length ≤ input.length := by
  have := length_afterDigits
  unfold scanFraction at h
  grind

theorem length_scanSign (input : List Symbol) : (scanSign input).2.length ≤ input.length := by
  fun_cases scanSign input <;> simp

theorem length_scanExponent {input rest : List Symbol} {exponent : Option (Bool × List Char)}
    (h : scanExponent input = some (exponent, rest)) : rest.length ≤ input.length := by
  have := length_afterDigits
  have := length_scanSign
  unfold scanExponent at h
  grind

theorem length_scanWhole {input rest : List Symbol} {whole : List Char}
    (h : scanWhole input = some (whole, rest)) : rest.length < input.length := by
  unfold scanWhole at h
  split at h
  · cases h
  · next hd =>
    cases input with
    | nil => simp [digits] at hd
    | cons x input => simp_all
  · next hnil _ =>
    have := length_afterDigits_lt hnil
    simp_all

theorem length_scanNumber {negative : Bool} {input rest : List Symbol} {n : NumberLiteral}
    (h : scanNumber negative input = some (n, rest)) : rest.length < input.length := by
  simp only [scanNumber, Option.bind_eq_bind, Option.bind_eq_some_iff, Option.pure_def,
    Option.some.injEq, Prod.mk.injEq, Prod.exists] at h
  obtain ⟨_, _, hw, _, _, hf, _, _, he, -, rfl⟩ := h
  have := length_scanWhole hw
  have := length_scanFraction hf
  have := length_scanExponent he
  omega

/-- A token leaves no more than what followed its first character. -/
theorem length_scanOne {c : Char} {rest after : List Symbol} {t : Token}
    (h : scanOne c rest = some (t, after)) : after.length ≤ rest.length := by
  unfold scanOne at h
  split at h
  all_goals try (simp only [Option.some.injEq, Prod.mk.injEq] at h; simp [← h.2])
  · simp only [Option.map_eq_some_iff, Prod.mk.injEq, Prod.exists] at h
    obtain ⟨_, _, hs, -, rfl⟩ := h
    exact Nat.le_of_lt (length_scanString hs)
  · simp only [Option.map_eq_some_iff, Prod.mk.injEq, Prod.exists] at h
    obtain ⟨_, _, hs, -, rfl⟩ := h
    exact Nat.le_of_lt (length_scanNumber hs)
  · split at h <;> simp only [Option.some.injEq, Prod.mk.injEq, reduceCtorEq] at h
    simp only [← h.2, List.length_cons]
    omega
  · split at h <;> simp only [Option.some.injEq, Prod.mk.injEq, reduceCtorEq] at h
    simp only [← h.2, List.length_cons]
    omega
  · split at h <;> simp only [Option.some.injEq, Prod.mk.injEq, reduceCtorEq] at h
    simp only [← h.2, List.length_cons]
    omega
  · simp only [Option.map_eq_some_iff, Prod.mk.injEq, Prod.exists] at h
    obtain ⟨_, _, hs, -, rfl⟩ := h
    have := length_scanNumber hs
    simp only [List.length_cons] at this
    omega

/-! ## Reading all tokens -/

/-- The tokens of an input after those already read. -/
def scanFrom (before : List Token) (input : List Symbol) : Option (List Token) :=
  match input with
  | [] => some before.reverse
  | none :: _ => none
  | some c :: rest =>
    if isBlank c then scanFrom before rest
    else
      match _h : scanOne c rest with
      | some (t, after) => scanFrom (t :: before) after
      | none => none
termination_by input.length
decreasing_by
  · simp
  · have := length_scanOne ‹_›
    simp only [List.length_cons]
    omega

/-- **The tokens of a text**, if it consists of tokens and blanks. -/
def scan? (input : List Symbol) : Option (List Token) := scanFrom [] input

end Token

end AgentSweep
