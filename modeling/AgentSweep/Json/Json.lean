import AgentSweep.Json.Token

/-!
# JSON values

A JSON value as it stands in a text: literals are kept as they were written, and the members of an
object in their order, whether or not their names differ. What is left out is the blanks.

The tokens of a value are `Json.tokens`. Written without blanks they are its compact text; its
laid-out text has every item and member on a line of its own, indented by two columns for each
value about it.
-/

namespace AgentSweep

/-- **A JSON value as it stands in a text.** -/
inductive Json where
  | null
  | boolean (b : Bool)
  | number (n : NumberLiteral)
  | string (s : StringLiteral)
  | list (items : List Json)
  | object (members : List (StringLiteral × Json))

namespace Json

instance : Inhabited Json := ⟨null⟩

/-- A text. -/
def ofText (s : String) : Json := string (.ofText s)

/-- A natural number. -/
def ofNat (n : Nat) : Json := number (.ofNat n)

/-- An object whose members have the given names. -/
def ofMembers (members : List (String × Json)) : Json :=
  object (members.map fun (name, value) => (.ofText name, value))

/-! ## Compact text -/

mutual

/-- **The tokens of a value.** -/
def tokens : Json → List Token
  | null => [.null]
  | boolean b => [.boolean b]
  | number n => [.number n]
  | string s => [.string s]
  | list items => .openList :: itemTokens items ++ [.closeList]
  | object members => .openObject :: memberTokens members ++ [.closeObject]

/-- The tokens of the items of a list, with commas between them. -/
def itemTokens : List Json → List Token
  | [] => []
  | [item] => item.tokens
  | item :: items => item.tokens ++ .comma :: itemTokens items

/-- The tokens of the members of an object, with commas between them. -/
def memberTokens : List (StringLiteral × Json) → List Token
  | [] => []
  | [(name, value)] => .string name :: .colon :: value.tokens
  | (name, value) :: members =>
    .string name :: .colon :: value.tokens ++ .comma :: memberTokens members

end

/-- **The text of a value**, without blanks. -/
def text (j : Json) : String := String.ofList (j.tokens.flatMap Token.chars)

/-! ## Laid-out text -/

/-- The start of a new line inside a number of values. -/
def newline (depth : Nat) : List Char := '\n' :: List.replicate (2 * depth) ' '

mutual

/-- The characters of a value that stands inside a number of others. -/
def layout (depth : Nat) : Json → List Char
  | null => Token.null.chars
  | boolean b => (Token.boolean b).chars
  | number n => n.chars
  | string s => StringLiteral.chars s
  | list [] => ['[', ']']
  | list items => '[' :: itemLayout (depth + 1) items ++ newline depth ++ [']']
  | object [] => ['\x7b', '\x7d']
  | object members => '\x7b' :: memberLayout (depth + 1) members ++ newline depth ++ ['\x7d']

/-- The items of a list, each on a line of its own. -/
def itemLayout (depth : Nat) : List Json → List Char
  | [] => []
  | [item] => newline depth ++ item.layout depth
  | item :: items => newline depth ++ item.layout depth ++ ',' :: itemLayout depth items

/-- The members of an object, each on a line of its own. -/
def memberLayout (depth : Nat) : List (StringLiteral × Json) → List Char
  | [] => []
  | [(name, value)] =>
    newline depth ++ StringLiteral.chars name ++ ':' :: ' ' :: value.layout depth
  | (name, value) :: members =>
    newline depth ++ StringLiteral.chars name ++ ':' :: ' ' :: value.layout depth
      ++ ',' :: memberLayout depth members

end

/-- **The text of a value laid out on lines**, without a line end after the last. -/
def pretty (j : Json) : String := String.ofList (j.layout 0)

end Json

end AgentSweep
