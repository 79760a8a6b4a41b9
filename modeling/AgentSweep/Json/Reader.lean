import AgentSweep.Json.Json

/-!
# Reading JSON

A reader takes one token after the other. Between tokens it knows which values are still open and
what may come next (`Reader`), and it is done when a value is complete and no other token follows.
There is no limit on how deep values lie in each other; where one is needed it is a matter of what
the value is read as (`Form.Shape`).
-/

namespace AgentSweep

/-- **A value that waits for one inside it.** What it has so far stands in reverse order. -/
inductive Pending where
  | item (before : List Json)
  | member (before : List (StringLiteral × Json)) (name : StringLiteral)

/-- **Where a reader stands between two tokens.** -/
inductive Reader where
  /-- A value must come. -/
  | value (about : List Pending)
  /-- A list has been opened: a value or the end of the list must come. -/
  | firstItem (about : List Pending)
  /-- An item is complete: a comma or the end of the list must come. -/
  | afterItem (items : List Json) (about : List Pending)
  /-- An object has been opened: a name or the end of the object must come. -/
  | firstMember (about : List Pending)
  /-- A comma has been read in an object: a name must come. -/
  | nextMember (members : List (StringLiteral × Json)) (about : List Pending)
  /-- A colon must come. -/
  | colon (members : List (StringLiteral × Json)) (name : StringLiteral) (about : List Pending)
  /-- A member is complete: a comma or the end of the object must come. -/
  | afterMember (members : List (StringLiteral × Json)) (about : List Pending)
  /-- The whole value is complete: nothing may come. -/
  | complete (j : Json)

namespace Reader

/-- Puts a complete value where it belongs. -/
def put (j : Json) : List Pending → Reader
  | [] => complete j
  | .item before :: about => afterItem (j :: before) about
  | .member before name :: about => afterMember ((name, j) :: before) about

/-- Takes the first token of a value. -/
def begin? (about : List Pending) : Token → Option Reader
  | .null => some (put .null about)
  | .boolean b => some (put (.boolean b) about)
  | .number n => some (put (.number n) about)
  | .string s => some (put (.string s) about)
  | .openList => some (firstItem about)
  | .openObject => some (firstMember about)
  | _ => none

/-- **Takes one token**, if it may stand there. -/
def take? : Reader → Token → Option Reader
  | value about, t => begin? about t
  | firstItem about, .closeList => some (put (.list []) about)
  | firstItem about, t => begin? (.item [] :: about) t
  | afterItem items about, .comma => some (value (.item items :: about))
  | afterItem items about, .closeList => some (put (.list items.reverse) about)
  | firstMember about, .closeObject => some (put (.object []) about)
  | firstMember about, .string s => some (colon [] s about)
  | nextMember members about, .string s => some (colon members s about)
  | colon members s about, .colon => some (value (.member members s :: about))
  | afterMember members about, .comma => some (nextMember members about)
  | afterMember members about, .closeObject => some (put (.object members.reverse) about)
  | _, _ => none

end Reader

namespace Json

/-- The value that a row of tokens stands for. -/
def ofTokens? (tokens : List Token) : Option Json :=
  match tokens.foldlM Reader.take? (.value []) with
  | some (.complete j) => some j
  | _ => none

/-- The value that stands in a row of symbols. -/
def ofSymbols? (input : List Symbol) : Option Json := Token.scan? input >>= ofTokens?

/-- **The value that stands in a text.** -/
def ofString? (s : String) : Option Json := ofSymbols? (Symbol.ofString s)

/-- **The value that stands in some bytes.** -/
def ofBytes? (bytes : ByteArray) : Option Json := ofSymbols? (Symbol.ofBytes bytes)

end Json

end AgentSweep
