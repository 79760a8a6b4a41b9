import AgentSweep.Form.AgentForm
import AgentSweep.Value

/-!
# Values in JSON

A value is a choice of its type. Numbers that are not finite are written as `null`, which nobody
reads back as a number.
-/

namespace AgentSweep

namespace Value

/-- A double in JSON. -/
def numberToJson (x : Float) : Json :=
  match NumberLiteral.ofFloat? x with
  | some n => .number n
  | none => .null

mutual

/-- **A value in JSON.** -/
def toJson : Value → Json
  | nobody => .ofText "Nobody"
  | number x => .ofMembers [("Number", numberToJson x)]
  | boolean b => .ofMembers [("Boolean", .boolean b)]
  | text s => .ofMembers [("String", .ofText s)]
  | agent id => .ofMembers [("Agent", id.toJson)]
  | agentset set => .ofMembers [("AgentSet", set.toJson)]
  | list items => .ofMembers [("List", .list (itemsToJson items))]

/-- The items of a list in JSON. -/
def itemsToJson : List Value → List Json
  | [] => []
  | item :: items => item.toJson :: itemsToJson items

end

/-- Reads what a case other than a list holds. -/
def ofHeld? (room : Nat) (name : String) (held : Json) : Option Value :=
  match name with
  | "Nobody" => match held with
    | .null => some nobody
    | _ => none
  | "Number" => held.float?.map number
  | "Boolean" => held.boolean?.map boolean
  | "String" => held.text?.map text
  | "Agent" => (AgentId.ofJson? room held).map agent
  | "AgentSet" => (AgentSet.ofJson? room held).map agentset
  | _ => none

mutual

/-- **Reads a value.** -/
def ofJson? (room : Nat) : Json → Option Value
  | .string s => if s.text? = some "Nobody" then some nobody else none
  | .object [(name, held)] =>
    match room, name.text? with
    | room + 1, some name =>
      if name = "List" then ofList? room held else ofHeld? room name held
    | _, _ => none
  | _ => none

/-- Reads a list of values. -/
def ofList? (room : Nat) : Json → Option Value
  | .list items =>
    match room with
    | room + 1 => (ofItems? room items).map list
    | 0 => none
  | _ => none

/-- Reads values one by one. -/
def ofItems? (room : Nat) : List Json → Option (List Value)
  | [] => some []
  | item :: items =>
    match ofJson? room item, ofItems? room items with
    | some value, some values => some (value :: values)
    | _, _ => none

end

end Value

end AgentSweep
