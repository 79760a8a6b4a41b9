import AgentSweep.Json.Number
import AgentSweep.Json.Reader

/-!
# Shapes of JSON values

What is read from JSON has one of a few shapes: a number, a text, a record or a choice.

* A *record* is an object with named members, or a list of its fields in their order. Members with
  other names are passed over, whatever they hold; a field may be given once only.
* A *choice* is the name of one of several cases, or an object with one member, whose name is the
  case and whose value is what the case holds.

The objects and lists that are looked into may lie in each other 127 deep, and no deeper. The
readers take along how many more may be opened (`room`). A member that is passed over is not looked
into, so that there is no limit inside it.
-/

namespace AgentSweep

namespace Json

/-- How many objects and lists may lie in each other. -/
def depthLimit : Nat := 127

/-- Opens an object or a list, if there is room for it. -/
def opening? {α : Type} (room : Nat) (inside : Nat → Option α) : Option α :=
  match room with
  | 0 => none
  | room + 1 => inside room

/-- A text. -/
def text? : Json → Option String
  | string s => s.text?
  | _ => none

/-- A truth value. -/
def boolean? : Json → Option Bool
  | boolean b => some b
  | _ => none

/-- A natural number below a limit. -/
def natBelow? (limit : Nat) : Json → Option Nat
  | number n => n.toNat?.filter fun value => value < limit
  | _ => none

/-- A double. -/
def float? : Json → Option Float
  | number n => n.toFloat?
  | _ => none

/-- Nothing, or something. -/
def nullable? {α : Type} (read : Json → Option α) : Json → Option (Option α)
  | null => some none
  | j => (read j).map some

/-- A list whose items are read one by one. -/
def listOf? {α : Type} (room : Nat) (read : Nat → Json → Option α) : Json → Option (List α)
  | list items => opening? room fun room => items.mapM (read room)
  | _ => none

/-- The value of the only member of a name, if there is one; several are an error. -/
def only? (name : String) (members : List (String × Json)) : Option (Option Json) :=
  match members.filter fun member => member.1 == name with
  | [] => some none
  | [member] => some (some member.2)
  | _ => none

/-- **The fields of a record**, in the order of their names; those not given are `none`. -/
def fields? (names : List String) : Json → Option (List (Option Json))
  | object members => do
    let members ← members.mapM fun (name, value) => name.text?.map fun name => (name, value)
    names.mapM fun name => only? name members
  | list items =>
    if items.length ≤ names.length then
      some (items.map some ++ List.replicate (names.length - items.length) none)
    else none
  | _ => none

/-- **The case of a choice**, and what it holds: nothing if the name stands alone. -/
def choice? : Json → Option (String × Option Json)
  | string s => s.text?.map fun name => (name, none)
  | object [(name, held)] => name.text?.map fun name => (name, some held)
  | _ => none

/-- The case of a choice that holds nothing. In an object it holds `null`. -/
def plainChoice? (room : Nat) (j : Json) : Option String :=
  match choice? j with
  | some (name, none) => some name
  | some (name, some null) => opening? room fun _ => some name
  | _ => none

end Json

end AgentSweep
