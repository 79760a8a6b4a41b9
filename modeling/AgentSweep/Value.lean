import AgentSweep.Agent.AgentSet

/-!
# Values

What variables hold, what `print` shows and what a reporter reports. Numbers are binary64
doubles, lists may hold anything, and an agent or an agent set is held by name: a value does not
keep an agent alive.

Two values are compared by `Value.beq`, where numbers are equal as IEEE 754 says. A list that
holds a NaN is therefore not equal to itself, and `0` is equal to `-0`.
-/

namespace AgentSweep

/-- **A value of the modelling language.** -/
inductive Value where
  | nobody
  | number (x : Float)
  | boolean (b : Bool)
  | text (s : String)
  | agent (id : AgentId)
  | agentset (set : AgentSet)
  | list (items : List Value)

namespace Value

instance : Inhabited Value := ⟨nobody⟩

/-- A whole number as a value: the double nearest to it. -/
def ofNat (n : Nat) : Value := .number n.toUInt64.toFloat

/-- The name of a value's type. -/
def typeName : Value → String
  | nobody => "nobody"
  | number _ => "number"
  | boolean _ => "boolean"
  | text _ => "string"
  | agent _ => "agent"
  | agentset _ => "agentset"
  | list _ => "list"

mutual

/-- Whether two values are equal. Sets are equal if they name the same, whoever is in them. -/
protected def beq : Value → Value → Bool
  | nobody, nobody => true
  | number x, number y => x == y
  | boolean a, boolean b => a == b
  | text s, text t => s == t
  | agent a, agent b => a == b
  | agentset a, agentset b => a == b
  | list xs, list ys => Value.beqAll xs ys
  | _, _ => false

/-- Whether two lists of values are equal item by item. -/
protected def beqAll : List Value → List Value → Bool
  | [], [] => true
  | x :: xs, y :: ys => Value.beq x y && Value.beqAll xs ys
  | _, _ => false

end

instance : BEq Value := ⟨Value.beq⟩

end Value

end AgentSweep
