import AgentSweep.Agent.AgentSet
import AgentSweep.Form.Shape

/-!
# Agents in JSON

A kind is a choice, a mask a number below 256, an id a record of its slot and its version, and a
set a choice between two records.
-/

namespace AgentSweep

namespace Kind

/-- The name of a kind in JSON. -/
def formName : Kind → String
  | .observer => "Observer"
  | .turtle => "Turtle"
  | .patch => "Patch"
  | .link => "Link"

/-- A kind in JSON. -/
def toJson (kind : Kind) : Json := .ofText kind.formName

/-- Reads a kind. -/
def ofJson? (room : Nat) (j : Json) : Option Kind :=
  (j.plainChoice? room).bind fun name => all.find? fun kind => kind.formName == name

end Kind

namespace KindMask

/-- A mask in JSON. -/
def toJson (mask : KindMask) : Json := .ofNat mask.bits.toNat

/-- Reads a mask. -/
def ofJson? (j : Json) : Option KindMask :=
  (j.natBelow? 256).map fun n => ⟨n.toUInt8⟩

end KindMask

namespace AgentId

/-- An id in JSON. -/
def toJson (id : AgentId) : Json :=
  .ofMembers [("idx", .ofNat id.slot), ("version", .ofNat id.version)]

/-- Reads an id. Its version is made odd. -/
def ofJson? (room : Nat) (j : Json) : Option AgentId :=
  Json.opening? room fun _ =>
    match j.fields? ["idx", "version"] with
    | some [some slot, some version] => do
      let slot ← slot.natBelow? UInt32.size
      let version ← version.natBelow? UInt32.size
      pure (ofVersion slot version)
    | _ => none

end AgentId

namespace AgentSet

/-- A set in JSON. -/
def toJson : AgentSet → Json
  | breed kind name =>
    .ofMembers [("Breed", .ofMembers [("kind", kind.toJson), ("name", .ofText name)])]
  | fixed kind members =>
    .ofMembers
      [("Fixed",
        .ofMembers [("kind", kind.toJson), ("members", .list (members.map AgentId.toJson))])]

/-- Reads a set. -/
def ofJson? (room : Nat) (j : Json) : Option AgentSet :=
  match j.choice? with
  | some ("Breed", some held) =>
    Json.opening? room fun room => Json.opening? room fun room =>
      match held.fields? ["kind", "name"] with
      | some [some kind, some name] => do
        pure (breed (← Kind.ofJson? room kind) (← name.text?))
      | _ => none
  | some ("Fixed", some held) =>
    Json.opening? room fun room => Json.opening? room fun room =>
      match held.fields? ["kind", "members"] with
      | some [some kind, some members] => do
        pure (fixed (← Kind.ofJson? room kind) (← members.listOf? room AgentId.ofJson?))
      | _ => none
  | _ => none

end AgentSet

end AgentSweep
