import AgentSweep.Form.Shape
import AgentSweep.Random.Generator

/-!
# Configuration

A configuration is kept in a JSON file, so that a run can be repeated from the file alone. It is a
record whose fields may all be left out, each of them having a default. It is written laid out on
lines, with every field.
-/

namespace AgentSweep

/-- **A configuration.** -/
structure Config where
  /-- The seed of the main random generator. Without one the seed is left to chance. -/
  seed : Option UInt64
  /-- Whether the log tells of every agent that a run visits. -/
  traceAgents : Bool
  /-- Which log entries the command line shows. -/
  logFilter : String
deriving DecidableEq, Repr

/-- **Why a configuration cannot be read or written.** -/
inductive ConfigError where
  /-- There is no such file, or no directory to write it to. -/
  | missing
  /-- The file holds no configuration. -/
  | malformed
deriving DecidableEq, Repr

namespace ConfigError

/-- The text of an error. -/
def message : ConfigError → String
  | missing => "IO error: No such file or directory (os error 2)"
  | malformed => "JSON error"

end ConfigError

namespace Config

/-- The configuration of those who have none. -/
def standard : Config := ⟨none, false, "info"⟩

instance : Inhabited Config := ⟨standard⟩

/-- A configuration in JSON. -/
def toJson (c : Config) : Json :=
  .ofMembers
    [("seed", match c.seed with
      | some seed => .ofNat seed.toNat
      | none => .null),
      ("trace_agents", .boolean c.traceAgents), ("log_filter", .ofText c.logFilter)]

/-- The value of a field, or its default if the field is not given. -/
def field? {α : Type} (given : Option Json) (default : α) (read : Json → Option α) : Option α :=
  match given with
  | some j => read j
  | none => some default

/-- Reads a seed. -/
def seed? (j : Json) : Option UInt64 := (j.natBelow? UInt64.size).map Nat.toUInt64

/-- **Reads a configuration.** -/
def ofJson? (room : Nat) (j : Json) : Option Config :=
  Json.opening? room fun _ =>
    match j.fields? ["seed", "trace_agents", "log_filter"] with
    | some [seed, traceAgents, logFilter] => do
      let seed ← field? seed standard.seed (Json.nullable? seed?)
      let traceAgents ← field? traceAgents standard.traceAgents Json.boolean?
      let logFilter ← field? logFilter standard.logFilter Json.text?
      pure ⟨seed, traceAgents, logFilter⟩
    | _ => none

/-- **Loads a configuration** from the bytes of its file, if there is one. -/
def load (file : Option ByteArray) : Except ConfigError Config :=
  match file with
  | none => .error .missing
  | some bytes =>
    match Json.ofBytes? bytes >>= ofJson? Json.depthLimit with
    | some config => .ok config
    | none => .error .malformed

/-- **The bytes that are saved**, if there is a directory for them. -/
def save (c : Config) (directoryExists : Bool) : Except ConfigError ByteArray :=
  if directoryExists then .ok c.toJson.pretty.toUTF8 else .error .missing

/-- The main random generator, for a seed that chance has chosen in case none is configured. -/
def generator (c : Config) (chance : UInt64) : Random := .ofSeed (c.seed.getD chance)

end Config

end AgentSweep
