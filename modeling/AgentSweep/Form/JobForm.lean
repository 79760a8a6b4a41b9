import AgentSweep.Form.Shape
import AgentSweep.Job.Job

/-!
# Jobs in JSON

The owner of a job and the summary of a run are records.
-/

namespace AgentSweep

namespace Summary

/-- A summary in JSON. -/
def toJson (s : Summary) : Json :=
  .ofMembers
    [("snapshot_size", .ofNat s.snapshot), ("executed", .ofNat s.executed),
      ("skipped", .ofNat s.skipped)]

/-- Reads a summary. -/
def ofJson? (room : Nat) (j : Json) : Option Summary :=
  Json.opening? room fun _ =>
    match j.fields? ["snapshot_size", "executed", "skipped"] with
    | some [some snapshot, some executed, some skipped] => do
      let snapshot ← snapshot.natBelow? UInt64.size
      let executed ← executed.natBelow? UInt64.size
      let skipped ← skipped.natBelow? UInt64.size
      pure ⟨snapshot, executed, skipped⟩
    | _ => none

end Summary

namespace Owner

/-- An owner in JSON. -/
def toJson (o : Owner) : Json :=
  .ofMembers [("id", .ofText o.id.text), ("name", .ofText o.name)]

/-- Reads an owner. -/
def ofJson? (room : Nat) (j : Json) : Option Owner :=
  Json.opening? room fun _ =>
    match j.fields? ["id", "name"] with
    | some [some id, some name] => do
      pure ⟨← id.text? >>= Uuid.ofString?, ← name.text?⟩
    | _ => none

end Owner

end AgentSweep
