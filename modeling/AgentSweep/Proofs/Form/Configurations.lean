import AgentSweep.Config
import AgentSweep.Proofs.Form.Shapes

/-!
# Configurations are read back

A configuration is written with all its fields, each under a name of its own, so that reading it
never falls back on a default. Its literals are texts and natural numbers: the laid-out text is read
back as the record that was written, whatever stands in the filter and however large the seed is.
-/

namespace AgentSweep.Config

/-- A seed that is written, or the absence of one. -/
def seedToJson (seed : Option UInt64) : Json :=
  match seed with
  | some seed => .ofNat seed.toNat
  | none => .null

/-- The fields of a configuration, as they are written. -/
def members (c : Config) : List (String × Json) :=
  [("seed", seedToJson c.seed), ("trace_agents", .boolean c.traceAgents),
    ("log_filter", .ofText c.logFilter)]

theorem toJson_eq (c : Config) : c.toJson = .ofMembers c.members := rfl

theorem sound_toJson (c : Config) : c.toJson.Sound := by
  rw [toJson_eq]
  refine Json.sound_ofMembers fun m hm => ?_
  simp only [members, List.mem_cons, List.not_mem_nil, or_false] at hm
  rcases hm with rfl | rfl | rfl
  · cases c.seed with
    | none => exact .null
    | some seed => exact Json.sound_ofNat _
  · exact .boolean
  · exact Json.sound_ofText _

/-- Every seed is in the range in which seeds are read. -/
theorem seed?_seedToJson (seed : Option UInt64) :
    Json.nullable? seed? (seedToJson seed) = some seed := by
  cases seed with
  | none => rfl
  | some seed =>
    show (((Json.ofNat seed.toNat).natBelow? UInt64.size).map Nat.toUInt64).map some = _
    rw [Json.natBelow?_ofNat seed.toNat_lt, Option.map_some, Option.map_some]
    exact congrArg (some ∘ some) UInt64.ofNat_toNat

/-- A configuration is read back from the record that it is written as. -/
theorem ofJson?_toJson (room : Nat) (c : Config) : ofJson? (room + 1) c.toJson = some c := by
  have hfields : c.toJson.fields? ["seed", "trace_agents", "log_filter"]
      = some [some (seedToJson c.seed), some (.boolean c.traceAgents),
        some (.ofText c.logFilter)] := by
    have hnames : ["seed", "trace_agents", "log_filter"].Nodup := by decide
    exact Json.fields?_ofMembers c.members hnames
  simp only [ofJson?, Json.opening?, hfields, field?, seed?_seedToJson, Json.text?_ofText]
  rfl

/-- **What is saved is loaded again.** Every configuration can be saved to a directory that exists,
and the bytes that are saved are loaded as that configuration. -/
theorem load_save (c : Config) :
    ∃ bytes, c.save true = .ok bytes ∧ load (some bytes) = .ok c := by
  refine ⟨c.toJson.pretty.toUTF8, rfl, ?_⟩
  simp only [load, Json.ofBytes?_pretty c.sound_toJson, Option.bind_eq_bind, Option.bind_some,
    Json.depthLimit, ofJson?_toJson]

end AgentSweep.Config
