import AgentSweep.Config
import AgentSweep.Proofs.Form.Shapes

/-!
# Configurations that are given in part

A configuration file is mostly written by hand. It gives the fields that matter, in any order, and
it may hold members that nobody asks for. `Config.partial_law` says what such a file is loaded as,
however its text is laid out and whichever way its literals are written.

What a field may be given as is said apart from the readers: by relations between a JSON value and
what it stands for (`IsSeed`, `IsFlag`, `IsText`), by one relation that adds the default
(`FieldIs`), and for the whole configuration field by field (`Config.ReadFrom`).
-/

namespace AgentSweep

namespace Config

/-! ## What fields stand for -/

/-- **The seeds.** A seed is a row of digits, with no sign, fraction or exponent: `-0`, `7.0` and
`7e0` are none. `null` is the absence of a seed. -/
inductive IsSeed : Json → Option UInt64 → Prop where
  | none : IsSeed .null none
  | some {n : NumberLiteral} {seed : UInt64} (hsign : n.negative = false)
      (hfraction : n.fraction = []) (hexponent : n.exponent = .none)
      (hvalue : Nat.ofDigitChars 10 n.whole 0 = seed.toNat) : IsSeed (.number n) (some seed)

/-- **The truth values.** -/
inductive IsFlag : Json → Bool → Prop where
  | intro {b : Bool} : IsFlag (.boolean b) b

/-- **The texts.** A string with half of a surrogate pair is none. -/
inductive IsText : Json → String → Prop where
  | intro {s : StringLiteral} {text : String} (h : s.text? = some text) : IsText (.string s) text

/-- **What a field is**, if its name holds some values: its default if there are none, and what the
value stands for if there is one. A field that is given twice is nothing. -/
inductive FieldIs {α : Type} (means : Json → α → Prop) (default : α) : List Json → α → Prop where
  | absent : FieldIs means default [] default
  | given {j : Json} {value : α} (h : means j value) : FieldIs means default [j] value

variable {α : Type} {means : Json → α → Prop} {default : α} {values others : List Json}

theorem FieldIs.length_le {value : α} (h : FieldIs means default values value) :
    values.length ≤ 1 := by
  cases h <;> simp

/-- With one value at most, a field is something as soon as its value is of its type. -/
theorem exists_fieldIs_iff (means : Json → α → Prop) (default : α) (h : values.length ≤ 1) :
    (∃ value, FieldIs means default values value) ↔ ∀ j ∈ values, ∃ value, means j value := by
  constructor
  · rintro ⟨value, ⟨⟩ | ⟨hvalue⟩⟩ j hj
    · cases hj
    · cases List.mem_singleton.mp hj
      exact ⟨value, hvalue⟩
  · intro htyped
    match values with
    | [] => exact ⟨default, .absent⟩
    | [j] =>
      obtain ⟨value, hvalue⟩ := htyped j List.mem_cons_self
      exact ⟨value, .given hvalue⟩
    | _ :: _ :: _ => simp at h

theorem FieldIs.of_perm {value : α} (h : FieldIs means default values value)
    (hperm : others.Perm values) : FieldIs means default others value := by
  cases h with
  | absent => exact hperm.eq_nil ▸ .absent
  | given h => exact List.perm_singleton.mp hperm ▸ .given h

/-! ## The readers read what fields stand for -/

/-- **A field is read as what it is**, if its reader reads what values stand for. -/
theorem fieldIs_iff (default : α) {read : Json → Option α}
    (hread : ∀ j value, read j = some value ↔ means j value) (values : List Json) (value : α) :
    FieldIs means default values value
      ↔ ∃ given : Option Json, values = given.toList ∧ field? given default read = some value := by
  constructor
  · rintro (_ | h)
    · exact ⟨none, rfl, rfl⟩
    · exact ⟨some _, rfl, (hread _ _).mpr h⟩
  · rintro ⟨_ | j, rfl, h⟩
    · cases h
      exact .absent
    · exact .given ((hread _ _).mp h)

theorem toNat?_eq_some_iff {n : NumberLiteral} {value : Nat} :
    n.toNat? = some value
      ↔ n.negative = false ∧ n.fraction = [] ∧ n.exponent = none
        ∧ Nat.ofDigitChars 10 n.whole 0 = value := by
  simp only [NumberLiteral.toNat?, NumberLiteral.isIntegral, Option.ite_none_right_eq_some,
    Bool.and_eq_true, List.isEmpty_iff, Option.isNone_iff_eq_none, Bool.not_eq_true',
    Option.some_inj]
  tauto

theorem seed?_number_eq_some_iff {n : NumberLiteral} {seed : UInt64} :
    seed? (.number n) = some seed ↔ n.toNat? = some seed.toNat := by
  simp only [seed?, Json.natBelow?, Option.map_eq_some_iff, Option.filter_eq_some_iff,
    decide_eq_true_eq]
  constructor
  · rintro ⟨value, ⟨hvalue, hlt⟩, rfl⟩
    rw [hvalue, Nat.toUInt64_eq, UInt64.toNat_ofNat_of_lt' hlt]
  · exact fun h => ⟨seed.toNat, ⟨h, seed.toNat_lt⟩, UInt64.ofNat_toNat⟩

/-- **Seeds are read as what they stand for.** -/
theorem nullable?_seed?_eq_some_iff (j : Json) (seed : Option UInt64) :
    Json.nullable? seed? j = some seed ↔ IsSeed j seed := by
  cases j with
  | null =>
    constructor
    · rintro ⟨⟩
      exact .none
    · rintro ⟨⟩
      rfl
  | number n =>
    show (seed? (.number n)).map some = some seed ↔ _
    rw [Option.map_eq_some_iff]
    constructor
    · rintro ⟨seed, hseed, rfl⟩
      obtain ⟨hsign, hfraction, hexponent, hvalue⟩ :=
        toNat?_eq_some_iff.mp (seed?_number_eq_some_iff.mp hseed)
      exact .some hsign hfraction hexponent hvalue
    · rintro (_ | ⟨hsign, hfraction, hexponent, hvalue⟩)
      exact ⟨_, seed?_number_eq_some_iff.mpr
        (toNat?_eq_some_iff.mpr ⟨hsign, hfraction, hexponent, hvalue⟩), rfl⟩
  | _ => exact ⟨by rintro ⟨⟩, by rintro ⟨⟩⟩

theorem boolean?_eq_some_iff (j : Json) (b : Bool) : j.boolean? = some b ↔ IsFlag j b := by
  cases j with
  | boolean own =>
    constructor
    · rintro ⟨⟩
      exact .intro
    · rintro ⟨⟩
      rfl
  | _ => exact ⟨by rintro ⟨⟩, by rintro ⟨⟩⟩

theorem text?_eq_some_iff (j : Json) (text : String) : j.text? = some text ↔ IsText j text := by
  cases j with
  | string s => exact ⟨.intro, fun ⟨h⟩ => h⟩
  | _ => exact ⟨by rintro ⟨⟩, by rintro ⟨⟩⟩

/-! ## Configurations -/

/-- The names of the fields of a configuration. -/
def fieldNames : List String := ["seed", "trace_agents", "log_filter"]

/-- **The configuration that some members give**, field by field. -/
structure ReadFrom (members : List (StringLiteral × Json)) (c : Config) : Prop where
  seed : FieldIs IsSeed standard.seed (Json.held "seed" members) c.seed
  traceAgents :
    FieldIs IsFlag standard.traceAgents (Json.held "trace_agents" members) c.traceAgents
  logFilter : FieldIs IsText standard.logFilter (Json.held "log_filter" members) c.logFilter

/-- **Each field that is given has a value of its type.** -/
structure WellTyped (members : List (StringLiteral × Json)) : Prop where
  seed : ∀ j ∈ Json.held "seed" members, ∃ seed, IsSeed j seed
  traceAgents : ∀ j ∈ Json.held "trace_agents" members, ∃ b, IsFlag j b
  logFilter : ∀ j ∈ Json.held "log_filter" members, ∃ text, IsText j text

variable {members members' : List (StringLiteral × Json)} {c : Config} {text : String}

theorem ReadFrom.length_le (h : ReadFrom members c) {name : String} (hname : name ∈ fieldNames) :
    (Json.held name members).length ≤ 1 := by
  simp only [fieldNames, List.mem_cons, List.not_mem_nil, or_false] at hname
  rcases hname with rfl | rfl | rfl
  · exact h.seed.length_le
  · exact h.traceAgents.length_le
  · exact h.logFilter.length_le

/-- Where no field is given twice, it takes the right types to give a configuration. -/
theorem exists_readFrom_iff (h : ∀ name ∈ fieldNames, (Json.held name members).length ≤ 1) :
    (∃ c, ReadFrom members c) ↔ WellTyped members := by
  have hseed := exists_fieldIs_iff IsSeed standard.seed (h "seed" (by decide))
  have hflag := exists_fieldIs_iff IsFlag standard.traceAgents (h "trace_agents" (by decide))
  have hfilter := exists_fieldIs_iff IsText standard.logFilter (h "log_filter" (by decide))
  constructor
  · rintro ⟨c, hc⟩
    exact ⟨hseed.mp ⟨_, hc.seed⟩, hflag.mp ⟨_, hc.traceAgents⟩, hfilter.mp ⟨_, hc.logFilter⟩⟩
  · intro htyped
    obtain ⟨seed, hseed⟩ := hseed.mpr htyped.seed
    obtain ⟨traceAgents, hflag⟩ := hflag.mpr htyped.traceAgents
    obtain ⟨logFilter, hfilter⟩ := hfilter.mpr htyped.logFilter
    exact ⟨⟨seed, traceAgents, logFilter⟩, hseed, hflag, hfilter⟩

/-- Members give the same configuration if their fields hold the same values, in any order. -/
theorem ReadFrom.of_perm (h : ReadFrom members c)
    (hperm : ∀ name ∈ fieldNames, (Json.held name members').Perm (Json.held name members)) :
    ReadFrom members' c :=
  ⟨h.seed.of_perm (hperm _ (by decide)), h.traceAgents.of_perm (hperm _ (by decide)),
    h.logFilter.of_perm (hperm _ (by decide))⟩

/-- A configuration is read from a record whose fields are read. -/
theorem ofJson?_eq_some_iff {room : Nat} {j : Json} :
    ofJson? (room + 1) j = some c
      ↔ ∃ seed traceAgents logFilter, j.fields? fieldNames = some [seed, traceAgents, logFilter]
        ∧ field? seed standard.seed (Json.nullable? seed?) = some c.seed
        ∧ field? traceAgents standard.traceAgents Json.boolean? = some c.traceAgents
        ∧ field? logFilter standard.logFilter Json.text? = some c.logFilter := by
  constructor
  · intro hread
    rw [ofJson?, Json.opening?] at hread
    split at hread
    · next seed traceAgents logFilter hfields =>
      obtain ⟨_, hseed, hread⟩ := Option.bind_eq_some_iff.mp hread
      obtain ⟨_, htraceAgents, hread⟩ := Option.bind_eq_some_iff.mp hread
      obtain ⟨_, hlogFilter, hread⟩ := Option.bind_eq_some_iff.mp hread
      cases hread
      exact ⟨seed, traceAgents, logFilter, hfields, hseed, htraceAgents, hlogFilter⟩
    · cases hread
  · rintro ⟨seed, traceAgents, logFilter, hfields, hseed, htraceAgents, hlogFilter⟩
    rw [fieldNames] at hfields
    simp only [ofJson?, Json.opening?, hfields, hseed, htraceAgents, hlogFilter]
    rfl

/-- **A configuration is read from the members that give it**, and from no others. -/
theorem ofJson?_object_eq_some_iff (h : Json.Named members) (room : Nat) :
    ofJson? (room + 1) (.object members) = some c ↔ ReadFrom members c := by
  have hfields (seed traceAgents logFilter : Option Json) :
      (Json.object members).fields? fieldNames = some [seed, traceAgents, logFilter]
        ↔ Json.held "seed" members = seed.toList
          ∧ Json.held "trace_agents" members = traceAgents.toList
          ∧ Json.held "log_filter" members = logFilter.toList := by
    rw [Json.fields?_object h, fieldNames, List.forall₂_cons, List.forall₂_cons, List.forall₂_cons]
    exact ⟨fun ⟨hseed, hflag, hfilter, _⟩ => ⟨hseed, hflag, hfilter⟩,
      fun ⟨hseed, hflag, hfilter⟩ => ⟨hseed, hflag, hfilter, .nil⟩⟩
  have hseed := fieldIs_iff standard.seed nullable?_seed?_eq_some_iff
    (Json.held "seed" members) c.seed
  have hflag := fieldIs_iff standard.traceAgents boolean?_eq_some_iff
    (Json.held "trace_agents" members) c.traceAgents
  have hfilter := fieldIs_iff standard.logFilter text?_eq_some_iff
    (Json.held "log_filter" members) c.logFilter
  simp only [ofJson?_eq_some_iff, hfields]
  constructor
  · rintro ⟨seed, flag, filter, ⟨hheldSeed, hheldFlag, hheldFilter⟩, hseedValue, hflagValue,
      hfilterValue⟩
    exact ⟨hseed.mpr ⟨seed, hheldSeed, hseedValue⟩, hflag.mpr ⟨flag, hheldFlag, hflagValue⟩,
      hfilter.mpr ⟨filter, hheldFilter, hfilterValue⟩⟩
  · intro hc
    obtain ⟨seed, hheldSeed, hseedValue⟩ := hseed.mp hc.seed
    obtain ⟨flag, hheldFlag, hflagValue⟩ := hflag.mp hc.traceAgents
    obtain ⟨filter, hheldFilter, hfilterValue⟩ := hfilter.mp hc.logFilter
    exact ⟨seed, flag, filter, ⟨hheldSeed, hheldFlag, hheldFilter⟩, hseedValue, hflagValue,
      hfilterValue⟩

/-! ## Files -/

/-- A file that holds no configuration is malformed. -/
theorem load_eq_malformed {bytes : ByteArray} (h : ∀ c, load (some bytes) ≠ .ok c) :
    load (some bytes) = .error .malformed := by
  simp only [load] at h ⊢
  cases hread : Json.ofBytes? bytes >>= ofJson? Json.depthLimit with
  | none => rfl
  | some c => exact absurd (by rw [hread]) (h c)

/-- **A file is loaded as the configuration that its members give.** -/
theorem load_eq_ok_iff (htext : (Json.object members).WrittenAs text.toList)
    (hnamed : Json.Named members) :
    load (some text.toUTF8) = .ok c ↔ ReadFrom members c := by
  rw [← ofJson?_object_eq_some_iff hnamed 126, load, Json.ofBytes?_of_writtenAs htext,
    Option.bind_eq_bind, Option.bind_some, Json.depthLimit]
  cases ofJson? (126 + 1) (.object members) <;> simp

/-- **What a file is loaded as**, if it is a text of an object with some members. -/
structure PartialLaw (members : List (StringLiteral × Json)) (text : String) : Prop where
  /-- Each field that is given takes its value, and each one that is not its default. -/
  loads : ∀ c, load (some text.toUTF8) = .ok c ↔ ReadFrom members c
  /-- With no field given twice, the file is loaded exactly if each field that is given has a value
  of its type, whatever the other members hold. -/
  succeeds : (∀ name ∈ fieldNames, (Json.held name members).length ≤ 1) →
    ((∃ c, load (some text.toUTF8) = .ok c) ↔ WellTyped members)
  /-- Every other file is refused as malformed. -/
  refuses : (∀ c, load (some text.toUTF8) ≠ .ok c) → load (some text.toUTF8) = .error .malformed
  /-- A field that is given twice makes the file malformed, even if both values agree. -/
  refuses_twice : ∀ name ∈ fieldNames, 2 ≤ (Json.held name members).length →
    load (some text.toUTF8) = .error .malformed
  /-- Any other file in which the fields are given the same values is loaded with the same result:
  neither the order of the members nor the members of other names make a difference. -/
  independent : ∀ (members' : List (StringLiteral × Json)) (text' : String),
    (Json.object members').WrittenAs text'.toList → Json.Named members' →
    (∀ name ∈ fieldNames, (Json.held name members').Perm (Json.held name members)) →
    load (some text'.toUTF8) = load (some text.toUTF8)

/-- **Configurations in part.** A text of an object whose names are texts is loaded field by field,
with the defaults for what it does not give. -/
theorem partial_law (members : List (StringLiteral × Json)) (text : String)
    (htext : (Json.object members).WrittenAs text.toList) (hnamed : Json.Named members) :
    PartialLaw members text where
  loads _ := load_eq_ok_iff htext hnamed
  succeeds honce := by
    simp only [load_eq_ok_iff htext hnamed, exists_readFrom_iff honce]
  refuses := load_eq_malformed
  refuses_twice name hname htwice := by
    refine load_eq_malformed fun c hc => ?_
    have honce := ((load_eq_ok_iff htext hnamed).mp hc).length_le hname
    omega
  independent members' text' htext' hnamed' hperm := by
    have hiff (c : Config) :
        load (some text'.toUTF8) = .ok c ↔ load (some text.toUTF8) = .ok c := by
      rw [load_eq_ok_iff htext hnamed, load_eq_ok_iff htext' hnamed']
      exact ⟨fun h => h.of_perm fun name hname => (hperm name hname).symm,
        fun h => h.of_perm hperm⟩
    cases hload : load (some text.toUTF8) with
    | ok c => exact (hiff c).mpr hload
    | error e =>
      have hnone (c : Config) : load (some text.toUTF8) ≠ .ok c := by
        rw [hload]
        exact nofun
      rw [load_eq_malformed fun c hc => hnone c ((hiff c).mp hc), ← hload, load_eq_malformed hnone]

/-- The members of a file that gives two fields, one of them under a name with an escape, and holds
notes in which a seed is mentioned next to half of a surrogate pair. -/
def sketch : List (StringLiteral × Json) :=
  [(.ofText "notes", .list [.ofMembers [("seed", .ofNat 1)], .string [.unit 0xd800]]),
    (.unit 0x73 :: StringLiteral.ofText "eed", .ofNat 7), (.ofText "trace_agents", .boolean true)]

theorem sound_sketch : ∀ m ∈ sketch, m.1.Sound ∧ m.2.Sound := by
  have hsurrogate : (Json.string [.unit 0xd800]).Sound := by
    refine .string fun p hp => ?_
    cases List.mem_singleton.mp hp
    exact .unit (by decide)
  have hnotes : (Json.list [.ofMembers [("seed", .ofNat 1)], .string [.unit 0xd800]]).Sound := by
    refine .list fun item hitem => ?_
    simp only [List.mem_cons, List.not_mem_nil, or_false] at hitem
    rcases hitem with rfl | rfl
    · exact Json.sound_ofMembers (by simp [Json.sound_ofNat])
    · exact hsurrogate
  have hseed : StringLiteral.Sound (.unit 0x73 :: StringLiteral.ofText "eed") :=
    List.forall_mem_cons.mpr ⟨.unit (by decide), StringLiteral.sound_ofText "eed"⟩
  intro m hm
  simp only [sketch, List.mem_cons, List.not_mem_nil, or_false] at hm
  rcases hm with rfl | rfl | rfl
  · exact ⟨StringLiteral.sound_ofText _, hnotes⟩
  · exact ⟨hseed, Json.sound_ofNat 7⟩
  · exact ⟨StringLiteral.sound_ofText _, .boolean⟩

theorem sound_of_mem_sketch {members : List (StringLiteral × Json)}
    (h : ∀ m ∈ members, m = (.ofText "log_filter", .null) ∨ m ∈ sketch) :
    (Json.object members).Sound := by
  have hmember : ∀ m ∈ members, m.1.Sound ∧ m.2.Sound := by
    intro m hm
    rcases h m hm with rfl | hm
    · exact ⟨StringLiteral.sound_ofText _, .null⟩
    · exact sound_sketch m hm
  exact .object (fun m hm => (hmember m hm).1) fun m hm => (hmember m hm).2

theorem named_sketch : Json.Named sketch := by
  intro m hm
  simp only [sketch, List.mem_cons, List.not_mem_nil, or_false] at hm
  rcases hm with rfl | rfl | rfl
  · exact ⟨_, StringLiteral.text?_ofText _⟩
  · exact ⟨"seed", by decide⟩
  · exact ⟨_, StringLiteral.text?_ofText _⟩

/-- The fields of the sketch are loaded past its notes, in any order; given twice, they are refused,
and so are they next to a filter that is no text. -/
theorem partial_law_sketch :
    (Json.object sketch).WrittenAs (Json.object sketch).pretty.toList ∧ Json.Named sketch
      ∧ load (some (Json.object sketch).pretty.toUTF8) = .ok ⟨some 7, true, "info"⟩
      ∧ load (some (Json.object sketch.reverse).text.toUTF8) = .ok ⟨some 7, true, "info"⟩
      ∧ load (some (Json.object (sketch ++ sketch)).text.toUTF8) = .error .malformed
      ∧ load (some (Json.object ((.ofText "log_filter", .null) :: sketch)).text.toUTF8)
        = .error .malformed := by
  have htext := Json.writtenAs_pretty (sound_of_mem_sketch fun m hm => .inr hm)
  have hlaw := partial_law sketch _ htext named_sketch
  have hload : load (some (Json.object sketch).pretty.toUTF8) = .ok ⟨some 7, true, "info"⟩ :=
    (hlaw.loads _).mpr ⟨.given (.some rfl rfl rfl rfl), .given .intro, .absent⟩
  refine ⟨htext, named_sketch, hload, ?_, ?_, ?_⟩
  · rw [← hload]
    refine hlaw.independent _ _ (Json.writtenAs_text (sound_of_mem_sketch fun m hm => ?_))
      (fun m hm => ?_) fun name _ => ?_
    · exact .inr (List.mem_reverse.mp hm)
    · exact named_sketch m (List.mem_reverse.mp hm)
    · exact ((List.reverse_perm sketch).filter _).map _
  · have hmem {m : StringLiteral × Json} (hm : m ∈ sketch ++ sketch) : m ∈ sketch :=
      (List.mem_append.mp hm).elim id id
    exact (partial_law (sketch ++ sketch) _
      (Json.writtenAs_text (sound_of_mem_sketch fun m hm => .inr (hmem hm)))
      fun m hm => named_sketch m (hmem hm)).refuses_twice "seed" (by decide) (by decide)
  · have hwrong := partial_law ((.ofText "log_filter", .null) :: sketch) _
      (Json.writtenAs_text (sound_of_mem_sketch fun m hm => List.mem_cons.mp hm))
      (List.forall_mem_cons.mpr ⟨⟨_, StringLiteral.text?_ofText _⟩, named_sketch⟩)
    refine hwrong.refuses fun c hc => ?_
    obtain ⟨text, hfilter⟩ :=
      ((hwrong.succeeds (by decide)).mp ⟨c, hc⟩).logFilter .null List.mem_cons_self
    cases hfilter

end Config

end AgentSweep
