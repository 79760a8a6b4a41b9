import AgentSweep.Form.ValueForm
import AgentSweep.Proofs.Form.Shapes
import AgentSweep.Proofs.Json.Doubles

/-!
# Values are read back

A value is written as a choice of its type. Everything but numbers is read back as it was, and a
number as whatever its own digits are read as; so reading a written value rereads its numbers one by
one (`Value.reread?`). What else can go wrong is the depth of the text. A reader has room for 127
objects and lists in each other, of which a list takes two and an agent set up to five.

The literals of a written value are well formed whatever its numbers are. Hence the text is always
read as the JSON value that was written, and the rest is about the two recursions over that.
-/

namespace AgentSweep

/-! ## Agents -/

namespace AgentId

/-- **An id as it can be written**: its slot and its version are 32-bit words, and the last slot
number stands for `null` alone. -/
structure Held (id : AgentId) : Prop where
  slot_lt : id.slot < UInt32.size
  generation_lt : id.generation < generations
  eq_null : id.slot = lastSlot → id = null

instance (id : AgentId) : Decidable id.Held :=
  decidable_of_iff
    (id.slot < UInt32.size ∧ id.generation < generations ∧ (id.slot = lastSlot → id = null))
    ⟨fun h => ⟨h.1, h.2.1, h.2.2⟩, fun h => ⟨h.slot_lt, h.generation_lt, h.eq_null⟩⟩

variable {id : AgentId}

theorem sound_toJson (id : AgentId) : id.toJson.Sound := by
  refine Json.sound_ofMembers fun m hm => ?_
  simp only [List.mem_cons, List.not_mem_nil, or_false] at hm
  rcases hm with rfl | rfl <;> exact Json.sound_ofNat _

theorem readAs_toJson (h : id.Held) : Json.ReadAs ofJson? id.toJson (some id) := by
  have hfields : id.toJson.fields? ["idx", "version"]
      = some [some (.ofNat id.slot), some (.ofNat id.version)] := by
    have hnames : ["idx", "version"].Nodup := by decide
    exact Json.fields?_ofMembers
      [("idx", .ofNat id.slot), ("version", .ofNat id.version)] hnames
  have hversion : id.version < UInt32.size := by
    have := h.generation_lt
    simp only [generations, version, UInt32.size] at this ⊢
    omega
  have hdepth : id.toJson.depth = 1 := by simp [toJson, Json.itemDepth]
  intro room
  rw [hdepth, ofJson?]
  cases room with
  | zero => rfl
  | succ room =>
    simp only [Json.opening?, hfields, Json.natBelow?_ofNat h.slot_lt,
      Json.natBelow?_ofNat hversion]
    show some (ofVersion id.slot id.version) = _
    rw [ofVersion_version h.eq_null, if_pos (Nat.le_add_left 1 room)]

end AgentId

namespace Kind

theorem ofJson?_toJson (room : Nat) (kind : Kind) : ofJson? room kind.toJson = some kind := by
  have hkind : all.find? (fun other => other.formName == kind.formName) = some kind := by
    cases kind <;> rfl
  rw [ofJson?, Json.plainChoice?, toJson, Json.choice?_ofText]
  exact hkind

end Kind

namespace AgentSet

/-- The ids that a set lists. -/
def ids : AgentSet → List AgentId
  | breed _ _ => []
  | fixed _ members => members

variable {set : AgentSet}

theorem sound_toJson (set : AgentSet) : set.toJson.Sound := by
  cases set with
  | breed kind name =>
    refine Json.sound_ofMembers ?_
    simp only [List.mem_singleton, forall_eq]
    refine Json.sound_ofMembers ?_
    simp only [List.mem_cons, List.not_mem_nil, or_false, forall_eq_or_imp, forall_eq]
    exact ⟨Json.sound_ofText _, Json.sound_ofText _⟩
  | fixed kind members =>
    refine Json.sound_ofMembers ?_
    simp only [List.mem_singleton, forall_eq]
    refine Json.sound_ofMembers ?_
    simp only [List.mem_cons, List.not_mem_nil, or_false, forall_eq_or_imp, forall_eq]
    refine ⟨Json.sound_ofText _, .list fun item hitem => ?_⟩
    obtain ⟨id, -, rfl⟩ := List.mem_map.mp hitem
    exact id.sound_toJson

theorem readAs_toJson (h : ∀ id ∈ set.ids, id.Held) :
    Json.ReadAs ofJson? set.toJson (some set) := by
  intro room
  cases set with
  | breed kind name =>
    have hnames : ["kind", "name"].Nodup := by decide
    have hfields := Json.fields?_ofMembers
      [("kind", kind.toJson), ("name", .ofText name)] hnames
    have hdepth : (breed kind name).toJson.depth = 2 := by
      simp [toJson, Json.itemDepth, Kind.toJson]
    rw [hdepth]
    simp only [List.map_cons, List.map_nil] at hfields
    simp only [toJson, ofJson?, Json.choice?_ofMembers, hfields, Kind.ofJson?_toJson,
      Json.text?_ofText]
    rcases room with _ | _ | room <;> simp [Json.opening?]
  | fixed kind members =>
    have hnames : ["kind", "members"].Nodup := by decide
    have hfields := Json.fields?_ofMembers
      [("kind", kind.toJson), ("members", .list (members.map AgentId.toJson))] hnames
    generalize hitems : members.map AgentId.toJson = items at hfields
    have hread (room : Nat) : (Json.list items).listOf? room AgentId.ofJson?
        = if Json.itemDepth items + 1 ≤ room then some members else none := by
      rw [Json.listOf?, ← Json.opening?_ite, ← hitems]
      exact congrArg _ (funext fun room =>
        Json.ReadAs.mapM (fun id hid => AgentId.readAs_toJson (h id hid)) room)
    have hdepth : (fixed kind members).toJson.depth = Json.itemDepth items + 1 + 2 := by
      simp [toJson, Json.itemDepth, Kind.toJson, Json.depth, hitems]
    rw [hdepth]
    simp only [List.map_cons, List.map_nil] at hfields
    simp only [toJson, hitems, ofJson?, Json.choice?_ofMembers, hfields, Kind.ofJson?_toJson, hread]
    rcases room with _ | _ | room
    · simp [Json.opening?]
    · simp [Json.opening?]
    · by_cases hroom : Json.itemDepth items + 1 ≤ room <;> simp [Json.opening?, hroom]

end AgentSet

/-! ## Values -/

namespace Value

/-- **The JSON text of a value.** -/
def written (v : Value) : String := v.toJson.text

/-- **The value that a JSON text is read as.** -/
def read? (s : String) : Option Value := Json.ofString? s >>= ofJson? Json.depthLimit

mutual

/-- The numbers in a value. -/
def numbers : Value → List Float
  | number x => [x]
  | list items => itemNumbers items
  | _ => []

/-- The numbers in some values. -/
def itemNumbers : List Value → List Float
  | [] => []
  | item :: items => item.numbers ++ itemNumbers items

end

mutual

/-- The ids in a value. -/
def ids : Value → List AgentId
  | agent id => [id]
  | agentset set => set.ids
  | list items => itemIds items
  | _ => []

/-- The ids in some values. -/
def itemIds : List Value → List AgentId
  | [] => []
  | item :: items => item.ids ++ itemIds items

end

mutual

/-- **The value with each number reread from its own digits**, if all of them can be. -/
def reread? : Value → Option Value
  | number x => (numberToJson x).float?.map number
  | list items => (rereadItems? items).map list
  | v => some v

/-- Some values with their numbers reread. -/
def rereadItems? : List Value → Option (List Value)
  | [] => some []
  | item :: items =>
    match item.reread?, rereadItems? items with
    | some value, some values => some (value :: values)
    | _, _ => none

end

/-! ### The text is read as the JSON value that was written -/

theorem sound_numberToJson (x : Float) : (numberToJson x).Sound := by
  unfold numberToJson
  split
  · next hwritten => exact .number (NumberLiteral.sound_ofFloat? hwritten)
  · exact .null

mutual

theorem sound_toJson (v : Value) : v.toJson.Sound := by
  cases v with
  | nobody => exact Json.sound_ofText _
  | number x => exact Json.sound_ofMembers (by simpa using sound_numberToJson x)
  | boolean b => exact Json.sound_ofMembers (by simpa using .boolean)
  | text s => exact Json.sound_ofMembers (by simpa using Json.sound_ofText s)
  | agent id => exact Json.sound_ofMembers (by simpa using id.sound_toJson)
  | agentset set => exact Json.sound_ofMembers (by simpa using set.sound_toJson)
  | list items => exact Json.sound_ofMembers (by simpa using .list (sound_itemsToJson items))

theorem sound_itemsToJson (items : List Value) : ∀ j ∈ itemsToJson items, j.Sound := by
  cases items with
  | nil => simp [itemsToJson]
  | cons item items =>
    simp only [itemsToJson, List.forall_mem_cons]
    exact ⟨sound_toJson item, sound_itemsToJson items⟩

end

theorem read?_written (v : Value) : read? v.written = ofJson? Json.depthLimit v.toJson := by
  rw [read?, written, Json.ofString?_text v.sound_toJson]
  rfl

/-! ### Reading is rereading the numbers -/

/-- A choice other than a list is read as what it holds is read as. -/
theorem readAs_ofMembers {name : String} {held : Json} {result : Option Value}
    (hname : name ≠ "List") (h : Json.ReadAs (fun room => ofHeld? room name) held result) :
    Json.ReadAs ofJson? (.ofMembers [(name, held)]) result := by
  intro room
  have hopen : ofJson? room (.ofMembers [(name, held)])
      = Json.opening? room fun room => ofHeld? room name held := by
    cases room with
    | zero => rfl
    | succ room =>
      simp only [Json.ofMembers, List.map_singleton, ofJson?, StringLiteral.text?_ofText,
        if_neg hname, Json.opening?]
  rw [hopen, funext h, Json.opening?_ite, Json.depth_ofMembers]
  simp only [List.map_singleton, Json.itemDepth, Nat.max_zero]

theorem depth_numberToJson (x : Float) : (numberToJson x).depth = 0 := by
  unfold numberToJson
  split <;> rfl

mutual

/-- **A written value is read with its numbers reread**, if there is room for it. -/
theorem readAs_toJson (v : Value) (h : ∀ id ∈ v.ids, id.Held) :
    Json.ReadAs ofJson? v.toJson v.reread? := by
  cases v with
  | nobody =>
    intro room
    simp [toJson, Json.ofText, ofJson?, StringLiteral.text?_ofText, Json.depth, reread?]
  | number x =>
    refine readAs_ofMembers (by decide) fun room => ?_
    rw [depth_numberToJson, if_pos (Nat.zero_le room)]
    rfl
  | boolean b => exact readAs_ofMembers (by decide) fun _ => rfl
  | text s =>
    refine readAs_ofMembers (by decide) fun room => ?_
    show (Json.ofText s).text?.map text = _
    rw [Json.text?_ofText, Json.depth_ofText, if_pos (Nat.zero_le room)]
    rfl
  | agent id =>
    exact readAs_ofMembers (by decide) ((AgentId.readAs_toJson (h id List.mem_cons_self)).map agent)
  | agentset set => exact readAs_ofMembers (by decide) ((AgentSet.readAs_toJson h).map agentset)
  | list items =>
    -- one room for the choice, and one for the list that it holds
    intro room
    have hdepth : (list items).toJson.depth = Json.itemDepth (itemsToJson items) + 2 := by
      simp [toJson, Json.itemDepth, Json.depth]
    rw [hdepth, reread?, toJson, Json.ofMembers]
    simp only [List.map_singleton, ofJson?, StringLiteral.text?_ofText]
    rcases room with _ | _ | room
    · rfl
    · rfl
    · simp only [if_true, ofList?, ofItems?_itemsToJson items h room, Nat.add_le_add_iff_right]
      split <;> rfl

theorem ofItems?_itemsToJson (items : List Value) (h : ∀ id ∈ itemIds items, id.Held) (room : Nat) :
    ofItems? room (itemsToJson items)
      = if Json.itemDepth (itemsToJson items) ≤ room then rereadItems? items else none := by
  cases items with
  | nil => rfl
  | cons item items =>
    simp only [itemIds, List.forall_mem_append] at h
    simp only [itemsToJson, ofItems?, readAs_toJson item h.1 room,
      ofItems?_itemsToJson items h.2 room, Json.itemDepth, rereadItems?, Nat.max_le]
    by_cases hitem : item.toJson.depth ≤ room
    · by_cases hitems : Json.itemDepth (itemsToJson items) ≤ room
      · rewrite [if_pos hitem, if_pos hitems, if_pos ⟨hitem, hitems⟩]
        rfl
      · rewrite [if_neg hitems, if_neg (not_and_of_not_right _ hitems)]
        cases (if item.toJson.depth ≤ room then item.reread? else none) <;> rfl
    · rewrite [if_neg hitem, if_neg (not_and_of_not_left _ hitem)]
      rfl

end

/-! ### When the numbers are read back -/

mutual

/-- A value whose numbers are read back is itself read back. -/
theorem reread?_eq_some (v : Value)
    (h : ∀ x ∈ v.numbers, (number x).reread? = some (number x)) : v.reread? = some v := by
  cases v with
  | number x => exact h x List.mem_cons_self
  | list items => rw [reread?, rereadItems?_eq_some items h, Option.map_some]
  | _ => rfl

theorem rereadItems?_eq_some (items : List Value)
    (h : ∀ x ∈ itemNumbers items, (number x).reread? = some (number x)) :
    rereadItems? items = some items := by
  cases items with
  | nil => rfl
  | cons item items =>
    simp only [itemNumbers, List.forall_mem_append] at h
    rw [rereadItems?, reread?_eq_some item h.1, rereadItems?_eq_some items h.2]

end

mutual

/-- A value with a number that is not read at all is not read either. -/
theorem reread?_eq_none (v : Value) {x : Float} (hx : x ∈ v.numbers)
    (h : (number x).reread? = none) : v.reread? = none := by
  cases v with
  | number y => rwa [List.mem_singleton.mp hx] at h
  | list items => rw [reread?, rereadItems?_eq_none items hx h, Option.map_none]
  | nobody | boolean _ | text _ | agent _ | agentset _ => cases hx

theorem rereadItems?_eq_none (items : List Value) {x : Float} (hx : x ∈ itemNumbers items)
    (h : (number x).reread? = none) : rereadItems? items = none := by
  cases items with
  | nil => cases hx
  | cons item items =>
    rw [rereadItems?]
    rcases List.mem_append.mp hx with hx | hx
    · rw [reread?_eq_none item hx h]
    · rw [rereadItems?_eq_none items hx h]
      cases item.reread? <;> rfl

end

/-- A number that is not finite is written as nothing that a number could be read from. -/
theorem reread?_of_not_isFinite {x : Float} (h : x.isFinite = false) :
    (number x).reread? = none := by
  have hnone : NumberLiteral.ofFloat? x = none := by
    rw [← Option.not_isSome_iff_eq_none, NumberLiteral.isSome_ofFloat?, h]
    exact Bool.false_ne_true
  rw [reread?, numberToJson, hnone]
  rfl

/-- A number alone is read back as its own digits are. -/
theorem read?_written_number (x : Float) : read? (number x).written = (number x).reread? := by
  rw [read?_written, readAs_toJson (number x) (by simp [ids]), if_pos]
  rw [toJson, Json.depth_ofMembers, List.map_singleton, Json.itemDepth, depth_numberToJson]
  decide

/-- **Reading undoes writing exactly where it can.** Let the ids in a value be ids as they can be
written. Its text stands for `v.toJson`. If each number in the value is read back from its own
text – which none is that is not finite – then the whole value is read back if no more than 127
objects and lists lie in each other in its text, and it is refused otherwise. A value with a number
that is not finite is always refused, whatever its other numbers are. -/
theorem read?_written_cases (v : Value) (hids : ∀ id ∈ v.ids, id.Held) :
    Json.ofString? v.written = some v.toJson
      ∧ ((∀ x ∈ v.numbers, read? (number x).written = some (number x)) →
        (v.toJson.depth ≤ 127 → read? v.written = some v)
          ∧ (127 < v.toJson.depth → read? v.written = none))
      ∧ ((∃ x ∈ v.numbers, x.isFinite = false) → read? v.written = none) := by
  have hread : read? v.written = if v.toJson.depth ≤ 127 then v.reread? else none :=
    (read?_written v).trans (readAs_toJson v hids Json.depthLimit)
  refine ⟨Json.ofString?_text v.sound_toJson, fun hnumbers => ?_, ?_⟩
  · have hsome := reread?_eq_some v fun x hx => (read?_written_number x).symm.trans (hnumbers x hx)
    rw [hsome] at hread
    refine ⟨fun hdepth => ?_, fun hdepth => ?_⟩
    · rw [hread, if_pos hdepth]
    · rw [hread, if_neg (Nat.not_le_of_lt hdepth)]
  · rintro ⟨x, hx, hfinite⟩
    rw [hread, reread?_eq_none v hx (reread?_of_not_isFinite hfinite)]
    exact ite_self none

/-- A list with something of every type in it: zeros of both signs, a number with an exponent, a
text that has to be escaped, and ids from both ends of their range. -/
def medley : Value :=
  .list [.nobody, .list [.number 0.5, .number 0, .number (-0), .number 1e23], .boolean true,
    .text "\"\\\n\x01é", .agent ⟨1, AgentId.generations - 1⟩,
    .agentset (.fixed .turtle [⟨AgentId.lastSlot - 1, 0⟩, .null]), .agentset (.breed .patch "")]

theorem read?_written_medley :
    (∀ id ∈ medley.ids, id.Held)
      ∧ (∀ x ∈ medley.numbers, read? (number x).written = some (number x))
      ∧ medley.toJson.depth = 7 ∧ read? medley.written = some medley := by
  have hids : ∀ id ∈ medley.ids, id.Held := by decide +kernel
  have hnumbers : ∀ x ∈ medley.numbers, read? (number x).written = some (number x) := by
    intro x hx
    have hdigits : ∀ x ∈ medley.numbers, (numberToJson x).float? = some x := by decide +kernel
    rw [read?_written_number, reread?, hdigits x hx, Option.map_some]
  have hdepth : medley.toJson.depth = 7 := by decide +kernel
  exact ⟨hids, hnumbers, hdepth, ((read?_written_cases medley hids).2.1 hnumbers).1 (by omega)⟩

end Value

end AgentSweep
