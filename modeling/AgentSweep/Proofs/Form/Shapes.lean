import AgentSweep.Form.Shape
import AgentSweep.Proofs.Json.RoundTrip

/-!
# Shapes are read back

What is written as a text, a number or a record has literals that are read back, and is read as
what it was written for. Of an object a record is read field by field: the members may stand in any
order, and only those of its own names matter (`Json.fields?_object`).

A reader takes along how many more objects and lists it may open. That it reads a value exactly if
there is room for the depth of that value is `Json.ReadAs`.
-/

namespace AgentSweep

namespace Json

/-- Items are read together if they are read one by one. -/
theorem mapM_eq_some_iff {α β : Type} {f : α → Option β} {l : List α} {results : List β} :
    l.mapM f = some results ↔ l.Forall₂ (fun a b => f a = some b) results := by
  induction l generalizing results with
  | nil =>
    rw [List.mapM_nil, List.forall₂_nil_left_iff]
    exact Option.some_inj.trans eq_comm
  | cons a l ih =>
    rw [List.mapM_cons, List.forall₂_cons_left_iff]
    constructor
    · intro h
      obtain ⟨b, hb, h⟩ := Option.bind_eq_some_iff.mp h
      obtain ⟨later, hlater, h⟩ := Option.bind_eq_some_iff.mp h
      cases h
      exact ⟨b, later, hb, ih.mp hlater, rfl⟩
    · rintro ⟨b, later, hb, hlater, rfl⟩
      rw [hb, ih.mpr hlater]
      rfl

@[simp]
theorem text?_ofText (s : String) : (ofText s).text? = some s := StringLiteral.text?_ofText s

theorem sound_ofText (s : String) : (ofText s).Sound := .string (StringLiteral.sound_ofText s)

theorem sound_ofNat (n : Nat) : (ofNat n).Sound := .number (NumberLiteral.sound_ofNat n)

theorem natBelow?_ofNat {n limit : Nat} (h : n < limit) : (ofNat n).natBelow? limit = some n := by
  rw [ofNat, natBelow?, NumberLiteral.toNat?_ofNat, Option.filter_some, if_pos (decide_eq_true h)]

theorem sound_ofMembers {members : List (String × Json)} (h : ∀ m ∈ members, m.2.Sound) :
    (ofMembers members).Sound := by
  refine .object ?_ ?_
  · intro m hm
    obtain ⟨named, -, rfl⟩ := List.mem_map.mp hm
    exact StringLiteral.sound_ofText _
  · intro m hm
    obtain ⟨named, hnamed, rfl⟩ := List.mem_map.mp hm
    exact h named hnamed

theorem choice?_ofText (s : String) : (ofText s).choice? = some (s, none) := by
  rw [ofText, choice?, StringLiteral.text?_ofText, Option.map_some]

/-- **A choice is read back**, with what it holds. -/
theorem choice?_ofMembers (name : String) (held : Json) :
    (ofMembers [(name, held)]).choice? = some (name, some held) := by
  rw [ofMembers, List.map_singleton, choice?, StringLiteral.text?_ofText, Option.map_some]

/-! ## Records -/

/-- **What the members of a name hold**, in their order. A name is compared as the text it is, not
as it is written. -/
def held (name : String) (members : List (StringLiteral × Json)) : List Json :=
  (members.filter fun m => m.1.text? == some name).map Prod.snd

/-- Members whose names are texts. -/
def Named (members : List (StringLiteral × Json)) : Prop :=
  ∀ m ∈ members, ∃ name, m.1.text? = some name

/-- A name has one value, or none, exactly if that is all that its members hold. -/
theorem only?_eq_some_iff {name : String} {members : List (String × Json)} {given : Option Json} :
    only? name members = some given
      ↔ (members.filter fun m => m.1 == name).map Prod.snd = given.toList := by
  unfold only?
  cases members.filter fun m => m.1 == name with
  | nil => cases given <;> simp
  | cons m rest => cases rest <;> cases given <;> simp

/-- Names that are texts are read, and their members hold what they held. -/
theorem exists_mapM_text? {members : List (StringLiteral × Json)} (h : Named members) :
    ∃ named, members.mapM (fun m => m.1.text?.map fun name => (name, m.2)) = some named
      ∧ ∀ name, (named.filter fun m => m.1 == name).map Prod.snd = held name members := by
  induction members with
  | nil => exact ⟨[], rfl, fun _ => rfl⟩
  | cons m members ih =>
    obtain ⟨own, hown⟩ := h m List.mem_cons_self
    obtain ⟨named, hnamed, hheld⟩ := ih fun other hother => h other (List.mem_cons_of_mem _ hother)
    refine ⟨(own, m.2) :: named, ?_, fun name => ?_⟩
    · rw [List.mapM_cons, hown, hnamed]
      rfl
    · rw [held, List.filter_cons, List.filter_cons, hown]
      by_cases hname : own = name
      · simp only [hname, beq_self_eq_true, if_true, List.map_cons]
        rw [hheld, held]
      · simp only [beq_iff_eq, hname, Option.some_inj, if_false]
        rw [hheld, held]

/-- **The fields of an object.** Each of them is the only value that the members of its name hold,
or is not given if there are none. -/
theorem fields?_object {members : List (StringLiteral × Json)} (h : Named members)
    {names : List String} {given : List (Option Json)} :
    (object members).fields? names = some given
      ↔ names.Forall₂ (fun name value => held name members = value.toList) given := by
  obtain ⟨named, hnamed, hheld⟩ := exists_mapM_text? h
  have hfields : (object members).fields? names = names.mapM fun name => only? name named := by
    show Option.bind
      (List.mapM (fun m : StringLiteral × Json => m.1.text?.map fun name => (name, m.2)) _) _ = _
    rw [hnamed, Option.bind_some]
  simp only [hfields, mapM_eq_some_iff, only?_eq_some_iff, hheld]

theorem named_ofText (members : List (String × Json)) :
    Named (members.map fun m => (StringLiteral.ofText m.1, m.2)) := by
  intro m hm
  obtain ⟨named, -, rfl⟩ := List.mem_map.mp hm
  exact ⟨_, StringLiteral.text?_ofText _⟩

/-- A name that no other member has holds one value. -/
theorem held_ofText {members : List (String × Json)} (h : (members.map Prod.fst).Nodup)
    {m : String × Json} (hm : m ∈ members) :
    held m.1 (members.map fun m => (StringLiteral.ofText m.1, m.2)) = [m.2] := by
  have hfilter : members.filter (fun other => other.1 == m.1) = [m] := by
    induction members with
    | nil => cases hm
    | cons first members ih =>
      obtain ⟨hfirst, hrest⟩ := List.nodup_cons.mp h
      rcases List.mem_cons.mp hm with rfl | hm
      · rw [List.filter_cons, if_pos (beq_self_eq_true m.1), List.filter_eq_nil_iff.mpr]
        intro other hother hname
        exact hfirst (eq_of_beq hname ▸ List.mem_map_of_mem hother)
      · have hne : ¬ (first.1 == m.1) = true := fun hname =>
          hfirst ((eq_of_beq hname).symm ▸ List.mem_map_of_mem hm)
        rw [List.filter_cons, if_neg hne, ih hrest hm]
  rw [held, List.filter_map, List.map_map]
  have hname (other : String × Json) :
      ((StringLiteral.ofText other.1).text? == some m.1) = (other.1 == m.1) := by
    rw [StringLiteral.text?_ofText]
    rfl
  simp only [Function.comp_def, hname, hfilter, List.map_cons, List.map_nil]

/-- **A record is read back**, field by field. -/
theorem fields?_ofMembers (members : List (String × Json)) (h : (members.map Prod.fst).Nodup) :
    (ofMembers members).fields? (members.map Prod.fst) = some (members.map fun m => some m.2) := by
  refine (fields?_object (named_ofText members)).mpr ?_
  rw [List.forall₂_map_left_iff, List.forall₂_map_right_iff, List.forall₂_same]
  exact fun m hm => held_ofText h hm

/-! ## Depth -/

mutual

/-- **How deep objects and lists lie in each other.** -/
def depth : Json → Nat
  | list items => itemDepth items + 1
  | object members => memberDepth members + 1
  | _ => 0

/-- The depth of the deepest of some values. -/
def itemDepth : List Json → Nat
  | [] => 0
  | item :: items => max item.depth (itemDepth items)

/-- The depth of the deepest value that some members hold. -/
def memberDepth : List (StringLiteral × Json) → Nat
  | [] => 0
  | (_, held) :: members => max held.depth (memberDepth members)

end

@[simp] theorem depth_ofText (s : String) : (ofText s).depth = 0 := rfl

@[simp] theorem depth_ofNat (n : Nat) : (ofNat n).depth = 0 := rfl

@[simp]
theorem depth_ofMembers (members : List (String × Json)) :
    (ofMembers members).depth = itemDepth (members.map Prod.snd) + 1 := by
  have hmembers : memberDepth (members.map fun m => (StringLiteral.ofText m.1, m.2))
      = itemDepth (members.map Prod.snd) := by
    induction members with
    | nil => rfl
    | cons m members ih => rw [List.map_cons, memberDepth, ih, List.map_cons, itemDepth]
  exact congrArg (· + 1) hmembers

/-- **A value is read with some result if there is room for its depth**, and not read at all if
there is less. -/
def ReadAs {α : Type} (read : Nat → Json → Option α) (j : Json) (result : Option α) : Prop :=
  ∀ room, read room j = if j.depth ≤ room then result else none

theorem ReadAs.map {α β : Type} {read : Nat → Json → Option α} {j : Json} {result : Option α}
    (h : ReadAs read j result) (f : α → β) :
    ReadAs (fun room j => (read room j).map f) j (result.map f) := by
  intro room
  show (read room j).map f = _
  rw [h room]
  split <;> rfl

/-- What is inside an object or a list needs one room less than the whole. -/
theorem opening?_ite {α : Type} (room depth : Nat) (result : Option α) :
    opening? room (fun room => if depth ≤ room then result else none)
      = if depth + 1 ≤ room then result else none := by
  cases room <;> simp [opening?]

/-- Items that are each read with a result are read together if there is room for the deepest. -/
theorem ReadAs.mapM {α : Type} {read : Nat → Json → Option α} {toJson : α → Json} {l : List α}
    (h : ∀ a ∈ l, ReadAs read (toJson a) (some a)) (room : Nat) :
    (l.map toJson).mapM (read room)
      = if itemDepth (l.map toJson) ≤ room then some l else none := by
  induction l with
  | nil => rfl
  | cons a l ih =>
    rw [List.map_cons, List.mapM_cons, h a List.mem_cons_self,
      ih fun b hb => h b (List.mem_cons_of_mem _ hb), itemDepth]
    simp only [Nat.max_le]
    by_cases ha : (toJson a).depth ≤ room <;> by_cases hl : itemDepth (l.map toJson) ≤ room <;>
      simp [ha, hl]

end Json

end AgentSweep
