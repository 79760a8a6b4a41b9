import AgentSweep.Agent.AgentId

/-!
# A table of numbered slots

The store behind a world. Whatever is put in gets an id, and the id resolves until the thing is
taken out; after that it never resolves again, although its slot is used again. The slot vacated
last is used first, and a new slot is made only when none is vacant.

A vacant slot is kept as the id that it will give to its next occupant. An occupied slot records
the generation of its occupant, and an id resolves if and only if the two agree (`get?`).

## The view

What a table means is what its ids name, which is the function `get?`. Every operation has a law
that says what it does to that function (`get?_insert`, `get?_erase`, `get?_modify`). The laws
need no side conditions, since a table carries the proofs that the slots listed as vacant are
vacant, and that none of them is listed twice.
-/

namespace AgentSweep

/-- Whoever is in a slot, with the generation of the slot at that time. -/
structure Occupant (α : Type) where
  generation : Nat
  content : α

/-! ## Rows of slots -/

/-- **A row of slots**, numbered from 1. A vacant slot holds `none`. -/
abbrev SlotRow (α : Type) := Array (Option (Occupant α))

namespace SlotRow

variable {α : Type}

/-- What a slot holds, if there is such a slot. -/
def at? (row : SlotRow α) : Nat → Option (Option (Occupant α))
  | 0 => none
  | i + 1 => row[i]?

/-- The row with something else in one slot. A slot that does not exist is left alone. -/
def put (row : SlotRow α) (slot : Nat) (o : Option (Occupant α)) : SlotRow α :=
  match slot with
  | 0 => row
  | i + 1 => row.setIfInBounds i o

/-- The row with a function applied to whoever is in one slot. -/
def change (row : SlotRow α) (slot : Nat) (f : Occupant α → Occupant α) : SlotRow α :=
  match slot with
  | 0 => row
  | i + 1 => row.modify i (Option.map f)

theorem at?_put (row : SlotRow α) (slot other : Nat) (o : Option (Occupant α)) :
    (row.put slot o).at? other
      = if slot = other then (row.at? slot).map fun _ => o else row.at? other := by
  cases slot with
  | zero => cases other <;> simp [at?, put]
  | succ i =>
    cases other with
    | zero => simp [at?]
    | succ j =>
      simp only [at?, put, Nat.add_right_cancel_iff, Array.getElem?_setIfInBounds]
      split
      · next h => subst h; split <;> simp_all
      · rfl

theorem at?_change (row : SlotRow α) (slot other : Nat) (f : Occupant α → Occupant α) :
    (row.change slot f).at? other
      = if slot = other then (row.at? slot).map (Option.map f) else row.at? other := by
  cases slot with
  | zero => cases other <;> simp [at?, change]
  | succ i =>
    cases other with
    | zero => simp [at?]
    | succ j =>
      simp only [at?, change, Nat.add_right_cancel_iff, Array.getElem?_modify]
      split
      · next h => subst h; rfl
      · rfl

theorem at?_push (row : SlotRow α) (slot : Nat) (o : Option (Occupant α)) :
    SlotRow.at? (row.push o) slot = if slot = row.size + 1 then some o else row.at? slot := by
  cases slot with
  | zero => simp [at?]
  | succ i => simp only [at?, Nat.add_right_cancel_iff, Array.getElem?_push]

theorem at?_eq_none_of_size_lt {row : SlotRow α} {slot : Nat} (h : row.size < slot) :
    row.at? slot = none := by
  cases slot with
  | zero => rfl
  | succ i => exact Array.getElem?_eq_none (Nat.le_of_lt_succ h)

/-- How many slots are occupied. -/
def occupied (row : SlotRow α) : Nat := Array.countP Option.isSome row

theorem occupied_push (row : SlotRow α) (o : Occupant α) :
    occupied (row.push (some o)) = row.occupied + 1 :=
  Array.countP_push

theorem occupied_put_some {row : SlotRow α} {slot : Nat} (o : Occupant α)
    (h : row.at? slot = some none) : (row.put slot (some o)).occupied = row.occupied + 1 := by
  cases slot with
  | zero => cases h
  | succ i =>
    obtain ⟨hi, hrow⟩ := Array.getElem?_eq_some_iff.1 h
    simp only [occupied, put, Array.setIfInBounds_def, dif_pos hi, Array.countP_set, hrow]
    rfl

theorem occupied_put_none {row : SlotRow α} {slot : Nat} {o : Occupant α}
    (h : row.at? slot = some (some o)) : (row.put slot none).occupied + 1 = row.occupied := by
  cases slot with
  | zero => cases h
  | succ i =>
    obtain ⟨hi, hrow⟩ := Array.getElem?_eq_some_iff.1 h
    have hpos : 0 < Array.countP Option.isSome row :=
      Array.countP_pos_iff.2 ⟨some o, Array.mem_of_getElem? h, rfl⟩
    simp only [occupied, put, Array.setIfInBounds_def, dif_pos hi, Array.countP_set, hrow,
      Option.isSome_some, Option.isSome_none, if_true]
    exact Nat.sub_add_cancel hpos

theorem occupied_change (row : SlotRow α) (slot : Nat) (f : Occupant α → Occupant α) :
    (row.change slot f).occupied = row.occupied := by
  cases slot with
  | zero => rfl
  | succ i =>
    have hlist (l : List (Option (Occupant α))) (j : Nat) :
        (l.modify j (Option.map f)).countP Option.isSome = l.countP Option.isSome := by
      induction l generalizing j with
      | nil => cases j <;> rfl
      | cons o l ih => cases j <;> simp [List.countP_cons, ih]
    simp only [occupied, change, ← Array.countP_toList, Array.toList_modify, hlist]

end SlotRow

/-! ## Tables -/

/-- **A table of numbered slots.** -/
structure SlotTable (α : Type) where
  /-- The slots from slot 1 on. -/
  slots : SlotRow α
  /-- The ids that vacant slots will give out, the slot vacated last first. -/
  vacant : List AgentId
  /-- Nobody is in a slot that is listed as vacant. -/
  vacant_empty : ∀ id ∈ vacant, slots.at? id.slot = some none
  /-- No slot is listed twice. -/
  vacant_nodup : (vacant.map AgentId.slot).Nodup

namespace SlotTable

variable {α : Type}

/-- The table without slots. -/
def empty : SlotTable α := ⟨#[], [], by simp, .nil⟩

instance : Inhabited (SlotTable α) := ⟨empty⟩

/-- Who is in a slot. -/
def occupant? (t : SlotTable α) (slot : Nat) : Option (Occupant α) := (t.slots.at? slot).join

/-- **What an id names.** -/
def get? (t : SlotTable α) (id : AgentId) : Option α :=
  match t.occupant? id.slot with
  | some o => if o.generation = id.generation then some o.content else none
  | none => none

/-- Whether an id names anything. -/
def contains (t : SlotTable α) (id : AgentId) : Bool := (t.get? id).isSome

/-- The id that the next thing put into the table will get. -/
def nextId (t : SlotTable α) : AgentId :=
  match t.vacant with
  | id :: _ => id
  | [] => ⟨t.slots.size + 1, 0⟩

/-- Puts a thing into the table, under the id `nextId`. -/
def insert (t : SlotTable α) (content : α) : SlotTable α :=
  match t with
  | ⟨slots, id :: rest, hempty, hnodup⟩ =>
    { slots := slots.put id.slot (some ⟨id.generation, content⟩)
      vacant := rest
      vacant_empty := by
        intro other h
        have hne : id.slot ≠ other.slot := fun heq =>
          (List.nodup_cons.1 hnodup).1 (heq ▸ List.mem_map_of_mem h)
        rw [SlotRow.at?_put, if_neg hne]
        exact hempty other (List.mem_cons_of_mem id h)
      vacant_nodup := (List.nodup_cons.1 hnodup).2 }
  | ⟨slots, [], _, _⟩ => ⟨slots.push (some ⟨0, content⟩), [], by simp, .nil⟩

theorem get?_eq_some_iff {t : SlotTable α} {id : AgentId} {content : α} :
    t.get? id = some content ↔ t.slots.at? id.slot = some (some ⟨id.generation, content⟩) := by
  unfold get? occupant?
  constructor
  · intro h
    split at h
    · next o ho =>
      split at h
      · next hgen =>
        cases h
        rw [Option.join_eq_some_iff.1 ho, ← hgen]
      · cases h
    · cases h
  · intro h
    simp [h]

theorem contains_iff {t : SlotTable α} {id : AgentId} :
    t.contains id = true ↔ ∃ content, t.get? id = some content :=
  Option.isSome_iff_exists

theorem at?_of_contains {t : SlotTable α} {id : AgentId} (h : t.contains id = true) :
    ∃ content, t.slots.at? id.slot = some (some ⟨id.generation, content⟩) :=
  (contains_iff.1 h).imp fun _ => get?_eq_some_iff.1

/-- Takes out what an id names, and makes the slot vacant. -/
def erase (t : SlotTable α) (id : AgentId) : SlotTable α :=
  if h : t.contains id then
    { slots := t.slots.put id.slot none
      vacant := id.successor :: t.vacant
      vacant_empty := by
        obtain ⟨content, hat⟩ := at?_of_contains h
        intro other hmem
        rw [SlotRow.at?_put]
        split
        · simp [hat]
        · next hne =>
          rcases List.mem_cons.1 hmem with rfl | hmem
          · exact absurd id.slot_successor.symm hne
          · exact t.vacant_empty other hmem
      vacant_nodup := by
        obtain ⟨content, hat⟩ := at?_of_contains h
        refine List.nodup_cons.2 ⟨fun hmem => ?_, t.vacant_nodup⟩
        obtain ⟨other, hother, hslot⟩ := List.mem_map.1 hmem
        have := t.vacant_empty other hother
        simp_all }
  else t

/-- Changes what an id names. -/
def modify (t : SlotTable α) (id : AgentId) (f : α → α) : SlotTable α :=
  match t with
  | ⟨slots, vacant, hempty, hnodup⟩ =>
    { slots := slots.change id.slot fun o =>
        if o.generation = id.generation then ⟨o.generation, f o.content⟩ else o
      vacant
      vacant_empty := by
        intro other h
        rw [SlotRow.at?_change]
        split
        · next heq => rw [heq, hempty other h]; rfl
        · exact hempty other h
      vacant_nodup := hnodup }

/-- The first slot, in the order of their numbers, whose occupant passes a test. -/
def findId? (t : SlotTable α) (p : α → Bool) : Option AgentId :=
  match t.slots.findIdx? fun o => o.any fun o => p o.content with
  | some i => (t.occupant? (i + 1)).map fun o => ⟨i + 1, o.generation⟩
  | none => none

/-- How many things the table holds. -/
def size (t : SlotTable α) : Nat := t.slots.occupied

/-! ## What the operations do to the view -/

@[simp] theorem get?_empty (id : AgentId) : (empty : SlotTable α).get? id = none := by
  unfold get? occupant? empty SlotRow.at?
  cases id.slot <;> simp

/-- Nobody has the next id yet. -/
theorem get?_nextId (t : SlotTable α) : t.get? t.nextId = none := by
  have hat : (t.slots.at? t.nextId.slot).join = none := by
    unfold nextId
    split
    · next id rest hv => rw [t.vacant_empty id (hv ▸ List.mem_cons_self)]; rfl
    · rw [SlotRow.at?_eq_none_of_size_lt (Nat.lt_succ_self _)]; rfl
  unfold get? occupant?
  rw [hat]

/-- **What is put in is found under the next id**, and every other id names what it did. -/
theorem get?_insert (t : SlotTable α) (content : α) (id : AgentId) :
    (t.insert content).get? id = if id = t.nextId then some content else t.get? id := by
  obtain ⟨slot, generation⟩ := id
  obtain ⟨slots, vacant, hempty, hnodup⟩ := t
  cases vacant with
  | nil =>
    simp only [get?, occupant?, insert, nextId, SlotRow.at?_push, AgentId.mk.injEq]
    by_cases hslot : slot = slots.size + 1
    · subst hslot
      rw [if_pos rfl, SlotRow.at?_eq_none_of_size_lt (Nat.lt_succ_self _)]
      simp only [Option.join_some, Option.join_none, true_and, eq_comm]
    · simp only [hslot, if_false, false_and]
  | cons next rest =>
    have hnext := hempty next List.mem_cons_self
    rw [show nextId ⟨slots, next :: rest, hempty, hnodup⟩ = next from rfl]
    simp only [get?, occupant?, insert, SlotRow.at?_put]
    by_cases hslot : next.slot = slot
    · subst hslot
      rw [if_pos rfl, hnext]
      cases next
      simp only [Option.map_some, Option.join_some, AgentId.mk.injEq, true_and, eq_comm]
    · have hne : (⟨slot, generation⟩ : AgentId) ≠ next := fun h => hslot (h ▸ rfl)
      rw [if_neg hslot, if_neg hne]

/-- **What is taken out is gone**, and every other id names what it did. -/
theorem get?_erase (t : SlotTable α) (id other : AgentId) :
    (t.erase id).get? other = if other = id then none else t.get? other := by
  unfold erase
  split
  · next h =>
    obtain ⟨content, hat⟩ := at?_of_contains h
    obtain ⟨slot, generation⟩ := other
    simp only [get?, occupant?, SlotRow.at?_put]
    by_cases hslot : id.slot = slot
    · subst hslot
      rw [if_pos rfl, hat]
      cases id
      simp only [Option.map_some, Option.join_some, AgentId.mk.injEq, true_and, eq_comm]
      split <;> rfl
    · have hne : (⟨slot, generation⟩ : AgentId) ≠ id := fun h => hslot (h ▸ rfl)
      rw [if_neg hslot, if_neg hne]
  · next h =>
    split
    · next heq => simpa [contains, heq] using h
    · rfl

/-- **A change is seen under its id alone.** -/
theorem get?_modify (t : SlotTable α) (id other : AgentId) (f : α → α) :
    (t.modify id f).get? other = if other = id then (t.get? id).map f else t.get? other := by
  obtain ⟨slot, generation⟩ := other
  obtain ⟨slots, vacant, hempty, hnodup⟩ := t
  simp only [get?, occupant?, modify, SlotRow.at?_change]
  by_cases hslot : id.slot = slot
  · subst hslot
    rw [if_pos rfl]
    obtain ⟨slot, own⟩ := id
    cases h : slots.at? slot with
    | none => simp
    | some held =>
      cases held with
      | none => simp
      | some o =>
        simp only [Option.map_some, Option.join_some, AgentId.mk.injEq, true_and]
        grind
  · have hne : (⟨slot, generation⟩ : AgentId) ≠ id := fun h => hslot (h ▸ rfl)
    rw [if_neg hslot, if_neg hne]

/-- **Who is found passes the test.** -/
theorem get?_of_findId? {t : SlotTable α} {p : α → Bool} {id : AgentId}
    (h : t.findId? p = some id) : ∃ content, t.get? id = some content ∧ p content = true := by
  unfold findId? at h
  split at h
  · next i hi =>
    obtain ⟨hlt, hp, -⟩ := Array.findIdx?_eq_some_iff_getElem.1 hi
    obtain ⟨o, ho, rfl⟩ := Option.map_eq_some_iff.1 h
    have hat : t.slots.at? (i + 1) = some (some o) := Option.join_eq_some_iff.1 ho
    refine ⟨o.content, get?_eq_some_iff.2 hat, ?_⟩
    rw [(Array.getElem?_eq_some_iff.1 hat).2] at hp
    simpa using hp
  · cases h

/-- **Where nobody is found, nobody passes the test.** -/
theorem not_of_findId?_eq_none {t : SlotTable α} {p : α → Bool} {id : AgentId} {content : α}
    (h : t.findId? p = none) (hget : t.get? id = some content) : p content = false := by
  have hat := get?_eq_some_iff.1 hget
  obtain ⟨slot, generation⟩ := id
  cases slot with
  | zero => cases hat
  | succ i =>
    have hmem : some ⟨generation, content⟩ ∈ t.slots := Array.mem_of_getElem? hat
    unfold findId? at h
    split at h
    · next j hj =>
      obtain ⟨hlt, hp, -⟩ := Array.findIdx?_eq_some_iff_getElem.1 hj
      obtain ⟨o, ho, -⟩ := (Option.any_eq_true _ _).1 hp
      have hfound : t.occupant? (j + 1) = some o := by
        simp [occupant?, SlotRow.at?, Array.getElem?_eq_getElem hlt, ho]
      simp [hfound] at h
    · next hnone => simpa using Array.findIdx?_eq_none_iff.1 hnone _ hmem

@[simp] theorem size_empty : (empty : SlotTable α).size = 0 := rfl

@[simp] theorem size_insert (t : SlotTable α) (content : α) :
    (t.insert content).size = t.size + 1 := by
  obtain ⟨slots, vacant, hempty, hnodup⟩ := t
  cases vacant with
  | nil => exact SlotRow.occupied_push slots _
  | cons next rest => exact SlotRow.occupied_put_some _ (hempty next List.mem_cons_self)

theorem size_erase {t : SlotTable α} {id : AgentId} (h : t.contains id = true) :
    (t.erase id).size + 1 = t.size := by
  obtain ⟨content, hat⟩ := at?_of_contains h
  unfold erase
  rw [dif_pos h]
  exact SlotRow.occupied_put_none hat

@[simp] theorem size_modify (t : SlotTable α) (id : AgentId) (f : α → α) :
    (t.modify id f).size = t.size :=
  SlotRow.occupied_change t.slots id.slot _

end SlotTable

end AgentSweep
