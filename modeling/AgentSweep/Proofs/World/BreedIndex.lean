import AgentSweep.Proofs.World.History
import AgentSweep.World.Membership
import Mathlib.Algebra.GroupWithZero.Nat

/-!
# The breeds of a world are an index of its agents

A world keeps its agents in one table and, beside it, a list of ids for every breed. No change
touches both in one place: `create` and `kill` update one after the other, and a slot is used
again under another generation. `World.Indexed` says that the two agree all the same, and
`Indexed.after` that no history makes them disagree.

The lists name whoever is alive in their breed and nobody else, in the order of their numbers. As
an order is strict, no list names anybody twice, and the lengths of all lists add up to the number
of living agents.
-/

namespace AgentSweep

/-! ## Adding up the values of names -/

namespace Bindings

variable {α : Type}

/-- The sum of a measure over all values. -/
def total (b : Bindings α) (measure : α → Nat) : Nat := (b.entries.map fun e => measure e.2).sum

/-- What the value of a name counts for, if it has one. -/
def share (measure : α → Nat) (value : Option α) : Nat := (value.map measure).getD 0

/-- Binding a name to another value changes the sum by what the two values count for. -/
theorem total_modify (measure : α → Nat) (b : Bindings α) (name : String) (f : Option α → α) :
    (b.modify name f).total measure + share measure (b.get? name)
      = b.total measure + measure (f (b.get? name)) := by
  obtain ⟨entries⟩ := b
  simp only [total, modify, get?]
  induction entries with
  | nil => simp [bind, find, share]
  | cons entry rest ih =>
    simp only [bind, find]
    split
    · simp only [List.map_cons, List.sum_cons, share, Option.map_some, Option.getD_some]
      omega
    · simp only [List.map_cons, List.sum_cons]
      omega

theorem total_adjust (measure : α → Nat) {b : Bindings α} {name : String} {value : α}
    (h : b.get? name = some value) (f : α → α) :
    (b.adjust name f).total measure + measure value = b.total measure + measure (f value) := by
  obtain ⟨entries⟩ := b
  simp only [total, adjust, get?] at h ⊢
  induction entries with
  | nil => cases h
  | cons entry rest ih =>
    simp only [change, find] at h ⊢
    split at h
    · next heq =>
      cases h
      rw [if_pos heq]
      simp only [List.map_cons, List.sum_cons]
      omega
    · next hne =>
      rw [if_neg hne]
      simp only [List.map_cons, List.sum_cons]
      have := ih h
      omega

theorem map_fst_bind (name : String) (f : Option α → α) (l : List (String × α)) :
    (bind name f l).map Prod.fst
      = if name ∈ l.map Prod.fst then l.map Prod.fst else l.map Prod.fst ++ [name] := by
  induction l with
  | nil => rfl
  | cons entry rest ih =>
    simp only [bind, List.map_cons, List.mem_cons]
    by_cases h : entry.1 = name
    · rw [if_pos h, if_pos (.inl h.symm)]
      rfl
    · rw [if_neg h, List.map_cons, ih]
      simp only [Ne.symm h, false_or]
      by_cases hrest : name ∈ rest.map Prod.fst
      · rw [if_pos hrest, if_pos hrest]
      · rw [if_neg hrest, if_neg hrest, List.cons_append]

theorem names_modify (b : Bindings α) (name : String) (f : Option α → α) :
    (b.modify name f).names = if name ∈ b.names then b.names else b.names ++ [name] :=
  map_fst_bind name f b.entries

theorem nodup_names_modify {b : Bindings α} (h : b.names.Nodup) (name : String)
    (f : Option α → α) : (b.modify name f).names.Nodup := by
  rw [names_modify]
  split
  · exact h
  · next hnotMem =>
    refine List.nodup_append.mpr ⟨h, List.nodup_cons.mpr ⟨nofun, .nil⟩, ?_⟩
    intro key hkey other hother heq
    rw [List.mem_singleton.mp hother] at heq
    exact hnotMem (heq ▸ hkey)

@[simp] theorem names_adjust (b : Bindings α) (name : String) (f : α → α) :
    (b.adjust name f).names = b.names := by
  obtain ⟨entries⟩ := b
  simp only [names, adjust]
  induction entries with
  | nil => rfl
  | cons entry rest ih =>
    simp only [change]
    split
    · rfl
    · rw [List.map_cons, ih, List.map_cons]

theorem get?_eq_none_of_notMem_names {b : Bindings α} {name : String} (h : name ∉ b.names) :
    b.get? name = none := by
  obtain ⟨entries⟩ := b
  simp only [names, get?] at h ⊢
  induction entries with
  | nil => rfl
  | cons entry rest ih =>
    rw [List.map_cons, List.mem_cons, not_or] at h
    rw [find, if_neg (Ne.symm h.1), ih h.2]

/-- Where no name is bound twice, the sum can be taken over the names. -/
theorem total_eq_sum_names {measure : α → Nat} {b : Bindings α} (h : b.names.Nodup) :
    b.total measure = (b.names.map fun name => share measure (b.get? name)).sum := by
  obtain ⟨entries⟩ := b
  simp only [total, names, get?] at h ⊢
  induction entries with
  | nil => rfl
  | cons entry rest ih =>
    rw [List.map_cons, List.nodup_cons] at h
    have hrest : (rest.map Prod.fst).map (fun name => share measure (find name (entry :: rest)))
        = (rest.map Prod.fst).map fun name => share measure (find name rest) := by
      refine List.map_congr_left fun name hname => ?_
      rw [find, if_neg fun heq : entry.1 = name => h.1 (heq ▸ hname)]
    rw [List.map_cons, List.map_cons, List.map_cons, List.sum_cons, List.sum_cons, hrest, ih h.2,
      find, if_pos rfl]
    rfl

end Bindings

namespace World

variable {w : World} {id : AgentId} {agent : Agent}

/-! ## The index -/

/-- **Both ids name living agents, and the first of the two has the smaller number.** -/
def Older (w : World) (a b : AgentId) : Prop :=
  ∃ first second, w.get? a = some first ∧ w.get? b = some second ∧ first.who < second.who

/-- **The breeds are an index of the agents.** -/
structure Indexed (w : World) : Prop where
  /-- There is one list for each breed. -/
  nodup_names : w.breeds.names.Nodup
  mem_members_iff : ∀ {id : AgentId} {breed : String},
    id ∈ w.members breed ↔ ∃ agent, w.get? id = some agent ∧ agent.breed = breed
  pairwise_older : ∀ breed, (w.members breed).Pairwise w.Older
  who_lt_nextWho : ∀ {id : AgentId} {agent : Agent},
    w.get? id = some agent → agent.who < w.nextWho
  count_eq_total : w.count = w.breeds.total Array.size

theorem Older.of_keeps {v : World} {a b : AgentId} (h : w.Older a b) (ha : w.Keeps v a)
    (hb : w.Keeps v b) : v.Older a b := by
  obtain ⟨first, second, hfirst, hsecond, hlt⟩ := h
  obtain ⟨first', hfirst', hsame⟩ := ha first hfirst
  obtain ⟨second', hsecond', hsame'⟩ := hb second hsecond
  refine ⟨first', second', hfirst', hsecond', ?_⟩
  rw [hsame.who_eq, hsame'.who_eq]
  exact hlt

theorem Older.ne {a b : AgentId} (h : w.Older a b) : a ≠ b := by
  rintro rfl
  obtain ⟨first, second, hfirst, hsecond, hlt⟩ := h
  rw [hfirst, Option.some.injEq] at hsecond
  rw [hsecond] at hlt
  exact Nat.lt_irrefl _ hlt

/-- A new agent makes one of the lists longer by one. -/
theorem total_create (w : World) (kind : Kind) (breed : String) :
    (w.create kind breed).2.breeds.total Array.size = w.breeds.total Array.size + 1 := by
  have htotal := w.breeds.total_modify Array.size breed
    fun ids => (ids.getD #[]).push (w.create kind breed).1
  show (w.breeds.modify breed fun ids => (ids.getD #[]).push (w.create kind breed).1).total _ = _
  cases hlist : w.breeds.get? breed with
  | none =>
    rw [hlist] at htotal
    exact htotal
  | some ids =>
    rw [hlist] at htotal
    simp only [Bindings.share, Option.map_some, Option.getD_some, Array.size_push] at htotal
    omega

theorem length_members (w : World) (breed : String) :
    (w.members breed).length = Bindings.share Array.size (w.breeds.get? breed) := by
  unfold members Bindings.share
  split
  · next ids h => rw [h]; rfl
  · next h => rw [h]; rfl

theorem members_eq_nil {breed : String} (h : breed ∉ w.breeds.names) : w.members breed = [] := by
  rw [members, Bindings.get?_eq_none_of_notMem_names h]

@[simp] theorem names_kill (w : World) (id : AgentId) :
    (w.kill id).breeds.names = w.breeds.names := by
  unfold kill remove
  split
  · exact Bindings.names_adjust _ _ _
  · rfl

namespace Indexed

theorem isAlive_of_mem_members (h : w.Indexed) {breed : String} (hmem : id ∈ w.members breed) :
    w.isAlive id = true := by
  obtain ⟨agent, hagent, -⟩ := h.mem_members_iff.mp hmem
  exact isAlive_iff.mpr ⟨agent, hagent⟩

theorem notMem_members_of_get?_eq_none (h : w.Indexed) (hget : w.get? id = none)
    (breed : String) : id ∉ w.members breed := by
  intro hmem
  obtain ⟨agent, hagent, -⟩ := h.mem_members_iff.mp hmem
  rw [hget] at hagent
  cases hagent

/-- A living agent is in the list of its breed only. -/
theorem breed_eq_of_mem_members (h : w.Indexed) (hget : w.get? id = some agent)
    {breed : String} (hmem : id ∈ w.members breed) : breed = agent.breed := by
  obtain ⟨other, hother, hbreed⟩ := h.mem_members_iff.mp hmem
  rw [hget, Option.some.injEq] at hother
  rw [← hbreed, hother]

theorem nodup_members (h : w.Indexed) (breed : String) : (w.members breed).Nodup :=
  (h.pairwise_older breed).imp Older.ne

/-- The lengths of all lists add up to the number of living agents. -/
theorem count_eq_sum (h : w.Indexed) :
    w.count = (w.breeds.names.map fun breed => (w.members breed).length).sum := by
  rw [h.count_eq_total, Bindings.total_eq_sum_names h.nodup_names]
  simp only [length_members]

/-! ## No change breaks it -/

theorem empty : World.empty.Indexed where
  nodup_names := List.nodup_nil
  mem_members_iff := by simp
  pairwise_older := fun _ => List.Pairwise.nil
  who_lt_nextWho := by simp
  count_eq_total := rfl

theorem mem_members_create_iff (h : w.Indexed) {kind : Kind} {breed other : String} :
    id ∈ (w.create kind breed).2.members other
      ↔ ∃ agent, (w.create kind breed).2.get? id = some agent ∧ agent.breed = other := by
  rw [members_create, get?_create]
  by_cases hid : id = (w.create kind breed).1
  · rw [if_pos hid, hid]
    constructor
    · intro hmem
      split at hmem
      · next hother => exact ⟨_, rfl, hother.symm⟩
      · exact absurd hmem
          (h.notMem_members_of_get?_eq_none (w.get?_fst_create kind breed) other)
    · rintro ⟨agent, hagent, hbreed⟩
      cases hagent
      rw [if_pos hbreed.symm]
      exact List.mem_append_right _ (List.mem_singleton.mpr rfl)
  · rw [if_neg hid, ← h.mem_members_iff]
    split
    · rw [List.mem_append, List.mem_singleton]
      exact or_iff_left hid
    · exact Iff.rfl

/-- A new agent has a larger number than whoever is alive. -/
theorem older_fst_create (h : w.Indexed) (kind : Kind) (breed : String)
    (hget : w.get? id = some agent) :
    (w.create kind breed).2.Older id (w.create kind breed).1 := by
  obtain ⟨now, hnow, hsame⟩ := keeps_create w kind breed id agent hget
  refine ⟨now, ⟨kind, breed, w.nextWho, .empty⟩, hnow, ?_, ?_⟩
  · rw [get?_create, if_pos rfl]
  · rw [hsame.who_eq]
    exact h.who_lt_nextWho hget

theorem create (h : w.Indexed) (kind : Kind) (breed : String) :
    (w.create kind breed).2.Indexed where
  nodup_names := Bindings.nodup_names_modify h.nodup_names breed _
  mem_members_iff := h.mem_members_create_iff
  pairwise_older := by
    intro other
    rw [members_create]
    have hpairwise : (w.members other).Pairwise (w.create kind breed).2.Older :=
      (h.pairwise_older other).imp fun hlt =>
        hlt.of_keeps (keeps_create w kind breed _) (keeps_create w kind breed _)
    split
    · refine List.pairwise_append.mpr ⟨hpairwise, List.pairwise_singleton _ _, ?_⟩
      intro id hid new hnew
      obtain ⟨agent, hget, -⟩ := h.mem_members_iff.mp hid
      rw [List.mem_singleton.mp hnew]
      exact h.older_fst_create kind breed hget
    · exact hpairwise
  who_lt_nextWho := by
    intro id agent hget
    rw [get?_create] at hget
    split at hget
    · cases hget
      exact Nat.lt_succ_self _
    · exact Nat.lt_succ_of_lt (h.who_lt_nextWho hget)
  count_eq_total := by rw [count_create, h.count_eq_total, total_create]

/-- A killed agent leaves all lists, since it is in one only. -/
theorem members_kill (h : w.Indexed) (id : AgentId) (breed : String) :
    (w.kill id).members breed = (w.members breed).filter fun member => member != id := by
  have hkept (hnotMem : id ∉ w.members breed) :
      (w.members breed).filter (fun member => member != id) = w.members breed :=
    List.filter_eq_self.mpr fun member hmember =>
      bne_iff_ne.mpr fun heq => hnotMem (heq ▸ hmember)
  cases hget : w.get? id with
  | none =>
    rw [kill_of_get?_eq_none hget, hkept (h.notMem_members_of_get?_eq_none hget breed)]
  | some agent =>
    rw [World.members_kill hget]
    split
    · rfl
    · next hbreed =>
      rw [hkept fun hmem => hbreed (h.breed_eq_of_mem_members hget hmem)]

/-- The death of a living agent makes one of the lists shorter by one. -/
theorem total_kill (h : w.Indexed) (hget : w.get? id = some agent) :
    (w.kill id).breeds.total Array.size + 1 = w.breeds.total Array.size := by
  have hmem : id ∈ w.members agent.breed := h.mem_members_iff.mpr ⟨agent, hget, rfl⟩
  obtain ⟨ids, hids⟩ : ∃ ids, w.breeds.get? agent.breed = some ids := by
    unfold members at hmem
    split at hmem
    · next ids hids => exact ⟨ids, hids⟩
    · cases hmem
  have hlist : w.members agent.breed = ids.toList := by rw [members, hids]
  have hnodup := h.nodup_members agent.breed
  rw [hlist] at hmem hnodup
  -- the list names the agent just once
  have hsize : (ids.filter fun member => member != id).size + 1 = ids.size := by
    rw [← Array.length_toList, Array.toList_filter, ← hnodup.erase_eq_filter,
      List.length_erase_of_mem hmem, Array.length_toList]
    exact Nat.sub_add_cancel (Array.length_toList ▸ List.length_pos_of_mem hmem)
  have hbreeds : (w.kill id).breeds
      = w.breeds.adjust agent.breed fun ids => ids.filter fun member => member != id := by
    rw [World.kill, World.remove, hget]
  have htotal := Bindings.total_adjust Array.size hids
    fun ids => ids.filter fun member => member != id
  rw [hbreeds]
  omega

theorem kill (h : w.Indexed) (id : AgentId) : (w.kill id).Indexed where
  nodup_names := by
    rw [names_kill]
    exact h.nodup_names
  mem_members_iff := by
    intro other breed
    rw [h.members_kill, List.mem_filter, bne_iff_ne, h.mem_members_iff, get?_kill]
    split
    · next heq =>
      constructor
      · exact fun hboth => absurd heq hboth.2
      · rintro ⟨now, hnone, -⟩
        cases hnone
    · next hne => exact and_iff_left hne
  pairwise_older := by
    intro breed
    rw [h.members_kill]
    have hkeeps {other : AgentId}
        (hmem : other ∈ (w.members breed).filter fun member => member != id) :
        w.Keeps (w.kill id) other :=
      .of_get?_eq (by rw [get?_kill, if_neg (bne_iff_ne.mp (List.mem_filter.mp hmem).2)])
    exact ((h.pairwise_older breed).filter _).imp_of_mem fun ha hb hlt =>
      hlt.of_keeps (hkeeps ha) (hkeeps hb)
  who_lt_nextWho := by
    intro other now hnow
    rw [get?_kill] at hnow
    rw [nextWho_kill]
    split at hnow
    · cases hnow
    · exact h.who_lt_nextWho hnow
  count_eq_total := by
    cases hget : w.get? id with
    | none => rw [kill_of_get?_eq_none hget, h.count_eq_total]
    | some agent =>
      have hcount := count_kill (isAlive_iff.mpr ⟨agent, hget⟩)
      rw [h.count_eq_total, ← h.total_kill hget] at hcount
      exact Nat.add_right_cancel hcount

theorem write (h : w.Indexed) (id : AgentId) (f : Bindings Value → Bindings Value) :
    (w.write id f).Indexed where
  nodup_names := h.nodup_names
  mem_members_iff := by
    intro other breed
    show other ∈ w.members breed ↔ _
    rw [h.mem_members_iff]
    constructor
    · rintro ⟨agent, hget, hbreed⟩
      obtain ⟨now, hnow, hsame⟩ := keeps_write w id f other agent hget
      exact ⟨now, hnow, hsame.breed_eq.trans hbreed⟩
    · rintro ⟨now, hnow, hbreed⟩
      obtain ⟨agent, hget, hsame⟩ := exists_of_get?_write hnow
      exact ⟨agent, hget, hsame.breed_eq.symm.trans hbreed⟩
  pairwise_older := fun breed => (h.pairwise_older breed).imp fun hlt =>
    hlt.of_keeps (keeps_write w id f _) (keeps_write w id f _)
  who_lt_nextWho := by
    intro other now hnow
    obtain ⟨agent, hget, hsame⟩ := exists_of_get?_write hnow
    rw [hsame.who_eq]
    exact h.who_lt_nextWho hget
  count_eq_total := (w.count_modify id _).trans h.count_eq_total

/-- **No change makes breeds and agents disagree.** -/
theorem apply (h : w.Indexed) (change : Change) : (w.apply change).Indexed := by
  cases change with
  | create kind breed => exact h.create kind breed
  | kill id => exact h.kill id
  | write id f => exact h.write id f
  | print line =>
    exact ⟨h.nodup_names, h.mem_members_iff, h.pairwise_older, h.who_lt_nextWho,
      h.count_eq_total⟩

/-- **No history makes breeds and agents disagree.** -/
theorem after (h : w.Indexed) (history : List Change) : (w.after history).Indexed :=
  after_induction h (fun _ change hv => hv.apply change) history

end Indexed

end World

/-- In a world whose breeds are an index of its agents, the members of a set are alive. -/
theorem AgentSet.isAlive_of_mem_members {set : AgentSet} {w : World} (h : w.Indexed)
    {id : AgentId} (hmem : id ∈ set.members w) : w.isAlive id = true := by
  cases set with
  | breed kind name => exact h.isAlive_of_mem_members hmem
  | fixed kind ids => exact (List.mem_filter.mp hmem).2

end AgentSweep
