import AgentSweep.Proofs.World.BreedIndex
import AgentSweep.Proofs.World.Lifetimes
import Mathlib.Data.List.Induction

/-!
# Numbers of agents

The next number is larger than any that has been given out, so that no two living agents share one
(`World.Numbered`). To look for a number is therefore to look for an agent, whatever the slots in
which agents are (`Numbered.findByWho_eq_some_iff`).

A number also tells the old from the new: whoever has a number below the next one of some earlier
moment was alive at that moment, under the same id (`World.same_of_who_lt`). In the list of a breed
the old stand before the new, in the order that they have always had (`Indexed.members_after`).
-/

namespace AgentSweep

namespace World

variable {w : World} {id : AgentId} {agent : Agent}

/-- **No two living agents share a number.** -/
structure Numbered (w : World) : Prop where
  eq_of_who_eq : ∀ {a b : AgentId} {first second : Agent},
    w.get? a = some first → w.get? b = some second → first.who = second.who → a = b

namespace Numbered

theorem empty : World.empty.Numbered where
  eq_of_who_eq := by simp

/-- A new agent gets a number that nobody has. -/
theorem create (h : w.Numbered) (hindexed : w.Indexed) (kind : Kind) (breed : String) :
    (w.create kind breed).2.Numbered where
  eq_of_who_eq := by
    intro a b first second hfirst hsecond hwho
    rw [get?_create] at hfirst hsecond
    split at hfirst
    · next ha =>
      cases hfirst
      split at hsecond
      · next hb => rw [ha, hb]
      · exact absurd hwho (Nat.ne_of_gt (hindexed.who_lt_nextWho hsecond))
    · split at hsecond
      · cases hsecond
        exact absurd hwho (Nat.ne_of_lt (hindexed.who_lt_nextWho hfirst))
      · exact h.eq_of_who_eq hfirst hsecond hwho

theorem kill (h : w.Numbered) (id : AgentId) : (w.kill id).Numbered where
  eq_of_who_eq := by
    intro a b first second hfirst hsecond hwho
    rw [get?_kill] at hfirst hsecond
    split at hfirst
    · cases hfirst
    · split at hsecond
      · cases hsecond
      · exact h.eq_of_who_eq hfirst hsecond hwho

theorem write (h : w.Numbered) (id : AgentId) (f : Bindings Value → Bindings Value) :
    (w.write id f).Numbered where
  eq_of_who_eq := by
    intro a b first second hfirst hsecond hwho
    obtain ⟨first', hfirst', hsame⟩ := exists_of_get?_write hfirst
    obtain ⟨second', hsecond', hsame'⟩ := exists_of_get?_write hsecond
    exact h.eq_of_who_eq hfirst' hsecond' (hsame.who_eq.symm.trans (hwho.trans hsame'.who_eq))

/-- **No change gives a number to two living agents.** -/
theorem apply (h : w.Numbered) (hindexed : w.Indexed) (change : Change) :
    (w.apply change).Numbered := by
  cases change with
  | create kind breed => exact h.create hindexed kind breed
  | kill id => exact h.kill id
  | write id f => exact h.write id f
  | print line => exact ⟨h.eq_of_who_eq⟩

theorem after (h : w.Numbered) (hindexed : w.Indexed) (history : List Change) :
    (w.after history).Numbered :=
  (after_induction (motive := fun w => w.Numbered ∧ w.Indexed) ⟨h, hindexed⟩
    (fun _ change hv => ⟨hv.1.apply hv.2 change, hv.2.apply change⟩) history).1

/-- **Who is found under a number is whoever has it**, whatever slots the agents are in. -/
theorem findByWho_eq_some_iff (h : w.Numbered) {who : Nat} :
    w.findByWho who = some id ↔ ∃ agent, w.get? id = some agent ∧ agent.who = who := by
  constructor
  · intro hfind
    obtain ⟨agent, hget, hwho⟩ := SlotTable.get?_of_findId? hfind
    exact ⟨agent, hget, eq_of_beq hwho⟩
  · rintro ⟨agent, hget, hwho⟩
    cases hfind : w.findByWho who with
    | none =>
      have hnot := SlotTable.not_of_findId?_eq_none hfind hget
      exact absurd hwho (by simpa using hnot)
    | some other =>
      obtain ⟨found, hfound, hother⟩ := SlotTable.get?_of_findId? hfind
      rw [h.eq_of_who_eq hfound hget ((eq_of_beq hother).trans hwho.symm)]

end Numbered

/-! ## The old and the new -/

/-- The next number does not become smaller. -/
theorem nextWho_le_after (w : World) (history : List Change) :
    w.nextWho ≤ (w.after history).nextWho := by
  refine after_induction (motive := fun v => w.nextWho ≤ v.nextWho) (Nat.le_refl _)
    (fun v change hv => Nat.le_trans hv ?_) history
  cases change with
  | create kind breed => exact Nat.le_succ _
  | kill id => exact Nat.le_of_eq (v.nextWho_kill id).symm
  | write | print => exact Nat.le_refl _

/-- **Whoever has an old number is old**: alive before, under the same id, and still the same
agent. -/
theorem same_of_who_lt {history : List Change} (h : (w.after history).get? id = some agent)
    (hwho : agent.who < w.nextWho) :
    ∃ first, w.get? id = some first ∧ agent.SameAs first := by
  rcases origin_of_isAlive_after (isAlive_iff.mpr ⟨agent, h⟩) with
    ⟨halive, hspares⟩ | ⟨before, kind, breed, later, rfl, rfl, hspares⟩
  · obtain ⟨first, hfirst⟩ := isAlive_iff.mp halive
    obtain ⟨now, hnow, hsame⟩ := same_after_of_spares hfirst hspares
    cases hnow.symm.trans h
    exact ⟨first, hfirst, hsame⟩
  · -- an agent made in the course of the history has a number that was not below the next one
    obtain ⟨now, hnow, hsame⟩ := same_after_of_spares (get?_create_fst _ kind breed) hspares
    rw [after_append, after_cons] at h
    cases hnow.symm.trans h
    rw [hsame.who_eq] at hwho
    exact absurd hwho (Nat.not_lt_of_ge (w.nextWho_le_after before))

/-! ## Survivors and newcomers -/

theorem isAlive_kill (w : World) (id other : AgentId) :
    (w.kill id).isAlive other = (w.isAlive other && other != id) := by
  show ((w.kill id).get? other).isSome = ((w.get? other).isSome && other != id)
  rw [get?_kill]
  split
  · next h => simp [h]
  · next h => simp [h]

theorem isAlive_create_of_ne {kind : Kind} {breed : String} (h : id ≠ (w.create kind breed).1) :
    (w.create kind breed).2.isAlive id = w.isAlive id := by
  show ((w.create kind breed).2.get? id).isSome = (w.get? id).isSome
  rw [get?_create, if_neg h]

/-- The id of a new agent does not name anybody who was alive before. -/
theorem isAlive_eq_false_of_create {before : List Change} {kind : Kind} {breed : String}
    (hkills : ∀ slot, w.kills slot (before ++ [.create kind breed]) < AgentId.generations) :
    w.isAlive ((w.after before).create kind breed).1 = false := by
  refine Bool.eq_false_iff.mpr fun halive => ?_
  obtain ⟨agent, hget⟩ := isAlive_iff.mp halive
  have hdead : (w.after before).isAlive ((w.after before).create kind breed).1 = false :=
    congrArg Option.isSome (get?_fst_create _ kind breed)
  have hnobody := isAlive_after_append_eq_false hget hdead (hkills _)
  rw [after_append, after_cons, after_nil, apply,
    isAlive_iff.mpr ⟨_, get?_create_fst _ kind breed⟩] at hnobody
  cases hnobody

/-- **The members of a breed after a history** are first those of the old ones who are still alive,
in the old order, and then the new ones. -/
theorem Indexed.members_after (h : w.Indexed) {history : List Change}
    (hkills : ∀ slot, w.kills slot history < AgentId.generations) (breed : String) :
    ∃ newcomers,
      (w.after history).members breed
          = (w.members breed).filter (w.after history).isAlive ++ newcomers
        ∧ ∀ id ∈ newcomers, w.isAlive id = false := by
  induction history using List.reverseRecOn with
  | nil =>
    refine ⟨[], ?_, nofun⟩
    rw [List.append_nil]
    exact (List.filter_eq_self.mpr fun id hid => h.isAlive_of_mem_members hid).symm
  | append_singleton history change ih =>
    obtain ⟨newcomers, hmembers, hnew⟩ := ih fun slot =>
      Nat.lt_of_le_of_lt (kills_le_append slot w history _) (hkills slot)
    have hindexed := h.after history
    rw [after_append, after_cons, after_nil]
    cases change with
    | print line => exact ⟨newcomers, hmembers, hnew⟩
    | write id f =>
      have halive : ((w.after history).write id f).isAlive = (w.after history).isAlive :=
        funext fun other => isAlive_modify _ id other _
      refine ⟨newcomers, ?_, hnew⟩
      rw [World.apply, halive]
      exact hmembers
    | kill id =>
      have halive : ((w.after history).kill id).isAlive
          = fun member => (w.after history).isAlive member && member != id :=
        funext fun other => isAlive_kill _ id other
      refine ⟨newcomers.filter fun member => member != id, ?_,
        fun member hmember => hnew member (List.mem_filter.mp hmember).1⟩
      rw [World.apply, hindexed.members_kill, hmembers, List.filter_append, List.filter_filter,
        halive]
      simp only [Bool.and_comm]
    | create kind other =>
      have hborn := isAlive_eq_false_of_create hkills
      -- the new agent has taken the id of nobody who was alive before
      have hold : (w.members breed).filter ((w.after history).create kind other).2.isAlive
          = (w.members breed).filter (w.after history).isAlive := by
        refine List.filter_congr fun id hid => isAlive_create_of_ne ?_
        rintro rfl
        rw [h.isAlive_of_mem_members hid] at hborn
        cases hborn
      rw [World.apply, members_create, hold]
      split
      · refine ⟨newcomers ++ [_], by rw [hmembers, List.append_assoc], fun id hid => ?_⟩
        rcases List.mem_append.mp hid with hearlier | hlast
        · exact hnew id hearlier
        · rw [List.mem_singleton.mp hlast]
          exact hborn
      · exact ⟨newcomers, hmembers, hnew⟩

end World

end AgentSweep
