import AgentSweep.Proofs.Random.Exchanges
import AgentSweep.Proofs.World.BreedIndex
import AgentSweep.Proofs.World.Lifetimes
import AgentSweep.World.Roster
import Mathlib.Data.List.Induction

/-!
# Rounds

A roster is asked for its next entry again and again, and between two calls anything may happen to
the world. What comes of this is a *round*: a list of moves, each of which is a change of the world
or a call of `Roster.next`. A round keeps account of its calls, and the entries that a call has
passed are read off the number of passed entries before and after it.

`Roster.round_law` says what every round gives. The entries are passed one after the other, in the
order of the roster, and each of them once. An entry is given out if it names a living agent when
it is passed, and is counted as skipped if it does not. Agents made in the course of the round are
not given out, though one of them may live in the slot of an entry.
-/

namespace AgentSweep

namespace Roster

variable {r : Roster} {w : World}

/-- **What `next` can do**: it passes some entries of the dead, and then comes to the end or to an
entry that names a living agent. -/
theorem next_cases (r : Roster) (w : World) :
    ∃ dead, (∀ id ∈ dead, w.isAlive id = false)
      ∧ ((r.upcoming = dead
          ∧ r.next w = (none, ⟨r.passed + dead.length, [], r.skipped + dead.length⟩))
        ∨ ∃ id rest, r.upcoming = dead ++ id :: rest ∧ w.isAlive id = true
          ∧ r.next w
            = (some id, ⟨r.passed + dead.length + 1, rest, r.skipped + dead.length⟩)) := by
  have hsplit := List.takeWhile_append_dropWhile (p := fun id => !w.isAlive id) (l := r.upcoming)
  have hhead := List.head?_dropWhile_not (fun id => !w.isAlive id) r.upcoming
  refine ⟨r.upcoming.takeWhile fun id => !w.isAlive id, fun id hid => ?_, ?_⟩
  · simpa using List.all_eq_true.mp List.all_takeWhile id hid
  · unfold next
    cases hrest : r.upcoming.dropWhile fun id => !w.isAlive id with
    | nil =>
      rw [hrest, List.append_nil] at hsplit
      exact .inl ⟨hsplit.symm, rfl⟩
    | cons id rest =>
      rw [hrest] at hsplit hhead
      exact .inr ⟨id, rest, hsplit.symm, by simpa using hhead, rfl⟩

/-- **A roster of which nothing is left gives nothing**, in any world. -/
theorem next_of_upcoming_eq_nil (h : r.upcoming = []) (w : World) : r.next w = (none, r) := by
  obtain ⟨passed, upcoming, skipped⟩ := r
  cases h
  rfl

theorem upcoming_eq_nil_of_fst_next (h : (r.next w).1 = none) : (r.next w).2.upcoming = [] := by
  obtain ⟨dead, -, ⟨-, hnext⟩ | ⟨id, rest, -, -, hnext⟩⟩ := r.next_cases w
  · rw [hnext]
  · rw [hnext] at h
    cases h

/-! ## Calls -/

/-- **A call of `next`**: the roster, and the world in which it is asked. -/
structure Call where
  roster : Roster
  world : World

namespace Call

/-- What the call gives. -/
def answer (c : Call) : Option AgentId := (c.roster.next c.world).1

/-- The roster after the call. -/
def after (c : Call) : Roster := (c.roster.next c.world).2

/-- The entries that the call passes. -/
def entries (c : Call) : List AgentId :=
  c.roster.upcoming.take (c.after.passed - c.roster.passed)

/-- **What a call does**: it passes the next entries, gives out the one among them that names a
living agent, and counts the others as skipped. -/
theorem effect (c : Call) :
    c.roster.upcoming = c.entries ++ c.after.upcoming
      ∧ c.after.passed = c.roster.passed + c.entries.length
      ∧ c.entries.filter c.world.isAlive = c.answer.toList
      ∧ c.after.skipped = c.roster.skipped + c.entries.countP fun id => !c.world.isAlive id := by
  obtain ⟨dead, hdead, hcases⟩ := c.roster.next_cases c.world
  have hnone : dead.filter c.world.isAlive = [] :=
    List.filter_eq_nil_iff.mpr fun id hid => by rw [hdead id hid]; nofun
  have hall : dead.countP (fun id => !c.world.isAlive id) = dead.length :=
    List.countP_eq_length.mpr fun id hid => by rw [hdead id hid]; rfl
  unfold entries after answer
  rcases hcases with ⟨hupcoming, hnext⟩ | ⟨id, rest, hupcoming, halive, hnext⟩
  · simp only [hnext, hupcoming, Nat.add_sub_cancel_left, List.take_length, List.append_nil,
      hnone, hall, Option.toList_none, and_self]
  · have htake : (dead ++ id :: rest).take (dead.length + 1) = dead ++ [id] := by
      rw [List.take_length_add_append]
      rfl
    simp only [hnext, hupcoming, Nat.add_assoc, Nat.add_sub_cancel_left, htake]
    refine ⟨by simp, by simp, ?_, ?_⟩
    · rw [List.filter_append, hnone, List.nil_append, List.filter_cons_of_pos halive]
      rfl
    · rw [List.countP_append, hall, List.countP_singleton, halive]
      rfl

end Call

/-! ## Rounds -/

/-- **An entry that has been passed**, and the world in which it was. -/
structure Passage where
  id : AgentId
  world : World

/-- Whether the entry named a living agent when it was passed. -/
def Passage.alive (p : Passage) : Bool := p.world.isAlive p.id

/-- **What happens next**: a change of the world, or a call. -/
inductive Move where
  | alter (change : Change)
  | call

/-- The change that a move makes, if it makes one. -/
def Move.change? : Move → Option Change
  | alter change => some change
  | call => none

/-- The changes that some moves make. -/
def Move.changes (moves : List Move) : List Change := moves.filterMap change?

end Roster

/-- **A roster and a world, and the calls made so far.** -/
structure Round where
  world : World
  roster : Roster
  calls : List Roster.Call

namespace Round

open Roster (Call Move Passage)

variable {t : Round}

/-- The round after one move. -/
def move (t : Round) : Move → Round
  | .alter change => { t with world := t.world.apply change }
  | .call =>
    { t with
      roster := (t.roster.next t.world).2
      calls := t.calls ++ [⟨t.roster, t.world⟩] }

/-- **The round after some moves.** -/
def after (t : Round) (moves : List Move) : Round := moves.foldl move t

/-- What the calls have given out, in their order. -/
def yields (t : Round) : List AgentId := t.calls.filterMap Call.answer

/-- **The entries that have been passed**, in the order in which they have been. -/
def passages (t : Round) : List Passage :=
  t.calls.flatMap fun call => call.entries.map fun id => ⟨id, call.world⟩

/-- The round of a roster of a set, before the first move. -/
def ofSet (set : AgentSet) (w : World) (random : Random) : Round :=
  ⟨w, (Roster.ofSet set w random).1, []⟩

@[simp] theorem after_append (t : Round) (first second : List Move) :
    t.after (first ++ second) = (t.after first).after second :=
  List.foldl_append

theorem after_concat (t : Round) (moves : List Move) (m : Move) :
    t.after (moves ++ [m]) = (t.after moves).move m := after_append t moves [m]

/-- **What every move preserves, every round preserves.** -/
theorem after_induction {motive : Round → Prop} (h : motive t)
    (step : ∀ t m, motive t → motive (t.move m)) (moves : List Move) : motive (t.after moves) := by
  induction moves generalizing t with
  | nil => exact h
  | cons m moves ih => exact ih (step t m h)

/-- The world of a round has gone through the changes of the round. -/
theorem world_after (t : Round) (moves : List Move) :
    (t.after moves).world = t.world.after (Move.changes moves) := by
  induction moves generalizing t with
  | nil => rfl
  | cons m moves ih =>
    cases m with
    | alter change => exact ih (t.move (.alter change))
    | call => exact ih (t.move .call)

/-- Every call of a round has been made after some of the changes. -/
theorem world_of_mem_calls {moves : List Move} {call : Call} (hcalls : t.calls = [])
    (hcall : call ∈ (t.after moves).calls) :
    ∃ before later, Move.changes moves = before ++ later ∧ call.world = t.world.after before := by
  induction moves using List.reverseRecOn with
  | nil =>
    rw [show (t.after []).calls = [] from hcalls] at hcall
    cases hcall
  | append_singleton moves m ih =>
    have hchanges : Move.changes (moves ++ [m]) = Move.changes moves ++ Move.changes [m] :=
      List.filterMap_append
    rw [hchanges]
    have hearlier (h : call ∈ (t.after moves).calls) :
        ∃ before later, Move.changes moves ++ Move.changes [m] = before ++ later
          ∧ call.world = t.world.after before := by
      obtain ⟨before, later, heq, hworld⟩ := ih h
      exact ⟨before, later ++ Move.changes [m], by rw [heq, List.append_assoc], hworld⟩
    rw [after_concat] at hcall
    cases m with
    | alter change => exact hearlier hcall
    | call =>
      rcases List.mem_append.mp hcall with hold | hnew
      · exact hearlier hold
      · rw [List.mem_singleton.mp hnew]
        exact ⟨Move.changes moves, Move.changes [.call], rfl, world_after t moves⟩

/-! ## The account of a round -/

/-- **The account of a round** that has begun with certain entries. -/
structure Sound (entries : List AgentId) (t : Round) : Prop where
  /-- What has been passed and what is to come are the entries from front to end. -/
  passages_append : t.passages.map Passage.id ++ t.roster.upcoming = entries
  passed_eq : t.roster.passed = t.passages.length
  /-- An entry was given out if and only if it was alive when it was passed. -/
  yields_eq : t.yields = (t.passages.filter Passage.alive).map Passage.id
  /-- The others were counted. -/
  skipped_eq : t.roster.skipped = t.passages.countP fun p => !p.alive

theorem Sound.ofSet (set : AgentSet) (w : World) (random : Random) :
    (Round.ofSet set w random).Sound (Roster.ofSet set w random).1.upcoming :=
  ⟨rfl, rfl, rfl, rfl⟩

/-- No move spoils the account. -/
theorem Sound.move {entries : List AgentId} (h : t.Sound entries) (m : Move) :
    (t.move m).Sound entries := by
  cases m with
  | alter change => exact ⟨h.passages_append, h.passed_eq, h.yields_eq, h.skipped_eq⟩
  | call =>
    obtain ⟨hupcoming, hpassed, hanswer, hskipped⟩ := Call.effect ⟨t.roster, t.world⟩
    have hpassages : (t.move .call).passages
        = t.passages ++ (Call.entries ⟨t.roster, t.world⟩).map fun id => ⟨id, t.world⟩ := by
      simp only [passages, Round.move, List.flatMap_append, List.flatMap_singleton]
    have hyields : (t.move .call).yields
        = t.yields ++ (Call.answer ⟨t.roster, t.world⟩).toList := by
      simp only [yields, Round.move, List.filterMap_append, List.filterMap_cons,
        List.filterMap_nil]
      cases Call.answer ⟨t.roster, t.world⟩ <;> rfl
    refine ⟨?_, ?_, ?_, ?_⟩
    · rw [hpassages, ← h.passages_append, hupcoming, List.map_append, List.map_map,
        List.append_assoc]
      congr 1
      exact congrArg (· ++ _) (List.map_id _)
    · rw [hpassages, List.length_append, List.length_map, ← h.passed_eq]
      exact hpassed
    · rw [hyields, hpassages, h.yields_eq, ← hanswer, List.filter_append, List.map_append,
        List.filter_map, List.map_map]
      congr 1
      exact (List.map_id _).symm
    · rw [hpassages, List.countP_append, List.countP_map, ← h.skipped_eq]
      exact hskipped

theorem Sound.after {entries : List AgentId} (h : t.Sound entries) (moves : List Move) :
    (t.after moves).Sound entries :=
  after_induction h (fun _ m ht => ht.move m) moves

/-- Every entry that has been passed was given out or counted. -/
theorem Sound.length_yields_add_skipped {entries : List AgentId} (h : t.Sound entries) :
    t.yields.length + t.roster.skipped = t.roster.passed := by
  have hdead : t.passages.countP (fun p => !p.alive)
      = t.passages.countP fun p => ¬p.alive = true :=
    List.countP_congr fun p _ => by simp
  rw [h.yields_eq, h.skipped_eq, h.passed_eq, List.length_map, ← List.countP_eq_length_filter,
    hdead, ← List.length_eq_countP_add_countP]

/-! ## Calls without changes in between -/

theorem upcoming_eq_nil_after (h : t.roster.upcoming = []) (moves : List Move) :
    (t.after moves).roster.upcoming = [] := by
  refine after_induction (motive := fun t => t.roster.upcoming = []) h (fun t m ht => ?_) moves
  cases m with
  | alter change => exact ht
  | call =>
    show (t.roster.next t.world).2.upcoming = []
    rw [Roster.next_of_upcoming_eq_nil ht]
    exact ht

/-- **A roster that has once given nothing gives nothing ever after.** -/
theorem next_after_of_fst_next_eq_none (h : (t.roster.next t.world).1 = none)
    (later : List Move) (v : World) : ((t.after (.call :: later)).roster.next v).1 = none := by
  have hnil : (t.move .call).roster.upcoming = [] := Roster.upcoming_eq_nil_of_fst_next h
  show (((t.move .call).after later).roster.next v).1 = none
  rw [Roster.next_of_upcoming_eq_nil (upcoming_eq_nil_after hnil later)]

theorem live_after_calls (t : Round) (number : Nat) :
    (t.after (List.replicate number .call)).roster.live t.world
      = (t.roster.live t.world).drop number := by
  induction number generalizing t with
  | zero => rfl
  | succ number ih =>
    have hmove : (t.move .call).roster.live t.world = (t.roster.live t.world).tail :=
      t.roster.live_next t.world
    rw [List.replicate_succ, ← List.drop_tail, ← hmove]
    exact ih (t.move .call)

/-- **While the world does not change, the calls give the living entries that are left**, in their
order, and nothing after them. -/
theorem next_after_calls (t : Round) (number : Nat) :
    ((t.after (List.replicate number .call)).roster.next t.world).1
      = (t.roster.live t.world)[number]? := by
  rw [Roster.fst_next, live_after_calls, List.head?_drop]

end Round

namespace Roster

/-! ## The law -/

/-- **The law of rounds**: what becomes of the entries of a roster of a set, given the round after
some moves. -/
structure RoundLaw (set : AgentSet) (w : World) (random : Random) (moves : List Move)
    (entries : List AgentId) (t : Round) : Prop where
  /-- The entries are the members that the set had when the roster was made. -/
  perm_members : entries.Perm (set.members w)
  /-- They have come to their order by exchanges between places of the list. -/
  eq_foldl_exchanges : entries = ((random.exchanges (set.members w).length).foldl
    (fun ids p => ids.swapIfInBounds p.1 p.2) (set.members w).toArray).toList
  lt_of_mem_exchanges : ∀ p ∈ random.exchanges (set.members w).length,
    p.2 ≤ p.1 ∧ p.1 < (set.members w).length
  /-- Nothing has been lost, and more has not been passed than there was. -/
  size_eq : t.roster.size = entries.length
  passed_le : t.roster.passed ≤ entries.length
  remaining_eq : t.roster.remaining = entries.length - t.roster.passed
  count_eq : t.yields.length + t.roster.skipped + t.roster.remaining = t.roster.size
  /-- The entries are passed in their order, each of them once. -/
  passages_eq : t.passages.map Passage.id = entries.take t.roster.passed
  upcoming_eq : t.roster.upcoming = entries.drop t.roster.passed
  /-- An entry is given out if and only if it is alive when it is passed, by the call that passes
  it. -/
  yields_eq : t.yields = (t.passages.filter Passage.alive).map Passage.id
  answer_eq : ∀ call ∈ t.calls, call.answer.toList = call.entries.filter call.world.isAlive
  /-- The others are counted, each of them once. -/
  skipped_eq : t.roster.skipped = t.passages.countP fun p => !p.alive
  /-- Whoever is given out was alive when the roster was made, and is still the same agent. -/
  unborn : ∀ call ∈ t.calls, ∀ id, call.answer = some id →
    id ∉ w.born (Move.changes moves)
      ∧ ∃ first now, w.get? id = some first ∧ call.world.get? id = some now ∧ now.SameAs first
  /-- A roster that has once given nothing gives nothing ever after. -/
  exhausted : (t.roster.next t.world).1 = none →
    ∀ later v, ((t.after (.call :: later)).roster.next v).1 = none
  /-- While the world does not change, the calls give the living entries that are left. -/
  next_eq : ∀ number, ((t.after (List.replicate number .call)).roster.next t.world).1
    = (t.roster.live t.world)[number]?
  live_eq : t.roster.live t.world = (entries.drop t.roster.passed).filter t.world.isAlive

/-- Whoever is given out in a round is an entry. -/
theorem mem_entries_of_answer {entries : List AgentId} {t : Round} (h : t.Sound entries)
    {call : Call} (hcall : call ∈ t.calls) {id : AgentId} (hanswer : call.answer = some id) :
    id ∈ entries := by
  have hyield : id ∈ t.yields := List.mem_filterMap.mpr ⟨call, hcall, hanswer⟩
  rw [h.yields_eq] at hyield
  obtain ⟨passage, hpassage, rfl⟩ := List.mem_map.mp hyield
  rw [← h.passages_append]
  exact List.mem_append_left _ (List.mem_map_of_mem (List.mem_filter.mp hpassage).1)

theorem isAlive_of_answer {call : Call} {id : AgentId} (h : call.answer = some id) :
    call.world.isAlive id = true := by
  obtain ⟨-, -, hfilter, -⟩ := call.effect
  have hmem : id ∈ call.entries.filter call.world.isAlive := by
    rw [hfilter, h]
    exact List.mem_singleton.mpr rfl
  exact (List.mem_filter.mp hmem).2

/-- Whoever is given out in a round was alive when the roster was made, and is still the same agent,
as long as no slot is killed too often in the course of the round. -/
theorem unborn_of_answer {set : AgentSet} {random : Random} (hindexed : w.Indexed)
    {moves : List Move}
    (hkills : ∀ slot, w.kills slot (Move.changes moves) < AgentId.generations) {call : Call}
    (hcall : call ∈ ((Round.ofSet set w random).after moves).calls) {id : AgentId}
    (hanswer : call.answer = some id) :
    id ∉ w.born (Move.changes moves)
      ∧ ∃ first now, w.get? id = some first ∧ call.world.get? id = some now
        ∧ now.SameAs first := by
  have hmem : id ∈ set.members w :=
    (perm_upcoming_ofSet set w random).mem_iff.mp
      (mem_entries_of_answer ((Round.Sound.ofSet set w random).after moves) hcall hanswer)
  obtain ⟨first, hfirst⟩ := World.isAlive_iff.mp (AgentSet.isAlive_of_mem_members hindexed hmem)
  obtain ⟨before, later, hchanges, hworld⟩ :=
    Round.world_of_mem_calls (t := Round.ofSet set w random) rfl hcall
  have hworld : call.world = w.after before := hworld
  have hbefore : w.kills id.slot before < AgentId.generations := by
    refine Nat.lt_of_le_of_lt (w.kills_le_append id.slot before later) ?_
    rw [← hchanges]
    exact hkills id.slot
  have halive := isAlive_of_answer hanswer
  rw [hworld] at halive ⊢
  obtain ⟨now, hnow, hsame⟩ := World.same_after hfirst hbefore halive
  exact ⟨World.notMem_born hfirst (hkills id.slot), first, now, hfirst, hnow, hsame⟩

/-- **The law of rounds.** -/
theorem round_law (history : List Change) (set : AgentSet) (random : Random) (moves : List Move)
    (hkills : ∀ slot,
      (World.empty.after history).kills slot (Move.changes moves) < AgentId.generations) :
    RoundLaw set (World.empty.after history) random moves
      (ofSet set (World.empty.after history) random).1.upcoming
      ((Round.ofSet set (World.empty.after history) random).after moves) := by
  have hindexed := World.Indexed.empty.after history
  have hunborn := @unborn_of_answer _ set random hindexed moves hkills
  have hperm := perm_upcoming_ofSet set (World.empty.after history) random
  have hsound := (Round.Sound.ofSet set (World.empty.after history) random).after moves
  have hgiven := hsound.length_yields_add_skipped
  generalize (Round.ofSet set (World.empty.after history) random).after moves = t at *
  generalize hentries : (ofSet set (World.empty.after history) random).1.upcoming = entries at *
  obtain ⟨hpassages, hpassed, hyields, hskipped⟩ := hsound
  have hlength : (t.passages.map Passage.id).length = t.roster.passed := by
    rw [List.length_map, hpassed]
  have htotal : entries.length = t.roster.passed + t.roster.upcoming.length := by
    rw [← hpassages, List.length_append, hlength]
  refine ⟨hperm, ?_, fun p => Random.le_and_lt_of_mem_exchanges, htotal.symm, ?_, ?_, ?_, ?_, ?_,
    hyields, fun call _ => call.effect.2.2.1.symm, hskipped, ?_,
    Round.next_after_of_fst_next_eq_none, t.next_after_calls, ?_⟩
  · rw [← hentries]
    exact congrArg Array.toList (random.shuffle_eq_foldl _)
  · exact htotal ▸ Nat.le_add_right _ _
  · rw [htotal, Nat.add_sub_cancel_left]
    rfl
  · rw [hgiven]
    rfl
  · rw [← hpassages, ← hlength, List.take_left]
  · rw [← hpassages, ← hlength, List.drop_left]
  · exact fun call hcall id hanswer => hunborn hcall hanswer
  · rw [← hpassages, ← hlength, List.drop_left]
    rfl

/-- Three cows. -/
def herd : List Change := .replicate 3 (.create .turtle "cows")

/-- After the first call the third cow dies, and a calf comes into its slot. -/
def succession : List Move :=
  [.call, .alter (.kill ⟨3, 0⟩), .alter (.create .turtle "cows"), .call, .call]

/-- The second call passes the dead cow and gives the next one; the calf is not given out. -/
theorem round_law_succession :
    (∀ slot, (World.empty.after herd).kills slot (Move.changes succession) < AgentId.generations)
      ∧ (ofSet (.breed .turtle "cows") (World.empty.after herd) (.ofSeed 1)).1.upcoming
        = [⟨2, 0⟩, ⟨3, 0⟩, ⟨1, 0⟩]
      ∧ ∃ t, t = (Round.ofSet (.breed .turtle "cows") (World.empty.after herd) (.ofSeed 1)).after
          succession
        ∧ t.calls.map Call.answer = [some ⟨2, 0⟩, some ⟨1, 0⟩, none] ∧ t.roster.skipped = 1
        ∧ t.yields.length + t.roster.skipped + t.roster.remaining = t.roster.size
        ∧ (World.empty.after herd).born (Move.changes succession) = [⟨3, 1⟩]
        ∧ ∀ call ∈ t.calls, ∀ id, call.answer = some id →
          id ∉ (World.empty.after herd).born (Move.changes succession) := by
  have hkills (slot : Nat) :
      (World.empty.after herd).kills slot (Move.changes succession) < AgentId.generations :=
    Nat.lt_of_le_of_lt (World.kills_le_length _ slot _) (by decide)
  have hlaw := round_law herd (.breed .turtle "cows") (.ofSeed 1) succession hkills
  exact ⟨hkills, by decide +kernel, _, rfl, by decide +kernel, by decide +kernel, hlaw.count_eq,
    by decide +kernel, fun call hcall id hanswer => (hlaw.unborn call hcall id hanswer).1⟩

end Roster

end AgentSweep
