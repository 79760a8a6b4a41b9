import AgentSweep.CommandLine.Program
import AgentSweep.Proofs.Decimal.WholeNumbers
import AgentSweep.Proofs.Job.Visits
import AgentSweep.Proofs.Machine.LocalCode
import AgentSweep.Proofs.World.Rolls

/-!
# What `run` has to tell

The answer of `run` can be told without running anything. The turtles are called in a random order,
which is drawn before the first of them is visited. All of them are visited but the one that is to
be killed, and even that one is visited if it is called first: nobody has killed it then.

Two things are counted in the end. A turtle is missing among the visited ones if it was killed
before its turn. And a turtle is missing among the living ones if any number given out was the one
to be killed, be it of a turtle from the start or of one that was born in the course of the run, to
be killed at the end of the very visit in which it was born.

What a visit does is first read off the procedure (`Program.executeFrom_visit`). Then `Stocked` says
what the world is like after some visits. A visit keeps it (`Stocked.pass`), and so does a run
(`stocked_of_takes`), which goes through the roster as `RunOptions.called` goes through the numbers.
-/

namespace AgentSweep

/-! ## The account of a run -/

namespace RunOptions

variable (o : RunOptions)

/-- Whether a turtle is not the one to be killed. -/
def spares (who : Nat) : Bool := o.killWho != some who

/-- **Which turtles are visited** when they are called in a given order, and some have been visited
before. Nobody is killed before the first visit. -/
def called (before : List Nat) : List Nat → List Nat
  | [] => []
  | who :: later =>
    if before.isEmpty || o.spares who then who :: called (before ++ [who]) later
    else called before later

/-- Which turtles are visited: the first one that is called, and all that are not to be killed. -/
def visited : List Nat → List Nat
  | [] => []
  | first :: later => first :: later.filter o.spares

/-- **How many turtles are skipped.** -/
def skipped (order : List Nat) : Nat :=
  match o.killWho with
  | some who => if who < o.turtles ∧ order.head? ≠ some who then 1 else 0
  | none => 0

/-- How many turtles are born in the course of so many visits. -/
def born (visits : Nat) : Nat := if o.hatch then visits else 0

/-- **How many turtles there are after so many visits.** -/
def remaining (visits : Nat) : Nat :=
  let numbers := o.turtles + o.born visits
  match o.killWho with
  | some who => numbers - if who < numbers then 1 else 0
  | none => numbers

/-- The random generator of a run, for a seed that chance has chosen in case none is asked for. -/
def generator (chance : UInt64) : Random :=
  match o.seed with
  | some seed => .ofSeed seed.toUInt64
  | none => Config.standard.generator chance

variable {o}

theorem called_of_ne_nil {before : List Nat} (h : before ≠ []) (order : List Nat) :
    o.called before order = order.filter o.spares := by
  induction order generalizing before with
  | nil => rfl
  | cons who later ih =>
    rw [called, List.isEmpty_eq_false_iff.mpr h, Bool.false_or, List.filter_cons,
      ih (List.append_ne_nil_of_left_ne_nil h [who]), ih h]

theorem called_nil (order : List Nat) : o.called [] order = o.visited order := by
  cases order with
  | nil => rfl
  | cons first later =>
    rw [called, List.isEmpty_nil, Bool.true_or, if_pos rfl, List.nil_append,
      called_of_ne_nil (List.cons_ne_nil first []), visited]

/-- How many of some numbers are not spared. -/
def doomed (o : RunOptions) (numbers : List Nat) : Nat :=
  match o.killWho with
  | some who => if who ∈ numbers then 1 else 0
  | none => 0

theorem spares_eq_bne {who : Nat} (h : o.killWho = some who) :
    o.spares = fun other => other != who := by
  funext other
  rw [spares, h]
  exact bne_comm

theorem filter_spares_eq_self (h : o.killWho = none) (numbers : List Nat) :
    numbers.filter o.spares = numbers := by
  refine List.filter_eq_self.mpr fun who _ => ?_
  rw [spares, h]
  rfl

theorem length_filter_spares {numbers : List Nat} (h : numbers.Nodup) :
    (numbers.filter o.spares).length + o.doomed numbers = numbers.length := by
  cases hkill : o.killWho with
  | none => simp only [filter_spares_eq_self hkill, doomed, hkill, Nat.add_zero]
  | some who =>
    simp only [spares_eq_bne hkill, ← h.erase_eq_filter, doomed, hkill]
    split_ifs with hmem
    · exact List.length_erase_add_one hmem
    · rw [List.erase_of_not_mem hmem, Nat.add_zero]

theorem filter_spares_filter (everybody : Bool) (numbers : List Nat) :
    (numbers.filter fun who => everybody || o.spares who).filter o.spares
      = numbers.filter o.spares := by
  rw [List.filter_filter]
  refine List.filter_congr fun who _ => ?_
  cases o.spares who <;> simp

theorem born_succ (o : RunOptions) (visits : Nat) :
    o.born (visits + 1) = o.born visits + o.born 1 := by
  simp only [born]
  split_ifs <;> rfl

/-- A child gets the next number. -/
theorem range_add_born (o : RunOptions) (n : Nat) :
    List.range (n + o.born 1) = List.range n ++ List.replicate (o.born 1) n := by
  rw [born]
  split_ifs
  · exact List.range_succ
  · exact (List.append_nil _).symm

/-- **Of all numbers that were given out, one at most is no longer alive.** -/
theorem length_filter_spares_range (visits : Nat) :
    ((List.range (o.turtles + o.born visits)).filter o.spares).length = o.remaining visits := by
  have hlength := length_filter_spares (o := o) (List.nodup_range (n := o.turtles + o.born visits))
  have hremaining : o.remaining visits = o.turtles + o.born visits
      - o.doomed (List.range (o.turtles + o.born visits)) := by
    rw [remaining, doomed]
    cases o.killWho with
    | none => rfl
    | some who => simp only [List.mem_range]
  rw [List.length_range] at hlength
  omega

/-- **All turtles are visited but the one that is skipped.** -/
theorem length_visited {order : List Nat} (h : order.Perm (List.range o.turtles)) :
    (o.visited order).length + o.skipped order = o.turtles := by
  have hnodup : order.Nodup := h.nodup_iff.mpr List.nodup_range
  have hlength : order.length = o.turtles := h.length_eq.trans List.length_range
  have hmem (who : Nat) : who < o.turtles ↔ who ∈ order := (h.mem_iff.trans List.mem_range).symm
  cases order with
  | nil =>
    rw [visited, skipped, ← hlength]
    cases o.killWho <;> rfl
  | cons first later =>
    have hfirst : first ∉ later := (List.nodup_cons.mp hnodup).1
    have hskipped : o.skipped (first :: later) = o.doomed later := by
      rw [skipped, doomed]
      cases o.killWho with
      | none => rfl
      | some who =>
        have hiff : who < o.turtles ∧ (first :: later).head? ≠ some who ↔ who ∈ later := by
          rw [hmem, List.mem_cons, List.head?_cons, ne_eq, Option.some.injEq]
          constructor
          · rintro ⟨rfl | hlater, hne⟩
            · exact absurd rfl hne
            · exact hlater
          · intro hlater
            exact ⟨.inr hlater, by rintro rfl; exact hfirst hlater⟩
        simp only [hiff]
    have hsome := length_filter_spares (o := o) hnodup.of_cons
    rw [visited, hskipped, ← hlength, List.length_cons, List.length_cons]
    omega

theorem visited_eq_nil_iff {order : List Nat} : o.visited order = [] ↔ order = [] := by
  cases order <;> simp [visited]

theorem visited_sublist (order : List Nat) : (o.visited order).Sublist order := by
  cases order with
  | nil => exact .slnil
  | cons first later => exact .cons_cons first List.filter_sublist

end RunOptions

/-! ## One visit -/

namespace Program

variable {o : RunOptions} {w : World} {id : AgentId} {agent : Agent} {visited : List Nat}

/-- The world after a turtle has had a child, if it is to have one. -/
def bear (o : RunOptions) (parent : Agent) (w : World) : World :=
  if o.hatch then
    (w.create .turtle "turtles").2.write (w.create .turtle "turtles").1 fun _ => parent.vars
  else w

/-- The world without the turtle that is to be killed. -/
def strike (o : RunOptions) (w : World) : World :=
  match o.killWho with
  | some who => w.killByWho who
  | none => w

/-- **The world after the visit of a turtle.** -/
def pass (o : RunOptions) (agent : Agent) (w : World) : World :=
  strike o (bear o agent (w.print (toString agent.who)))

variable {tag : KindMask} {s t : Stage}

theorem executeAll_cons {i : Instruction} {later : List Instruction}
    (h : i.execute id tag s = (none, t)) :
    Instruction.executeAll id tag (i :: later) s = Instruction.executeAll id tag later t := by
  rw [Instruction.executeAll, h]

theorem execute_print_who (hget : s.world.get? id = some agent)
    (hwho : agent.who < 2 * Binary64.leadingBit) :
    (Instruction.print .who).execute id tag s
      = (none, ⟨s.world.print (toString agent.who), s.random⟩) := by
  simp only [Instruction.execute, Expr.value, hget]
  rw [Value.ofNat, Value.render, Value.numberText_natural hwho]

theorem execute_hatch (hget : s.world.get? id = some agent) (breed : String) :
    (Instruction.hatch breed).execute id Kind.turtle.mask s
      = (none, ⟨(s.world.create .turtle breed).2.write (s.world.create .turtle breed).1
          fun _ => agent.vars, s.random⟩) := by
  simp only [Instruction.execute, hget]
  rfl

/-- A body that ends in a killing does not fail, not even if the agent kills itself. -/
theorem executeAll_killWho (id : AgentId) (tag : KindMask) (who : Nat) (s : Stage) :
    (Instruction.executeAll id tag [.killWho who] s).1.result = .ok ()
      ∧ (Instruction.executeAll id tag [.killWho who] s).2
        = ⟨s.world.killByWho who, s.random⟩ := by
  cases hfind : s.world.findByWho who with
  | none =>
    simp [Instruction.executeAll, Instruction.execute, World.killByWho, hfind, Verdict.result]
  | some target =>
    by_cases hself : target = id <;>
      simp [Instruction.executeAll, Instruction.execute, World.killByWho, hfind, hself,
        Verdict.result]

/-- What a visit ends with. -/
def ending (o : RunOptions) : List Instruction :=
  match o.killWho with
  | some who => [.killWho who]
  | none => []

theorem executeAll_ending (o : RunOptions) (id : AgentId) (tag : KindMask) (s : Stage) :
    (Instruction.executeAll id tag (ending o) s).1.result = .ok ()
      ∧ (Instruction.executeAll id tag (ending o) s).2 = ⟨strike o s.world, s.random⟩ := by
  rw [ending, strike]
  cases o.killWho with
  | none => exact ⟨rfl, rfl⟩
  | some who => exact executeAll_killWho id tag who s

/-- **What the procedure does for a living turtle.** -/
theorem executeFrom_visit (o : RunOptions) (hget : s.world.get? id = some agent)
    (hwho : agent.who < 2 * Binary64.leadingBit) :
    ((visit o).executeFrom id Kind.turtle.mask 0 s).1.result = .ok ()
      ∧ ((visit o).executeFrom id Kind.turtle.mask 0 s).2
        = ⟨pass o agent s.world, s.random⟩ := by
  have hcode : (visit o).code.drop 0
      = .print .who :: ((if o.hatch then [.hatch "turtles"] else []) ++ ending o) := rfl
  have hbears := execute_hatch (s := ⟨s.world.print (toString agent.who), s.random⟩) hget "turtles"
  have htag : Kind.turtle.mask.intersects (visit o).usableBy = true :=
    show Kind.turtle.mask.intersects .all = true by decide
  rw [Procedure.executeFrom, if_pos htag, hcode, executeAll_cons (execute_print_who hget hwho),
    pass, bear]
  by_cases hhatch : o.hatch
  · rw [if_pos hhatch, if_pos hhatch, List.singleton_append, executeAll_cons hbears]
    exact executeAll_ending o id _ _
  · rw [if_neg hhatch, if_neg hhatch, List.nil_append]
    exact executeAll_ending o id _ _

theorem follows_bear (o : RunOptions) (agent : Agent) (w : World) :
    w.Follows 0 (bear o agent w) := by
  rw [bear]
  split_ifs
  · exact (World.Follows.create w .turtle "turtles").trans (.write _ _ _)
  · exact .refl w

theorem follows_strike (o : RunOptions) (w : World) : w.Follows 1 (strike o w) := by
  rw [strike]
  cases o.killWho with
  | none => exact ⟨[], rfl, fun _ => Nat.zero_le 1⟩
  | some who => exact .killByWho w who

theorem follows_pass (o : RunOptions) (agent : Agent) (w : World) :
    w.Follows 1 (pass o agent w) := by
  have h := ((World.Follows.print w (toString agent.who)).trans (follows_bear o agent _)).trans
    (follows_strike o _)
  rwa [Nat.zero_add] at h

theorem roll_bear (h : w.Indexed) (o : RunOptions) (agent : Agent) :
    (bear o agent w).roll "turtles"
        = w.roll "turtles" ++ List.replicate (o.born 1) w.nextWho := by
  rw [bear, RunOptions.born]
  split_ifs
  · exact (World.roll_write ..).trans (World.roll_create h .turtle "turtles")
  · exact (List.append_nil _).symm

theorem roll_strike (h : w.Indexed) (hnumbered : w.Numbered) (o : RunOptions) :
    (strike o w).roll "turtles" = (w.roll "turtles").filter o.spares := by
  cases hkill : o.killWho with
  | none => simp only [strike, hkill, RunOptions.filter_spares_eq_self hkill]
  | some who =>
    simp only [strike, hkill, RunOptions.spares_eq_bne hkill]
    exact World.roll_killByWho h hnumbered who "turtles"

@[simp] theorem nextWho_strike (o : RunOptions) (w : World) : (strike o w).nextWho = w.nextWho := by
  rw [strike]
  cases o.killWho with
  | none => rfl
  | some who => exact w.nextWho_killByWho who

@[simp] theorem output_strike (o : RunOptions) (w : World) : (strike o w).output = w.output := by
  rw [strike]
  cases o.killWho with
  | none => rfl
  | some who => exact w.output_killByWho who

@[simp] theorem nextWho_bear (o : RunOptions) (agent : Agent) (w : World) :
    (bear o agent w).nextWho = w.nextWho + o.born 1 := by
  rw [bear, RunOptions.born]
  split_ifs <;> rfl

@[simp] theorem output_bear (o : RunOptions) (agent : Agent) (w : World) :
    (bear o agent w).output = w.output := by
  rw [bear]
  split_ifs <;> rfl

theorem nextWho_pass (o : RunOptions) (agent : Agent) (w : World) :
    (pass o agent w).nextWho = w.nextWho + o.born 1 := by
  rw [pass, nextWho_strike, nextWho_bear]
  rfl

theorem output_pass (o : RunOptions) (agent : Agent) (w : World) :
    (pass o agent w).output = w.output.push (toString agent.who) := by
  rw [pass, output_strike, output_bear, World.print]

/-- **A visit adds a child to the roll, and strikes off whoever is to be killed.** -/
theorem roll_pass (h : w.Indexed) (hnumbered : w.Numbered) (o : RunOptions) (agent : Agent) :
    (pass o agent w).roll "turtles"
      = (w.roll "turtles" ++ List.replicate (o.born 1) w.nextWho).filter o.spares := by
  have hprinted := World.Follows.print w (toString agent.who)
  have hborn := hprinted.trans (follows_bear o agent _)
  rw [pass, roll_strike (hborn.indexed h) (hborn.numbered h hnumbered),
    roll_bear (hprinted.indexed h), World.roll_print]
  rfl

/-! ## The world at the start -/

theorem populate_eq_after (n : Nat) :
    populate n = World.empty.after (List.replicate n (.create .turtle "turtles")) :=
  World.createTurtles_eq_after .empty "turtles" n

theorem populate_succ (n : Nat) :
    populate (n + 1) = ((populate n).create .turtle "turtles").2 := by
  rw [populate_eq_after, List.replicate_succ', World.after_append, ← populate_eq_after]
  rfl

theorem indexed_populate (n : Nat) : (populate n).Indexed := by
  rw [populate_eq_after]
  exact World.Indexed.empty.after _

theorem numbered_populate (n : Nat) : (populate n).Numbered := by
  rw [populate_eq_after]
  exact World.Numbered.empty.after .empty _

theorem nextWho_populate (n : Nat) : (populate n).nextWho = n := by
  induction n with
  | zero => rfl
  | succ n ih => rw [populate_succ, World.nextWho_create, ih]

theorem output_populate (n : Nat) : (populate n).output = #[] := by
  induction n with
  | zero => rfl
  | succ n ih => rw [populate_succ, World.output_create, ih]

/-- **The turtles are numbered from zero.** -/
theorem roll_populate (n : Nat) : (populate n).roll "turtles" = List.range n := by
  induction n with
  | zero => rfl
  | succ n ih =>
    rw [populate_succ, World.roll_create (indexed_populate n), ih, nextWho_populate,
      List.range_succ]

/-! ## The world after some visits -/

/-- **The world after some visits.** -/
structure Stocked (o : RunOptions) (visited : List Nat) (w : World) : Prop where
  /-- Every visit has killed one turtle at most. -/
  follows : (populate o.turtles).Follows visited.length w
  nextWho_eq : w.nextWho = o.turtles + o.born visited.length
  output_eq : w.output.toList = visited.map toString
  /-- After the first visit, the turtle that is to be killed is not there, or not there yet. -/
  roll_eq : w.roll "turtles"
    = (List.range w.nextWho).filter fun who => visited.isEmpty || o.spares who

theorem stocked_populate (o : RunOptions) : Stocked o [] (populate o.turtles) where
  follows := .refl _
  nextWho_eq := by
    rw [nextWho_populate, RunOptions.born]
    split_ifs <;> rfl
  output_eq := by rw [output_populate]; rfl
  roll_eq := by
    rw [roll_populate, nextWho_populate]
    exact (List.filter_eq_self.mpr fun _ _ => rfl).symm

namespace Stocked

theorem indexed (h : Stocked o visited w) : w.Indexed := h.follows.indexed (indexed_populate _)

theorem numbered (h : Stocked o visited w) : w.Numbered :=
  h.follows.numbered (indexed_populate _) (numbered_populate _)

/-- **A visit keeps the account.** -/
theorem pass (h : Stocked o visited w) (agent : Agent) :
    Stocked o (visited ++ [agent.who]) (pass o agent w) where
  follows := by
    rw [List.length_append, List.length_singleton]
    exact h.follows.trans (follows_pass o agent w)
  nextWho_eq := by
    rw [nextWho_pass, h.nextWho_eq, List.length_append, List.length_singleton,
      RunOptions.born_succ _ visited.length, Nat.add_assoc]
  output_eq := by
    rw [output_pass, Array.toList_push, h.output_eq, List.map_append, List.map_singleton]
  roll_eq := by
    have hsome : (visited ++ [agent.who]).isEmpty = false :=
      List.isEmpty_eq_false_iff.mpr (List.append_ne_nil_of_right_ne_nil _ (List.cons_ne_nil _ _))
    rw [roll_pass h.indexed h.numbered, h.roll_eq, List.filter_append,
      RunOptions.filter_spares_filter, ← List.filter_append, ← RunOptions.range_add_born,
      nextWho_pass, hsome]
    rfl

/-- **A turtle from the start is alive if nobody has been visited, or else if it is not to be
killed.** A living one has the number that it had. -/
theorem isAlive_eq (h : Stocked o visited w) (hvisits : visited.length < AgentId.generations)
    (hmember : id ∈ (populate o.turtles).members "turtles") :
    ∃ who, (populate o.turtles).who? id = some who ∧ who < o.turtles
      ∧ w.isAlive id = (visited.isEmpty || o.spares who)
      ∧ (w.isAlive id = true → ∃ now, w.get? id = some now ∧ now.who = who) := by
  have hindexed := indexed_populate o.turtles
  obtain ⟨agent, hget, hbreed⟩ := hindexed.mem_members_iff.1 hmember
  have hlt : agent.who < o.turtles := nextWho_populate o.turtles ▸ hindexed.who_lt_nextWho hget
  have hwho : agent.who < w.nextWho := h.nextWho_eq ▸ Nat.lt_add_right _ hlt
  refine ⟨agent.who, World.who?_eq_some_iff.2 ⟨agent, hget, rfl⟩, hlt, ?_, fun halive => ?_⟩
  · rw [Bool.eq_iff_iff, h.follows.isAlive_iff_mem_roll hindexed (numbered_populate _) hvisits hget,
      hbreed, h.roll_eq, List.mem_filter, List.mem_range]
    exact and_iff_right hwho
  · obtain ⟨now, hnow, hsame⟩ := h.follows.same hvisits hget halive
    exact ⟨now, hnow, hsame.who_eq⟩

/-- **How many turtles there are after the visits.** Nobody may be left unvisited unless nobody was
there. -/
theorem count_eq (h : Stocked o visited w) (hsome : visited = [] → o.turtles = 0) :
    AgentSet.turtles.count w = o.remaining visited.length := by
  rw [← RunOptions.length_filter_spares_range, ← h.nextWho_eq]
  show (w.members "turtles").length = _
  rw [← World.length_roll h.indexed, h.roll_eq]
  cases visited with
  | nil =>
    have hnobody : w.nextWho = 0 := by
      rw [h.nextWho_eq, hsome rfl, RunOptions.born]
      split_ifs <;> rfl
    rw [hnobody]
    rfl
  | cons => rfl

end Stocked

/-! ## The run -/

variable {entry : Frame} {ids : List AgentId} {c : Context} {s : Scene} {steps : Nat}
  {turns : List Turn}

/-- **One turn.** A living turtle is visited, and its visit does not fail. -/
theorem stocked_of_passed (h : Stocked o visited s.world) (hget : s.world.get? id = some agent)
    (hwho : agent.who < 2 * Binary64.leadingBit) (hentry : entry.procedure = visit o)
    (htag : c.tag = Kind.turtle.mask) :
    ((c.reset id entry 0).run s).result = .ok ()
      ∧ Stocked o (visited ++ [agent.who]) ((c.reset id entry 0).run s).scene.world := by
  have hcomes : (c.reset id entry 0).ComesTo s
      (entry.procedure.executeFrom id c.tag 0 s.stage) :=
    c.comesTo_reset s id (by rw [hentry]; rfl) (Nat.zero_le _)
  obtain ⟨hresult, hstage⟩ := Context.run_of_comesTo rfl rfl hcomes
  rw [hentry, htag] at hresult hstage
  obtain ⟨hok, hpass⟩ := executeFrom_visit (s := s.stage) o hget hwho
  refine ⟨hresult.trans hok, ?_⟩
  have hworld : ((c.reset id entry 0).run s).scene.world = pass o agent s.world :=
    (congrArg Stage.world hstage).trans (congrArg Stage.world hpass)
  rw [hworld]
  exact h.pass agent

/-- **A run goes through the roster as it goes through the numbers.** -/
theorem stocked_of_takes
    (h : (jobOver "cli" (visit o)).Takes .never entry ids c s steps turns)
    (hstocked : Stocked o visited s.world) (hentry : entry.procedure = visit o)
    (htag : c.tag = Kind.turtle.mask)
    (hids : ∀ id ∈ ids, id ∈ (populate o.turtles).members "turtles")
    (hvisits : visited.length + ids.length ≤ o.turtles)
    (hturtles : o.turtles < AgentId.generations) :
    let calls := o.called visited (ids.filterMap (populate o.turtles).who?)
    Stocked o (visited ++ calls) (Turn.sceneAfter s turns).world
      ∧ turns.countP Turn.started = calls.length
      ∧ ∀ turn ∈ turns, turn.failure? = none := by
  have hroom (who : Nat) (h : who < o.turtles) : who < 2 * Binary64.leadingBit := by
    simp only [Binary64.leadingBit]
    simp only [AgentId.generations] at hturtles
    omega
  induction h generalizing visited with
  | nil =>
    exact ⟨(List.append_nil visited).symm ▸ hstocked, rfl,
      fun _ hturn => absurd hturn List.not_mem_nil⟩
  | halted halive hhalt => cases hhalt
  | @skipped id rest c s steps turns hdead later ih =>
    have hlength : visited.length + rest.length < o.turtles := hvisits
    obtain ⟨who, hwho, -, halive, -⟩ := hstocked.isAlive_eq (by omega) (hids id List.mem_cons_self)
    obtain ⟨hstocked, hstarted, hpassed⟩ := ih hstocked htag
      (fun other hother => hids other (List.mem_cons_of_mem id hother)) (Nat.le_of_lt hlength)
    have hcalls : o.called visited ((id :: rest).filterMap (populate o.turtles).who?)
        = o.called visited (rest.filterMap (populate o.turtles).who?) := by
      rw [List.filterMap_cons_some hwho, RunOptions.called, ← halive, hdead,
        if_neg Bool.false_ne_true]
    rw [hcalls]
    exact ⟨hstocked, hstarted, List.forall_mem_cons.mpr ⟨rfl, hpassed⟩⟩
  | @passed id rest c s steps turns halive hok later ih =>
    have hlength : visited.length + rest.length < o.turtles := hvisits
    obtain ⟨who, hwho, hlt, hspared, hnow⟩ :=
      hstocked.isAlive_eq (by omega) (hids id List.mem_cons_self)
    obtain ⟨now, hget, rfl⟩ := hnow halive
    obtain ⟨-, hvisited⟩ := stocked_of_passed hstocked hget (hroom _ hlt) hentry htag
    obtain ⟨hstocked, hstarted, hpassed⟩ := ih hvisited
      (((c.reset id entry 0).sameRun_run s).tag_eq.trans htag)
      (fun other hother => hids other (List.mem_cons_of_mem id hother))
      (by rw [List.length_append, List.length_singleton]; omega)
    have hcalls : o.called visited ((id :: rest).filterMap (populate o.turtles).who?)
        = now.who :: o.called (visited ++ [now.who])
          (rest.filterMap (populate o.turtles).who?) := by
      rw [List.filterMap_cons_some hwho, RunOptions.called, ← hspared, halive, if_pos rfl]
    rw [← List.append_cons] at hstocked
    rw [hcalls]
    exact ⟨hstocked, by rw [List.countP_cons_of_pos rfl, hstarted, List.length_cons],
      List.forall_mem_cons.mpr ⟨Turn.failure?_of_ok hok, hpassed⟩⟩
  | @failed id rest c s steps fault halive herror =>
    have hlength : visited.length + rest.length < o.turtles := hvisits
    obtain ⟨who, -, hlt, -, hnow⟩ :=
      hstocked.isAlive_eq (by omega) (hids id List.mem_cons_self)
    obtain ⟨now, hget, rfl⟩ := hnow halive
    obtain ⟨hok, -⟩ := stocked_of_passed hstocked hget (hroom _ hlt) hentry htag
    cases hok.symm.trans herror

/-- **The numbers of the turtles in the order in which a run calls them.** -/
def callOrder (turtles : Nat) (random : Random) : List Nat :=
  (Roster.ofSet .turtles (populate turtles) random).1.upcoming.filterMap (populate turtles).who?

/-- The order is that of the snapshot of the run. -/
theorem callOrder_eq (o : RunOptions) (config : Config) (random : Random) :
    callOrder o.turtles random
      = ((jobOver "cli" (visit o)).snapshot
          ((Workspace.new (populate o.turtles) config).scene random)).filterMap
        (populate o.turtles).who? := rfl

theorem perm_callOrder (turtles : Nat) (random : Random) :
    (callOrder turtles random).Perm (List.range turtles) := by
  rw [← roll_populate turtles]
  exact (Roster.perm_upcoming_ofSet .turtles (populate turtles) random).filterMap _

/-- **How a run ends**: it succeeds, with its summary, in the world after the visits. -/
theorem run_visit (o : RunOptions) (config : Config) (random : Random) (traceAgents : Bool)
    (hturtles : o.turtles < AgentId.generations) :
    let order := callOrder o.turtles random
    let course := (jobOver "cli" (visit o)).run
      ((Workspace.new (populate o.turtles) config).scene random) traceAgents .never
    course.result = .ok ⟨o.turtles, o.turtles - o.skipped order, o.skipped order⟩
      ∧ Stocked o (o.visited order) course.scene.world := by
  let job := jobOver "cli" (visit o)
  let s := (Workspace.new (populate o.turtles) config).scene random
  have hmembers : (job.snapshot s).Perm ((populate o.turtles).members "turtles") :=
    job.perm_snapshot s
  have hlength : (job.snapshot s).length = o.turtles := by
    rw [hmembers.length_eq, ← World.length_roll (indexed_populate _), roll_populate,
      List.length_range]
  obtain ⟨hstocked, hstarted, hpassed⟩ := stocked_of_takes (job.takes_turns s .never)
    (stocked_populate o) rfl rfl (fun id hid => hmembers.mem_iff.mp hid)
    (by rw [hlength, List.length_nil, Nat.zero_add]) hturtles
  rw [RunOptions.called_nil, ← callOrder_eq o config random] at hstocked hstarted
  have hturns : (job.turns s .never).length = o.turtles := by
    rw [← List.length_map Turn.id, (job.takes_turns s .never).map_id_eq hpassed, hlength]
  have hvisited := RunOptions.length_visited (perm_callOrder o.turtles random)
  have hsplit : (job.turns s .never).length = (job.turns s .never).countP Turn.started
      + (job.turns s .never).countP fun turn => !turn.started := by
    simpa only [Bool.not_eq_true, Bool.decide_eq_false] using
      List.length_eq_countP_add_countP Turn.started (l := job.turns s .never)
  have hexecuted : (job.turns s .never).countP Turn.started
      = o.turtles - o.skipped (callOrder o.turtles random) := by omega
  have hskipped : ((job.turns s .never).countP fun turn => !turn.started)
      = o.skipped (callOrder o.turtles random) := by omega
  refine ⟨?_, ?_⟩
  · rw [Job.result_run_of_passed hpassed, hlength, hexecuted, hskipped]
  · rw [Job.scene_run]
    exact hstocked

/-- **What a run has to tell**, whatever the configuration. -/
theorem visitAll_eq (o : RunOptions) (config : Config) (random : Random)
    (hturtles : o.turtles < AgentId.generations) :
    visitAll o config random
      = .ok
        { visited := (o.visited (callOrder o.turtles random)).map toString
          summary :=
            { snapshot := o.turtles
              executed := o.turtles - o.skipped (callOrder o.turtles random)
              skipped := o.skipped (callOrder o.turtles random) }
          turtles := o.remaining (o.turtles - o.skipped (callOrder o.turtles random)) } := by
  have hperm := perm_callOrder o.turtles random
  have hlength := RunOptions.length_visited hperm
  have hvisits : (o.visited (callOrder o.turtles random)).length
      = o.turtles - o.skipped (callOrder o.turtles random) := by omega
  have hsome : o.visited (callOrder o.turtles random) = [] → o.turtles = 0 := fun hnil => by
    have horder := hperm.length_eq
    rw [RunOptions.visited_eq_nil_iff.mp hnil, List.length_range] at horder
    exact horder.symm
  obtain ⟨hresult, hstocked⟩ := run_visit o config random config.traceAgents hturtles
  have hcount := hstocked.count_eq hsome
  rw [hvisits] at hcount
  rw [visitAll]
  dsimp only
  rewrite [show (Workspace.new (populate o.turtles) config).signal = HaltSignal.never from rfl,
    hresult]
  dsimp only
  rw [hcount, hstocked.output_eq]

/-- The log filter of a configuration in which nothing is set is in order. -/
theorem report_standard : LogFilter.report Config.standard.logFilter = ⟨[], false⟩ := by
  decide +kernel

/-- A run that succeeds is told of in lines. -/
theorem answer_of_visitAll {o : RunOptions} {arguments : List String} {path : Option String}
    {files : String → Option ByteArray} {chance : UInt64} {visits : Visits}
    (hcommand : Invocation.ofArguments arguments = .command path (.run o))
    (hconfig : loadConfig path files = .ok .standard)
    (hvisits : visitAll o .standard (o.generator chance) = .ok visits) :
    answer arguments files chance = success (visitsText visits) := by
  have hanswer : answerCommand .standard chance (.run o) = success (visitsText visits) := by
    cases hseed : o.seed with
    | none =>
      simp only [RunOptions.generator, hseed] at hvisits
      simp only [answerCommand, hseed, hvisits]
    | some seed =>
      simp only [RunOptions.generator, hseed] at hvisits
      simp only [answerCommand, hseed, hvisits]
  rw [answer, hcommand]
  dsimp only
  rw [hconfig]
  dsimp only
  rw [report_standard, hanswer]
  rfl

/-- **The answer of `run` in closed form.** With nothing configured, and as long as there is room
for twice as many turtles as there are at the start, a run succeeds, and it tells of every turtle
once but for the one that is skipped. -/
theorem answer_run (o : RunOptions) (chance : UInt64) (hroom : 2 * o.turtles < 0xfffffffe) :
    let random := o.generator chance
    let order := callOrder o.turtles random
    let visited := o.visited order
    let skipped := o.skipped order
    let executed := o.turtles - skipped
    visitAll o .standard random
        = .ok ⟨visited.map toString, ⟨o.turtles, executed, skipped⟩, o.remaining executed⟩
      ∧ order.Perm (List.range o.turtles)
      ∧ visited.Nodup ∧ (∀ who ∈ visited, who < o.turtles) ∧ visited.length = executed
      ∧ ∀ arguments path files, Invocation.ofArguments arguments = .command path (.run o) →
        loadConfig path files = .ok .standard →
        answer arguments files chance
          = success (lines (visited.map (fun who => "visited turtle " ++ toString who)
            ++ [s!"snapshot: {o.turtles}  executed: {executed}  "
              ++ s!"skipped: {skipped}  turtles now: {o.remaining executed}"])) := by
  have hturtles : o.turtles < AgentId.generations := by
    simp only [AgentId.generations]
    omega
  have hperm := perm_callOrder o.turtles (o.generator chance)
  have hvisits := visitAll_eq o .standard (o.generator chance) hturtles
  have hlength := RunOptions.length_visited hperm
  have hsublist := RunOptions.visited_sublist (o := o) (callOrder o.turtles (o.generator chance))
  refine ⟨hvisits, hperm, hsublist.nodup (hperm.nodup_iff.mpr List.nodup_range),
    fun who hwho => List.mem_range.mp (hperm.mem_iff.mp (hsublist.subset hwho)), by omega, ?_⟩
  intro arguments path files hcommand hconfig
  rw [answer_of_visitAll hcommand hconfig hvisits, visitsText, List.map_map]
  rfl

/-- The first of three turtles kills another one, and both turtles that are visited have a
child. -/
theorem answer_run_herd :
    2 * 3 < 0xfffffffe
      ∧ callOrder 3 (RunOptions.generator ⟨3, none, true, some 1⟩ 0) = [2, 0, 1]
      ∧ Invocation.ofArguments ["run", "--turtles", "3", "--hatch", "--kill-who", "1"]
        = .command none (.run ⟨3, none, true, some 1⟩)
      ∧ loadConfig none (fun _ => none) = .ok .standard
      ∧ answer ["run", "--turtles", "3", "--hatch", "--kill-who", "1"] (fun _ => none) 0
        = success (lines ["visited turtle 2", "visited turtle 0",
          "snapshot: 3  executed: 2  skipped: 1  turtles now: 4"]) := by
  have horder : callOrder 3 (RunOptions.generator ⟨3, none, true, some 1⟩ 0) = [2, 0, 1] := by
    decide +kernel
  have hcommand : Invocation.ofArguments ["run", "--turtles", "3", "--hatch", "--kill-who", "1"]
      = .command none (.run ⟨3, none, true, some 1⟩) := by decide +kernel
  obtain ⟨-, -, -, -, -, hanswer⟩ := answer_run ⟨3, none, true, some 1⟩ 0 (by decide)
  refine ⟨by decide, horder, hcommand, rfl,
    (hanswer _ none (fun _ => none) hcommand rfl).trans ?_⟩
  rw [horder]
  decide +kernel

end Program

end AgentSweep
