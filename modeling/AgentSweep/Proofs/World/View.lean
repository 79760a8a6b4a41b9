import AgentSweep.Proofs.World.Numbers
import AgentSweep.Value.Render
import Mathlib.Data.List.Forall2

/-!
# What can be seen of a world

Nobody who looks at a world sees in which slots its agents are. What can be seen is its `View`: the
next number, the lines printed so far and, for each breed, what its members are like, in their
order. Whatever happens to a world shows in its view, and how it shows there is settled by the view
(`World.view_create`, `World.view_kill`, `World.view_write`).

Two worlds can look the same and have their agents under different ids. In two such worlds, an
agent of one and an agent of the other are *twins* if they look the same, and everybody has one twin
(`World.Alike.exists_twin`). Twins stay together: as long as the worlds look the same, an agent is
alive if and only if its twin is (`World.Alike.twins_after`).

Only a value that holds an id could tell two such worlds apart. A value is *anonymous* if it holds
none.
-/

namespace AgentSweep

/-! ## Anonymous values -/

/-- Whether a set names nobody by id. -/
def AgentSet.anonymous : AgentSet → Bool
  | breed _ _ => true
  | fixed _ _ => false

namespace Value

mutual

/-- **Whether a value holds no id**, neither an agent nor a list of ids. -/
def anonymous : Value → Bool
  | agent _ => false
  | agentset set => set.anonymous
  | list items => anonymousAll items
  | _ => true

/-- Whether no item of a list holds an id. -/
def anonymousAll : List Value → Bool
  | [] => true
  | item :: items => item.anonymous && anonymousAll items

end

end Value

/-! ## Views -/

/-- **What can be seen of an agent.** The variables are read by their names, in whatever order they
were bound. -/
structure AgentView where
  kind : Kind
  breed : String
  who : Nat
  vars : String → Option Value

/-- What can be seen of this agent. -/
def Agent.view (agent : Agent) : AgentView := ⟨agent.kind, agent.breed, agent.who, agent.vars.get?⟩

theorem Agent.title_eq_of_view {a b : Agent} (h : a.view = b.view) : a.title = b.title := by
  rw [title, title, show a.kind = b.kind from congrArg AgentView.kind h,
    show a.who = b.who from congrArg AgentView.who h]

namespace World

/-- **What can be seen of a world.** -/
@[ext] structure View where
  nextWho : Nat
  output : Array String
  /-- The members of a breed in their order. An id that names nobody shows as nothing. -/
  members : String → List (Option AgentView)

/-- **What can be seen of this world.** -/
def view (w : World) : View where
  nextWho := w.nextWho
  output := w.output
  members := fun breed => (w.members breed).map fun id => (w.get? id).map Agent.view

namespace View

/-- How it shows that an agent is made. -/
def create (v : View) (kind : Kind) (breed : String) : View :=
  { v with
    nextWho := v.nextWho + 1
    members := fun name =>
      if name = breed then v.members name ++ [some ⟨kind, breed, v.nextWho, fun _ => none⟩]
      else v.members name }

/-- How it shows that the agent with a given number is killed. -/
def remove (v : View) (who : Nat) : View :=
  { v with
    members := fun name => (v.members name).filter fun member =>
      member.map AgentView.who != some who }

/-- How it shows that the variables of the agent with a given number are written. -/
def assign (v : View) (who : Nat) (vars : String → Option Value) : View :=
  { v with
    members := fun name => (v.members name).map fun member =>
      member.map fun agent => if agent.who = who then { agent with vars } else agent }

/-- How it shows that a line is printed. -/
def print (v : View) (line : String) : View := { v with output := v.output.push line }

/-- **No variable holds an id.** -/
def Anonymous (v : View) : Prop :=
  ∀ breed agent name value, some agent ∈ v.members breed → agent.vars name = some value →
    value.anonymous = true

theorem Anonymous.create {v : View} (h : v.Anonymous) (kind : Kind) (breed : String) :
    (v.create kind breed).Anonymous := by
  intro other agent name value hmem hvalue
  simp only [View.create] at hmem
  split at hmem
  · rcases List.mem_append.mp hmem with hold | hnew
    · exact h other agent name value hold hvalue
    · cases List.mem_singleton.mp hnew
      cases hvalue
  · exact h other agent name value hmem hvalue

theorem Anonymous.remove {v : View} (h : v.Anonymous) (who : Nat) : (v.remove who).Anonymous :=
  fun breed agent name value hmem => h breed agent name value (List.mem_filter.mp hmem).1

theorem Anonymous.assign {v : View} (h : v.Anonymous) (who : Nat) {vars : String → Option Value}
    (hvars : ∀ name value, vars name = some value → value.anonymous = true) :
    (v.assign who vars).Anonymous := by
  intro breed agent name value hmem hvalue
  obtain ⟨member, hmember, heq⟩ := List.mem_map.mp hmem
  obtain ⟨before, rfl, rfl⟩ := Option.map_eq_some_iff.mp heq
  split at hvalue
  · exact hvars name value hvalue
  · exact h breed before name value hmember hvalue

end View

variable {w v : World} {a b id : AgentId} {agent : Agent}

/-! ## How changes show -/

/-- What is seen of the members that stay members. -/
theorem map_view_congr {u : World} {ids : List AgentId} (h : ∀ id ∈ ids, u.get? id = w.get? id) :
    (ids.map fun id => (u.get? id).map Agent.view) = ids.map fun id => (w.get? id).map Agent.view :=
  List.map_congr_left fun id hid => by rw [h id hid]

theorem view_create (h : w.Indexed) (kind : Kind) (breed : String) :
    (w.create kind breed).2.view = w.view.create kind breed := by
  have hmembers (name : String) :
      (w.create kind breed).2.view.members name = (w.view.create kind breed).members name := by
    have hold : ∀ id ∈ w.members name, (w.create kind breed).2.get? id = w.get? id := by
      intro id hmem
      obtain ⟨agent, hget⟩ := isAlive_iff.mp (h.isAlive_of_mem_members hmem)
      rw [get?_create, if_neg]
      rintro rfl
      rw [get?_fst_create] at hget
      cases hget
    simp only [view, View.create, members_create]
    split
    · rw [List.map_append, map_view_congr hold, List.map_singleton, get?_create_fst]
      rfl
    · rw [map_view_congr hold]
  exact View.ext rfl rfl (funext hmembers)

theorem view_kill (h : w.Indexed) (hnumbered : w.Numbered) (hget : w.get? id = some agent) :
    (w.kill id).view = w.view.remove agent.who := by
  have hmembers (name : String) :
      (w.kill id).view.members name = (w.view.remove agent.who).members name := by
    -- an id other than the one that is killed names an agent with another number
    have htest : ∀ member ∈ w.members name, (member != id)
        = (((w.get? member).map Agent.view).map AgentView.who != some agent.who) := by
      intro member hmem
      obtain ⟨other, hother⟩ := isAlive_iff.mp (h.isAlive_of_mem_members hmem)
      rw [hother, Bool.eq_iff_iff, bne_iff_ne, bne_iff_ne]
      refine not_congr ⟨?_, fun hwho => ?_⟩
      · rintro rfl
        cases hget.symm.trans hother
        rfl
      · exact hnumbered.eq_of_who_eq hother hget (Option.some.inj hwho)
    have hstay : ∀ member ∈ (w.members name).filter fun member => member != id,
        (w.kill id).get? member = w.get? member := by
      intro member hmem
      rw [get?_kill, if_neg (bne_iff_ne.mp (List.mem_filter.mp hmem).2)]
    simp only [view, View.remove]
    rw [h.members_kill, map_view_congr hstay, List.filter_map, List.filter_congr htest]
    rfl
  exact View.ext (w.nextWho_kill id) (w.output_kill id) (funext hmembers)

theorem view_write (hnumbered : w.Numbered) (hget : w.get? id = some agent)
    (f : Bindings Value → Bindings Value) :
    (w.write id f).view = w.view.assign agent.who (f agent.vars).get? := by
  have hmembers (name : String) :
      (w.write id f).view.members name
        = (w.view.assign agent.who (f agent.vars).get?).members name := by
    simp only [view, View.assign, List.map_map]
    refine List.map_congr_left fun member _ => ?_
    rw [get?_write, Function.comp]
    by_cases heq : member = id
    · rw [if_pos heq, heq, hget]
      simp [Agent.view]
    · rw [if_neg heq]
      cases hother : w.get? member with
      | none => rfl
      | some other =>
        have hwho : other.who ≠ agent.who := fun hwho =>
          heq (hnumbered.eq_of_who_eq hother hget hwho)
        simp [Agent.view, hwho]
  exact View.ext rfl rfl (funext hmembers)

theorem view_print (w : World) (line : String) : (w.print line).view = w.view.print line := rfl

/-! ## Worlds that look the same -/

/-- **Two worlds look the same**, and are such as worlds with a history are. -/
structure Alike (w v : World) : Prop where
  view_eq : w.view = v.view
  anonymous : w.view.Anonymous
  indexed : w.Indexed ∧ v.Indexed
  numbered : w.Numbered ∧ v.Numbered

/-- **Two ids name agents that look the same**, each in its own world. -/
def Twins (w v : World) (a b : AgentId) : Prop :=
  ∃ first second, w.get? a = some first ∧ v.get? b = some second ∧ first.view = second.view

theorem Twins.symm (h : w.Twins v a b) : v.Twins w b a := by
  obtain ⟨first, second, hfirst, hsecond, hview⟩ := h
  exact ⟨second, first, hsecond, hfirst, hview.symm⟩

namespace Alike

theorem symm (h : w.Alike v) : v.Alike w :=
  ⟨h.view_eq.symm, h.view_eq ▸ h.anonymous, h.indexed.symm, h.numbered.symm⟩

/-- Worlds with a history look the same if their views agree. -/
theorem of_after {first second : List Change}
    (hview : (World.empty.after first).view = (World.empty.after second).view)
    (hanonymous : (World.empty.after first).view.Anonymous) :
    (World.empty.after first).Alike (World.empty.after second) :=
  ⟨hview, hanonymous, ⟨Indexed.empty.after first, Indexed.empty.after second⟩,
    ⟨Numbered.empty.after .empty first, Numbered.empty.after .empty second⟩⟩

theorem length_members_eq (h : w.Alike v) (breed : String) :
    (w.members breed).length = (v.members breed).length := by
  have hlength := congrArg (fun view => (View.members view breed).length) h.view_eq
  simpa only [view, List.length_map] using hlength

/-- Variables of living agents hold no ids. -/
theorem anonymous_of_get? (h : w.Alike v) (hget : w.get? id = some agent) {name : String}
    {value : Value} (hvalue : agent.vars.get? name = some value) : value.anonymous = true := by
  refine h.anonymous agent.breed agent.view name value ?_ hvalue
  exact List.mem_map.mpr ⟨id, h.indexed.1.mem_members_iff.mpr ⟨agent, hget, rfl⟩, by rw [hget]; rfl⟩

/-- **Everybody has a twin.** -/
theorem exists_twin (h : w.Alike v) (hget : w.get? a = some agent) : ∃ b, w.Twins v a b := by
  have hmem : some agent.view ∈ w.view.members agent.breed :=
    List.mem_map.mpr ⟨a, h.indexed.1.mem_members_iff.mpr ⟨agent, hget, rfl⟩, by rw [hget]; rfl⟩
  rw [h.view_eq] at hmem
  obtain ⟨b, -, hb⟩ := List.mem_map.mp hmem
  obtain ⟨other, hother, hview⟩ := Option.map_eq_some_iff.mp hb
  exact ⟨b, agent, other, hget, hother, hview.symm⟩

/-- **The members of a breed are twins**, one by one. -/
theorem exists_pairs (h : w.Alike v) (breed : String) :
    ∃ pairs : List (AgentId × AgentId), w.members breed = pairs.map Prod.fst
      ∧ v.members breed = pairs.map Prod.snd ∧ ∀ p ∈ pairs, w.Twins v p.1 p.2 := by
  have hlength := h.length_members_eq breed
  have hlook : List.Forall₂ (fun a b => (w.get? a).map Agent.view = (v.get? b).map Agent.view)
      (w.members breed) (v.members breed) := by
    have hview := congrArg (fun view => View.members view breed) h.view_eq
    have hall := List.forall₂_eq_eq_eq.symm ▸ hview
    exact List.forall₂_map_right_iff.mp (List.forall₂_map_left_iff.mp hall)
  refine ⟨(w.members breed).zip (v.members breed), (List.map_fst_zip (Nat.le_of_eq hlength)).symm,
    (List.map_snd_zip (Nat.le_of_eq hlength.symm)).symm, fun p hp => ?_⟩
  have hlike := (List.forall₂_iff_zip.mp hlook).2 hp
  obtain ⟨first, hfirst⟩ :=
    isAlive_iff.mp (h.indexed.1.isAlive_of_mem_members (List.of_mem_zip hp).1)
  rw [hfirst] at hlike
  obtain ⟨second, hsecond, hview⟩ := Option.map_eq_some_iff.mp hlike.symm
  exact ⟨first, second, hfirst, hsecond, hview.symm⟩

/-- **Agents with one number are twins.** -/
theorem twins_of_who_eq (h : w.Alike v) {first second : Agent} (hfirst : w.get? a = some first)
    (hsecond : v.get? b = some second) (hwho : first.who = second.who) : w.Twins v a b := by
  obtain ⟨c, found, twin, hfound, htwin, hview⟩ := h.exists_twin hfirst
  cases hfirst.symm.trans hfound
  have hsame : twin.who = second.who := (congrArg AgentView.who hview).symm.trans hwho
  cases h.numbered.2.eq_of_who_eq htwin hsecond hsame
  exact ⟨first, twin, hfirst, htwin, hview⟩

/-- Nobody has two twins. -/
theorem eq_iff_eq (h : w.Alike v) {c d : AgentId} (hab : w.Twins v a b) (hcd : w.Twins v c d) :
    a = c ↔ b = d := by
  obtain ⟨first, second, hfirst, hsecond, hview⟩ := hab
  obtain ⟨first', second', hfirst', hsecond', hview'⟩ := hcd
  have hwho := congrArg AgentView.who hview
  have hwho' := congrArg AgentView.who hview'
  constructor
  · rintro rfl
    cases hfirst.symm.trans hfirst'
    exact h.numbered.2.eq_of_who_eq hsecond hsecond' (hwho.symm.trans hwho')
  · rintro rfl
    cases hsecond.symm.trans hsecond'
    exact h.numbered.1.eq_of_who_eq hfirst hfirst' (hwho.trans hwho'.symm)

/-- **To look for a number is to find twins, or nobody in either world.** -/
theorem findByWho_cases (h : w.Alike v) (who : Nat) :
    (w.findByWho who = none ∧ v.findByWho who = none)
      ∨ ∃ a b, w.findByWho who = some a ∧ v.findByWho who = some b ∧ w.Twins v a b := by
  have hfinds {w v : World} (h : w.Alike v) {a : AgentId} (hfind : w.findByWho who = some a) :
      ∃ b, v.findByWho who = some b ∧ w.Twins v a b := by
    obtain ⟨agent, hget, hwho⟩ := h.numbered.1.findByWho_eq_some_iff.mp hfind
    obtain ⟨b, found, twin, hfound, htwin, hview⟩ := h.exists_twin hget
    cases hget.symm.trans hfound
    exact ⟨b, h.numbered.2.findByWho_eq_some_iff.mpr
      ⟨twin, htwin, (congrArg AgentView.who hview).symm.trans hwho⟩,
      agent, twin, hget, htwin, hview⟩
  cases hfirst : w.findByWho who with
  | some a =>
    obtain ⟨b, hb, htwins⟩ := hfinds h hfirst
    exact .inr ⟨a, b, rfl, hb, htwins⟩
  | none =>
    cases hsecond : v.findByWho who with
    | none => exact .inl ⟨rfl, rfl⟩
    | some b =>
      obtain ⟨a, ha, -⟩ := hfinds h.symm hsecond
      cases hfirst.symm.trans ha

/-! ## The same change in both worlds -/

theorem create (h : w.Alike v) (kind : Kind) (breed : String) :
    (w.create kind breed).2.Alike (v.create kind breed).2 where
  view_eq := by rw [view_create h.indexed.1, view_create h.indexed.2, h.view_eq]
  anonymous := by rw [view_create h.indexed.1]; exact h.anonymous.create kind breed
  indexed := ⟨h.indexed.1.create kind breed, h.indexed.2.create kind breed⟩
  numbered :=
    ⟨h.numbered.1.create h.indexed.1 kind breed, h.numbered.2.create h.indexed.2 kind breed⟩

theorem kill (h : w.Alike v) (htwins : w.Twins v a b) : (w.kill a).Alike (v.kill b) := by
  obtain ⟨first, second, hfirst, hsecond, hview⟩ := htwins
  have hkill := view_kill h.indexed.1 h.numbered.1 hfirst
  refine ⟨?_, ?_, ⟨h.indexed.1.kill a, h.indexed.2.kill b⟩,
    ⟨h.numbered.1.kill a, h.numbered.2.kill b⟩⟩
  · rw [hkill, view_kill h.indexed.2 h.numbered.2 hsecond, h.view_eq,
      show first.who = second.who from congrArg AgentView.who hview]
  · rw [hkill]
    exact h.anonymous.remove first.who

/-- What is written into the variables of twins has to look the same, and may hold no ids. -/
theorem write (h : w.Alike v) {first second : Agent} (hfirst : w.get? a = some first)
    (hsecond : v.get? b = some second) (hwho : first.who = second.who)
    {f g : Bindings Value → Bindings Value}
    (hvars : (f first.vars).get? = (g second.vars).get?)
    (hanonymous : ∀ name value, (f first.vars).get? name = some value → value.anonymous = true) :
    (w.write a f).Alike (v.write b g) := by
  have hwrite := view_write h.numbered.1 hfirst f
  refine ⟨?_, ?_, ⟨h.indexed.1.write a f, h.indexed.2.write b g⟩,
    ⟨h.numbered.1.write a f, h.numbered.2.write b g⟩⟩
  · rw [hwrite, view_write h.numbered.2 hsecond g, h.view_eq, hwho, hvars]
  · rw [hwrite]
    exact h.anonymous.assign first.who hanonymous

/-- Twins are given a variable. -/
theorem insert (h : w.Alike v) (htwins : w.Twins v a b) (name : String) {value : Value}
    (hvalue : value.anonymous = true) :
    (w.write a fun vars => vars.insert name value).Alike
      (v.write b fun vars => vars.insert name value) := by
  obtain ⟨first, second, hfirst, hsecond, hview⟩ := htwins
  have hvars : first.vars.get? = second.vars.get? := congrArg AgentView.vars hview
  refine h.write hfirst hsecond (congrArg AgentView.who hview) (funext fun key => ?_) ?_
  · rw [Bindings.get?_insert, Bindings.get?_insert, hvars]
  · intro key held hheld
    rw [Bindings.get?_insert] at hheld
    split at hheld
    · cases hheld
      exact hvalue
    · exact h.anonymous_of_get? hfirst hheld

/-- Twins have children, who take after them. -/
theorem hatch (h : w.Alike v) {first second : Agent} (hfirst : w.get? a = some first)
    (hview : first.view = second.view) (kind : Kind) (breed : String) :
    ((w.create kind breed).2.write (w.create kind breed).1 fun _ => first.vars).Alike
      ((v.create kind breed).2.write (v.create kind breed).1 fun _ => second.vars) :=
  (h.create kind breed).write (get?_create_fst w kind breed) (get?_create_fst v kind breed)
    (congrArg View.nextWho h.view_eq) (congrArg AgentView.vars hview)
    fun _ _ hvalue => h.anonymous_of_get? hfirst hvalue

theorem print (h : w.Alike v) (line : String) : (w.print line).Alike (v.print line) :=
  ⟨by rw [view_print, view_print, h.view_eq], h.anonymous,
    ⟨h.indexed.1.apply (.print line), h.indexed.2.apply (.print line)⟩,
    ⟨h.numbered.1.apply h.indexed.1 (.print line), h.numbered.2.apply h.indexed.2 (.print line)⟩⟩

end Alike

/-! ## Twins stay together -/

/-- Twins outlive all changes but their deaths, and remain twins if the worlds look the same
afterwards. -/
theorem Twins.apply (h : w.Twins v a b) (change other : Change)
    (hlater : (w.apply change).Alike (v.apply other)) (hchange : change ≠ .kill a)
    (hother : other ≠ .kill b) : (w.apply change).Twins (v.apply other) a b := by
  obtain ⟨first, second, hfirst, hsecond, hview⟩ := h
  obtain ⟨now, hnow, hsame⟩ := same_apply hfirst hchange
  obtain ⟨now', hnow', hsame'⟩ := same_apply hsecond hother
  refine hlater.twins_of_who_eq hnow hnow' ?_
  rw [hsame.who_eq, hsame'.who_eq]
  exact congrArg AgentView.who hview

/-- **If one of two twins is alive after a history, they are twins still**, as long as the worlds
look the same and its slot has not been killed too often. -/
theorem Alike.twins_after (h : w.Alike v) (htwins : w.Twins v a b) {first second : List Change}
    (hlater : (w.after first).Alike (v.after second))
    (hkills : w.kills a.slot first < AgentId.generations)
    (halive : (w.after first).isAlive a = true) : (w.after first).Twins (v.after second) a b := by
  obtain ⟨agent, other, hget, hother, hview⟩ := htwins
  obtain ⟨now, hnow, hsame⟩ := same_after hget hkills halive
  obtain ⟨c, found, twin, hfound, htwin, hlook⟩ := hlater.exists_twin hnow
  cases hnow.symm.trans hfound
  -- the twin of today has the number that the twin had at the beginning
  have hwho : twin.who = other.who :=
    (congrArg AgentView.who hlook).symm.trans (hsame.who_eq.trans (congrArg AgentView.who hview))
  obtain ⟨before, hbefore, hsame'⟩ :=
    same_of_who_lt htwin (hwho ▸ h.indexed.2.who_lt_nextWho hother)
  cases h.numbered.2.eq_of_who_eq hbefore hother (hsame'.who_eq.symm.trans hwho)
  exact ⟨now, twin, hnow, htwin, hlook⟩

/-- **An agent is alive if and only if its twin is**, as long as the worlds look the same. -/
theorem Alike.isAlive_after_eq (h : w.Alike v) (htwins : w.Twins v a b)
    {first second : List Change} (hlater : (w.after first).Alike (v.after second))
    (hfirst : w.kills a.slot first < AgentId.generations)
    (hsecond : v.kills b.slot second < AgentId.generations) :
    (w.after first).isAlive a = (v.after second).isAlive b := by
  have hlives {w v : World} {a b : AgentId} {first second : List Change}
      (h : (w.after first).Twins (v.after second) a b) : (v.after second).isAlive b = true := by
    obtain ⟨-, twin, -, htwin, -⟩ := h
    exact isAlive_iff.mpr ⟨twin, htwin⟩
  rw [Bool.eq_iff_iff]
  exact ⟨fun halive => hlives (h.twins_after htwins hlater hfirst halive),
    fun halive => hlives (h.symm.twins_after htwins.symm hlater.symm hsecond halive)⟩

end World

end AgentSweep
