import AgentSweep.Proofs.Machine.Addresses
import AgentSweep.Proofs.Machine.Simulation
import AgentSweep.Proofs.World.History

/-!
# Local code

Code is *local* if it minds its own agent. It prints, it sets variables, it calls commands that are
local themselves, and it computes with constants, with the variables and the number of the agent,
and with the sizes of sets. It makes nobody and kills nobody, and it draws no random numbers.

Such code reads the record of its agent and the outline of the world: who is there, of which kinds,
breeds and numbers. The outline also tells how values are shown, those that name other agents
included. What the code does to the world is an *imprint* (`World.Imprint`): the agent gets other
variables, and some lines are printed. Neither the outline nor anybody else changes, and in two
worlds with one outline in which the agent has the same record, the code comes to the same verdict
and leaves the same imprint (`Procedure.executeFrom_concur`, `Context.run_concur`).
-/

namespace AgentSweep

/-- Whether an expression draws no random number. -/
def Expr.isLocal : Expr → Bool
  | .random _ => false
  | _ => true

mutual

/-- **Whether a procedure is local**, in whatever it calls included. -/
def Procedure.isLocal : Procedure → Bool
  | ⟨_, _, _, code⟩ => Instruction.isLocalAll code

/-- Whether an instruction is local. -/
def Instruction.isLocal : Instruction → Bool
  | .noop => true
  | .print e => e.isLocal
  | .set _ e => e.isLocal
  | .call callee => callee.role == .command && callee.isLocal
  | .leave => true
  | .done => true
  | .fail _ => true
  | _ => false

/-- Whether all instructions of a body are local. -/
def Instruction.isLocalAll : List Instruction → Bool
  | [] => true
  | i :: is => i.isLocal && Instruction.isLocalAll is

end

theorem Procedure.isLocalAll_code {p : Procedure} (h : p.isLocal = true) :
    Instruction.isLocalAll p.code = true := by
  cases p
  exact h

theorem Instruction.isLocalAll_drop {code : List Instruction} (h : isLocalAll code = true)
    (address : Nat) : isLocalAll (code.drop address) = true := by
  induction address generalizing code with
  | zero => exact h
  | succ address ih =>
    cases code with
    | nil => rfl
    | cons i later => exact ih (Bool.and_eq_true_iff.mp h).2

/-! ## Outlines -/

/-- An agent without its variables. -/
def Agent.outline (agent : Agent) : Agent := { agent with vars := .empty }

namespace World

variable {u v w : World} {a id : AgentId} {agent : Agent}

/-- **Two worlds differ in the variables of agents at most**, and in what has been printed. -/
structure SameOutline (w v : World) : Prop where
  outline_eq : ∀ id, (w.get? id).map Agent.outline = (v.get? id).map Agent.outline
  breeds_eq : w.breeds = v.breeds

namespace SameOutline

theorem refl (w : World) : w.SameOutline w := ⟨fun _ => rfl, rfl⟩

theorem symm (h : w.SameOutline v) : v.SameOutline w :=
  ⟨fun id => (h.outline_eq id).symm, h.breeds_eq.symm⟩

theorem trans (h : w.SameOutline u) (h' : u.SameOutline v) : w.SameOutline v :=
  ⟨fun id => (h.outline_eq id).trans (h'.outline_eq id), h.breeds_eq.trans h'.breeds_eq⟩

theorem isAlive_eq (h : w.SameOutline v) : w.isAlive = v.isAlive := by
  funext id
  show (w.get? id).isSome = (v.get? id).isSome
  rw [← Option.isSome_map (f := Agent.outline), h.outline_eq, Option.isSome_map]

theorem title_eq (h : w.SameOutline v) : w.title = v.title := by
  funext id
  have houtline := h.outline_eq id
  unfold title
  cases hw : w.get? id with
  | none =>
    rw [hw] at houtline
    rw [Option.map_eq_none_iff.mp houtline.symm]
  | some first =>
    rw [hw] at houtline
    obtain ⟨second, hv, hsame⟩ := Option.map_eq_some_iff.mp houtline.symm
    rw [hv]
    show first.outline.title = second.outline.title
    rw [hsame]

theorem count_eq (h : w.SameOutline v) (set : AgentSet) : set.count w = set.count v := by
  cases set with
  | breed kind name =>
    show (w.members name).length = (v.members name).length
    rw [members, h.breeds_eq, members]
  | fixed kind ids =>
    show ids.countP w.isAlive = ids.countP v.isAlive
    rw [h.isAlive_eq]

end SameOutline

end World

namespace Value

variable {w v : World}

mutual

/-- **Worlds with one outline show all values alike.** -/
theorem render_eq_of_sameOutline (h : w.SameOutline v) :
    ∀ value : Value, value.render w = value.render v
  | nobody => rfl
  | number _ => rfl
  | boolean _ => rfl
  | text _ => rfl
  | agent _ => by rw [render, render, h.title_eq]
  | agentset set => by rw [render, render, h.count_eq set]
  | list items => by rw [render, render, renderAll_eq_of_sameOutline h items]

theorem renderAll_eq_of_sameOutline (h : w.SameOutline v) :
    ∀ items : List Value, renderAll w items = renderAll v items
  | [] => rfl
  | item :: items => by
    rw [renderAll, renderAll, render_eq_of_sameOutline h item, renderAll_eq_of_sameOutline h items]

end

end Value

/-! ## Imprints -/

namespace World

variable {u v w : World} {a id : AgentId} {agent : Agent} {vars : Bindings Value}
  {lines : List String}

/-- **What local code does to a world**: its agent gets some variables, and some lines are
printed. -/
structure Imprint (a : AgentId) (vars : Bindings Value) (lines : List String) (w v : World) :
    Prop where
  get?_eq : ∀ id, v.get? id
    = if id = a then (w.get? a).map fun agent => { agent with vars } else w.get? id
  breeds_eq : v.breeds = w.breeds
  nextWho_eq : v.nextWho = w.nextWho
  output_eq : v.output.toList = w.output.toList ++ lines

namespace Imprint

/-- Nothing is an imprint, too. -/
theorem refl (h : w.get? a = some agent) : Imprint a agent.vars [] w w := by
  refine ⟨fun id => ?_, rfl, rfl, (List.append_nil _).symm⟩
  split
  · next heq => rw [heq, h]; rfl
  · rfl

theorem of_dead (h : w.get? a = none) (vars : Bindings Value) : Imprint a vars [] w w := by
  refine ⟨fun id => ?_, rfl, rfl, (List.append_nil _).symm⟩
  split
  · next heq => rw [heq, h]; rfl
  · rfl

theorem print (h : w.get? a = some agent) (line : String) :
    Imprint a agent.vars [line] w (w.print line) :=
  { refl h with output_eq := Array.toList_push }

theorem set (h : w.get? a = some agent) (name : String) (value : Value) :
    Imprint a (agent.vars.insert name value) [] w (w.setVar a name value) := by
  refine ⟨fun id => ?_, rfl, rfl, (List.append_nil _).symm⟩
  rw [setVar, get?_modify, h]
  rfl

/-- One imprint after another is an imprint. -/
theorem trans {vars' : Bindings Value} {lines' : List String} (h : Imprint a vars lines w u)
    (h' : Imprint a vars' lines' u v) : Imprint a vars' (lines ++ lines') w v := by
  refine ⟨fun id => ?_, h'.breeds_eq.trans h.breeds_eq, h'.nextWho_eq.trans h.nextWho_eq, ?_⟩
  · rw [h'.get?_eq, h.get?_eq, if_pos rfl, Option.map_map]
    split
    · rfl
    · next hne => rw [h.get?_eq, if_neg hne]
  · rw [h'.output_eq, h.output_eq, List.append_assoc]

theorem get?_self (h : Imprint a vars lines w v) (hget : w.get? a = some agent) :
    v.get? a = some { agent with vars } := by
  rw [h.get?_eq, if_pos rfl, hget]
  rfl

theorem get?_of_ne (h : Imprint a vars lines w v) (hne : id ≠ a) : v.get? id = w.get? id := by
  rw [h.get?_eq, if_neg hne]

theorem sameOutline (h : Imprint a vars lines w v) : w.SameOutline v := by
  refine ⟨fun id => ?_, h.breeds_eq.symm⟩
  rw [h.get?_eq]
  split
  · next heq =>
    rw [heq, Option.map_map]
    rfl
  · rfl

end Imprint

/-- **Two worlds are the same to an agent**: it has the same record in both, and they have one
outline. -/
structure SameFor (a : AgentId) (agent : Agent) (w v : World) : Prop where
  fst_get? : w.get? a = some agent
  snd_get? : v.get? a = some agent
  outline : w.SameOutline v

theorem SameFor.imprint {w' v' : World} (h : SameFor a agent w v) (hw : Imprint a vars lines w w')
    (hv : Imprint a vars lines v v') : SameFor a { agent with vars } w' v' :=
  ⟨hw.get?_self h.fst_get?, hv.get?_self h.snd_get?,
    hw.sameOutline.symm.trans (h.outline.trans hv.sameOutline)⟩

end World

/-! ## What local code comes to -/

section

variable {a : AgentId} {tag : KindMask} {agent : Agent} {s t : Stage}

/-- **Two results of code concur**: the verdicts are the same, and so are the imprints on the stages
on which the code began. -/
structure Stage.Concur {V : Type} (a : AgentId) (s t : Stage) (x y : V × Stage) : Prop where
  verdict_eq : x.1 = y.1
  imprint : ∃ vars lines, World.Imprint a vars lines s.world x.2.world
    ∧ World.Imprint a vars lines t.world y.2.world

open Stage (Concur)

theorem Stage.Concur.of_unchanged {V : Type} {verdict : V} {x y : Stage}
    (h : World.SameFor a agent s.world t.world) (hx : x.world = s.world)
    (hy : y.world = t.world) : Concur a s t (verdict, x) (verdict, y) := by
  refine ⟨rfl, agent.vars, [], ?_, ?_⟩
  · show World.Imprint a agent.vars [] s.world x.world
    rw [hx]
    exact .refl h.fst_get?
  · show World.Imprint a agent.vars [] t.world y.world
    rw [hy]
    exact .refl h.snd_get?

/-- A local expression has the same value in worlds that are the same to the agent. -/
theorem Expr.fst_value_eq (h : World.SameFor a agent s.world t.world) {e : Expr}
    (he : e.isLocal = true) : (e.value a tag s).1 = (e.value a tag t).1 := by
  cases e with
  | constant value => rfl
  | own name =>
    rw [value, value, h.fst_get?, h.snd_get?]
    dsimp only
    cases agent.vars.get? name <;> rfl
  | who =>
    rw [value, value, h.fst_get?, h.snd_get?]
  | random bound => cases he
  | count set =>
    show Except.ok _ = Except.ok _
    rw [h.outline.count_eq]

/-- To compute a local expression is to fail in the same way, or to get the same value. -/
theorem Expr.value_cases (h : World.SameFor a agent s.world t.world) {e : Expr}
    (he : e.isLocal = true) :
    (∃ fault first second, e.value a tag s = (.error fault, first)
        ∧ e.value a tag t = (.error fault, second))
      ∨ ∃ value first second, e.value a tag s = (.ok value, first)
        ∧ e.value a tag t = (.ok value, second) := by
  have hvalue : (e.value a tag s).1 = (e.value a tag t).1 := Expr.fst_value_eq h he
  cases hs : e.value a tag s with
  | mk result first =>
    cases ht : e.value a tag t with
    | mk other second =>
      rw [hs, ht] at hvalue
      cases hvalue
      cases result with
      | error fault => exact .inl ⟨fault, first, second, rfl, rfl⟩
      | ok value => exact .inr ⟨value, first, second, rfl, rfl⟩

/-- **A local instruction that calls nothing leaves the same imprint** in worlds that are the same
to the agent. -/
theorem Instruction.execute_concur_of_plain (h : World.SameFor a agent s.world t.world)
    {i : Instruction} (hi : i.isLocal = true) (hcall : ∀ callee, i ≠ .call callee) :
    Concur a s t (i.execute a tag s) (i.execute a tag t) := by
  cases i with
  | print e =>
    rw [execute, execute]
    rcases Expr.value_cases h hi with
      ⟨fault, first, second, hs, ht⟩ | ⟨value, first, second, hs, ht⟩
    · rw [hs, ht]
      exact .of_unchanged h rfl rfl
    · rw [hs, ht]
      dsimp only
      refine ⟨rfl, agent.vars, [value.render s.world], .print h.fst_get? _, ?_⟩
      rw [Value.render_eq_of_sameOutline h.outline]
      exact .print h.snd_get? _
  | set name e =>
    rw [execute, execute]
    rcases Expr.value_cases h hi with
      ⟨fault, first, second, hs, ht⟩ | ⟨value, first, second, hs, ht⟩
    · rw [hs, ht]
      exact .of_unchanged h rfl rfl
    · rw [hs, ht]
      dsimp only
      rw [if_pos (World.isAlive_iff.mpr ⟨agent, h.fst_get?⟩),
        if_pos (World.isAlive_iff.mpr ⟨agent, h.snd_get?⟩)]
      exact ⟨rfl, _, [], .set h.fst_get? name value, .set h.snd_get? name value⟩
  | call callee => exact absurd rfl (hcall callee)
  | noop | leave | done | fail => exact .of_unchanged h rfl rfl
  | hatch | die | killWho | report => cases hi

/-- If what a procedure does concurs, so does a call of it. -/
theorem Stage.Concur.call {callee : Procedure} (hrole : callee.role = .command)
    (h : Concur a s t (callee.execute a tag s) (callee.execute a tag t)) :
    Concur a s t ((Instruction.call callee).execute a tag s)
      ((Instruction.call callee).execute a tag t) := by
  rw [Instruction.execute, Instruction.execute, hrole]
  dsimp only
  generalize callee.execute a tag s = x at h ⊢
  generalize callee.execute a tag t = y at h ⊢
  obtain ⟨verdict, first⟩ := x
  obtain ⟨other, second⟩ := y
  obtain ⟨hverdict, himprint⟩ := h
  cases (show verdict = other from hverdict)
  cases verdict <;> exact ⟨rfl, himprint⟩

/-- If what an instruction does concurs, and so does what the later ones do then, the body does. -/
theorem Stage.Concur.cons {i : Instruction} {later : List Instruction}
    (hworlds : World.SameFor a agent s.world t.world)
    (h : Concur a s t (i.execute a tag s) (i.execute a tag t))
    (hlater : ∀ {now : Agent} {s t : Stage}, World.SameFor a now s.world t.world →
      Concur a s t (Instruction.executeAll a tag later s)
        (Instruction.executeAll a tag later t)) :
    Concur a s t (Instruction.executeAll a tag (i :: later) s)
      (Instruction.executeAll a tag (i :: later) t) := by
  rw [Instruction.executeAll, Instruction.executeAll]
  generalize i.execute a tag s = x at h ⊢
  generalize i.execute a tag t = y at h ⊢
  obtain ⟨verdict, first⟩ := x
  obtain ⟨other, second⟩ := y
  obtain ⟨hverdict, vars, lines, hs, ht⟩ := h
  cases (show verdict = other from hverdict)
  cases verdict with
  | some verdict => exact ⟨rfl, vars, lines, hs, ht⟩
  | none =>
    -- the agent has the same record again, with the variables of the imprint
    obtain ⟨hverdicts, vars', lines', hs', ht'⟩ := hlater (hworlds.imprint hs ht)
    exact ⟨hverdicts, vars', lines ++ lines', hs.trans hs', ht.trans ht'⟩

/-- If what a body does concurs, so does the procedure, whether the tag may run it or not. -/
theorem Procedure.executeFrom_concur_of_body (h : World.SameFor a agent s.world t.world)
    (p : Procedure) (address : Nat)
    (hbody : Concur a s t (Instruction.executeAll a tag (p.code.drop address) s)
      (Instruction.executeAll a tag (p.code.drop address) t)) :
    Concur a s t (p.executeFrom a tag address s) (p.executeFrom a tag address t) := by
  rw [executeFrom, executeFrom]
  split
  · exact hbody
  · exact .of_unchanged h rfl rfl

/-- **A local body leaves the same imprint** in worlds that are the same to the agent. -/
theorem Instruction.executeAll_concur (code : List Instruction) {agent : Agent} {s t : Stage}
    (hcode : isLocalAll code = true) (h : World.SameFor a agent s.world t.world) :
    Concur a s t (executeAll a tag code s) (executeAll a tag code t) := by
  match code with
  | [] =>
    rw [executeAll, executeAll]
    exact .of_unchanged h rfl rfl
  | i :: later =>
    obtain ⟨hi, hrest⟩ := Bool.and_eq_true_iff.mp hcode
    have hlater {now : Agent} {s t : Stage} (h : World.SameFor a now s.world t.world) :
        Concur a s t (executeAll a tag later s) (executeAll a tag later t) :=
      executeAll_concur later hrest h
    refine .cons h ?_ hlater
    by_cases hcall : ∃ callee, i = .call callee
    · obtain ⟨callee, rfl⟩ := hcall
      obtain ⟨hrole, hcallee⟩ := Bool.and_eq_true_iff.mp hi
      refine .call (eq_of_beq hrole) ?_
      rw [Procedure.execute_eq, Procedure.execute_eq]
      refine Procedure.executeFrom_concur_of_body h callee 0 ?_
      exact executeAll_concur callee.code (Procedure.isLocalAll_code hcallee) h
    · exact execute_concur_of_plain h hi fun callee heq => hcall ⟨callee, heq⟩
termination_by costs code
decreasing_by
  · exact costs_lt_costs_cons i later
  · rw [‹i = .call callee›]
    exact costs_code_lt_costs_call callee later

/-- **A local procedure leaves the same imprint** in worlds that are the same to the agent, from any
address on. -/
theorem Procedure.executeFrom_concur {p : Procedure} (hp : p.isLocal = true)
    (h : World.SameFor a agent s.world t.world) (address : Nat) :
    Concur a s t (p.executeFrom a tag address s) (p.executeFrom a tag address t) :=
  executeFrom_concur_of_body h p address <| Instruction.executeAll_concur _
    (Instruction.isLocalAll_drop (isLocalAll_code hp) address) h

end

/-! ## Runs of local code -/

namespace Context

variable {a : AgentId} {agent : Agent} {c d : Context} {s t : Scene} {frame : Frame}

/-- **Two runs concur**: they come to the same result and leave the same imprint. -/
structure RunsConcur (a : AgentId) (s t : Scene) (first second : Course Unit) : Prop where
  result_eq : first.result = second.result
  imprint : ∃ vars lines, World.Imprint a vars lines s.world first.scene.world
    ∧ World.Imprint a vars lines t.world second.scene.world

/-- A context that begins within a command comes to what the command means from there on. -/
theorem comesTo_reset (c : Context) (s : Scene) (a : AgentId) {frame : Frame} {address : Nat}
    (hrole : frame.procedure.role = .command) (haddress : address ≤ frame.procedure.size) :
    (c.reset a frame address).ComesTo s
      (frame.procedure.executeFrom a c.tag address s.stage) := by
  have hframe : (c.reset a frame address).frame = some frame := rfl
  exact .of_body hframe fun htag => comesTo_executeAll _ rfl hframe hrole htag haddress rfl

/-- **The runs of a local command concur** in worlds that are the same to the agent, whatever the
address at which they begin. -/
theorem run_concur {f g : Frame} (hfg : f.procedure = g.procedure)
    (hrole : f.procedure.role = .command) (hlocal : f.procedure.isLocal = true)
    (htag : c.tag = d.tag) (h : World.SameFor a agent s.world t.world) (address : Nat) :
    RunsConcur a s t ((c.reset a f address).run s) ((d.reset a g address).run t) := by
  rcases Nat.lt_or_ge f.procedure.size address with hlt | hle
  · obtain ⟨hresult, -, hscene⟩ := run_of_size_lt (c := c.reset a f address) (s := s) rfl hlt rfl
    obtain ⟨hresult', -, hscene'⟩ :=
      run_of_size_lt (c := d.reset a g address) (s := t) rfl (hfg ▸ hlt) rfl
    refine ⟨?_, agent.vars, [], ?_, ?_⟩
    · have hreset : (c.reset a f address).tag = (d.reset a g address).tag := htag
      rw [hresult, hresult', hreset, hfg]
      rfl
    · rw [hscene]
      exact .refl h.fst_get?
    · rw [hscene']
      exact .refl h.snd_get?
  · obtain ⟨hresult, hstage⟩ := run_of_comesTo rfl rfl (c.comesTo_reset s a hrole hle)
    obtain ⟨hresult', hstage'⟩ := run_of_comesTo rfl rfl
      (d.comesTo_reset t a (hfg ▸ hrole) (hfg ▸ hle))
    have hconcur : Stage.Concur a s.stage t.stage
        (f.procedure.executeFrom a c.tag address s.stage)
        (g.procedure.executeFrom a d.tag address t.stage) := by
      rw [← htag, ← hfg]
      exact Procedure.executeFrom_concur hlocal h address
    obtain ⟨hverdict, vars, lines, hs, ht⟩ := hconcur
    refine ⟨hresult.trans ((congrArg Verdict.result hverdict).trans hresult'.symm), vars, lines,
      ?_, ?_⟩
    · rw [show ((c.reset a f address).run s).scene.world = _ from congrArg Stage.world hstage]
      exact hs
    · rw [show ((d.reset a g address).run t).scene.world = _ from congrArg Stage.world hstage']
      exact ht

end Context

end AgentSweep
