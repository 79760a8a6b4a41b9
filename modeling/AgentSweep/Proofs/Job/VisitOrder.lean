import AgentSweep.Proofs.Job.FreshContext
import AgentSweep.Proofs.Job.Visits
import AgentSweep.Proofs.Machine.LocalCode

/-!
# The order of visits

In which order a run takes the entries of its snapshot is a matter of chance. For local code it does
not matter. A visit leaves an imprint on the world, and the imprint depends on the record of the
agent and on the outline of the world, which no visit to another agent changes. So two visits can
change places (`Job.visit_comm`), and with them any two orders of the same entries, duplicates
included (`rel_foldlM_of_perm`). Runs of the same job from the same world either all fail or all
come to the same result. They leave the same agents and the same breeds, and what they have printed
is the same up to the order of the lines (`Job.run_order`).
-/

namespace AgentSweep

/-! ## Worlds up to the order of lines -/

namespace World

variable {u v w : World} {a b : AgentId} {agent : Agent} {vars : Bindings Value}
  {lines : List String}

/-- **Two worlds differ in the order of the printed lines at most.** -/
structure Reordered (w v : World) : Prop where
  get?_eq : ∀ id, w.get? id = v.get? id
  breeds_eq : w.breeds = v.breeds
  nextWho_eq : w.nextWho = v.nextWho
  output_perm : w.output.toList.Perm v.output.toList

namespace Reordered

theorem refl (w : World) : w.Reordered w := ⟨fun _ => rfl, rfl, rfl, .refl _⟩

theorem trans (h : w.Reordered u) (h' : u.Reordered v) : w.Reordered v :=
  ⟨fun id => (h.get?_eq id).trans (h'.get?_eq id), h.breeds_eq.trans h'.breeds_eq,
    h.nextWho_eq.trans h'.nextWho_eq, h.output_perm.trans h'.output_perm⟩

theorem sameOutline (h : w.Reordered v) : w.SameOutline v :=
  ⟨fun id => by rw [h.get?_eq], h.breeds_eq⟩

/-- The same imprint keeps worlds the same up to the order of lines. -/
theorem imprint {w' v' : World} (h : w.Reordered v) (hw : Imprint a vars lines w w')
    (hv : Imprint a vars lines v v') : w'.Reordered v' := by
  refine ⟨fun id => ?_, ?_, ?_, ?_⟩
  · rw [hw.get?_eq, hv.get?_eq, h.get?_eq, h.get?_eq]
  · rw [hw.breeds_eq, hv.breeds_eq, h.breeds_eq]
  · rw [hw.nextWho_eq, hv.nextWho_eq, h.nextWho_eq]
  · rw [hw.output_eq, hv.output_eq]
    exact h.output_perm.append_right lines

/-- **Imprints of two agents can change places.** -/
theorem imprint_comm {w₁ w₂ v₁ v₂ : World} {vars' : Bindings Value} {lines' : List String}
    (h : w.Reordered v) (hab : a ≠ b) (hw₁ : Imprint a vars lines w w₁)
    (hw₂ : Imprint b vars' lines' w₁ w₂) (hv₁ : Imprint b vars' lines' v v₁)
    (hv₂ : Imprint a vars lines v₁ v₂) : w₂.Reordered v₂ := by
  refine ⟨fun id => ?_, ?_, ?_, ?_⟩
  · rw [hw₂.get?_eq, hv₂.get?_eq, hw₁.get?_of_ne hab.symm, hv₁.get?_of_ne hab, hw₁.get?_eq,
      hv₁.get?_eq, h.get?_eq, h.get?_eq, h.get?_eq]
    split
    · next hb => rw [if_neg (hb.trans_ne hab.symm)]
    · rfl
  · rw [hw₂.breeds_eq, hw₁.breeds_eq, hv₂.breeds_eq, hv₁.breeds_eq, h.breeds_eq]
  · rw [hw₂.nextWho_eq, hw₁.nextWho_eq, hv₂.nextWho_eq, hv₁.nextWho_eq, h.nextWho_eq]
  · rw [hw₂.output_eq, hw₁.output_eq, hv₂.output_eq, hv₁.output_eq, List.append_assoc,
      List.append_assoc]
    exact h.output_perm.append List.perm_append_comm

end Reordered

end World

/-! ## Folds in any order -/

section

variable {α σ : Type} {R : σ → σ → Prop} {f : σ → α → Option σ}

theorem rel_trans (htrans : ∀ s t u, R s t → R t u → R s u) (x y z : Option σ)
    (h : Option.Rel R x y) (h' : Option.Rel R y z) : Option.Rel R x z := by
  cases h with
  | none => exact h'
  | some h =>
    cases h' with
    | some h' => exact .some (htrans _ _ _ h h')

/-- Steps that keep a relation keep it where they may fail. -/
theorem rel_bind {g g' : σ → Option σ} (hg : ∀ {s t}, R s t → Option.Rel R (g s) (g' t))
    {x y : Option σ} (h : Option.Rel R x y) : Option.Rel R (x.bind g) (y.bind g') := by
  cases h with
  | none => exact .none
  | some h => exact hg h

theorem rel_foldlM (hcongr : ∀ a {s t}, R s t → Option.Rel R (f s a) (f t a)) (xs : List α)
    {s t : σ} (hst : R s t) : Option.Rel R (xs.foldlM f s) (xs.foldlM f t) := by
  induction xs generalizing s t with
  | nil => exact .some hst
  | cons a xs ih =>
    rw [List.foldlM_cons, List.foldlM_cons]
    exact rel_bind ih (hcongr a hst)

/-- **A fold does not depend on the order** if no two steps of it do. -/
theorem rel_foldlM_of_perm (hrefl : ∀ s, R s s) (htrans : ∀ s t u, R s t → R t u → R s u)
    (hcongr : ∀ a {s t}, R s t → Option.Rel R (f s a) (f t a))
    (hcomm : ∀ a b {s t}, R s t →
      Option.Rel R ((f s a).bind fun u => f u b) ((f t b).bind fun u => f u a))
    {xs ys : List α} (h : xs.Perm ys) {s t : σ} (hst : R s t) :
    Option.Rel R (xs.foldlM f s) (ys.foldlM f t) := by
  induction h generalizing s t with
  | nil => exact .some hst
  | cons a _ ih =>
    rw [List.foldlM_cons, List.foldlM_cons]
    exact rel_bind ih (hcongr a hst)
  | swap a b xs =>
    simp only [List.foldlM_cons, ← bind_assoc]
    exact rel_bind (rel_foldlM hcongr xs) (hcomm b a hst)
  | trans _ _ ih ih' => exact rel_trans htrans _ _ _ (ih (hrefl s)) (ih' hst)

end

/-! ## Visits -/

/-- How far a run has come in which nobody has failed. -/
structure Headway where
  scene : Scene
  executed : Nat
  skipped : Nat

/-- How far the entries of a snapshot have come, if nobody has failed. -/
def JobCourse.headway? (course : JobCourse (Nat × Nat)) : Option Headway :=
  match course.result with
  | .ok (executed, skipped) => some ⟨course.scene, executed, skipped⟩
  | .error _ => none

namespace Headway

variable {p q p' q' : Headway} {a b : AgentId} {vars vars' : Bindings Value}
  {lines lines' : List String} {e k e' k' : Nat}

/-- **Two headways differ in the order of the printed lines at most.** -/
structure Reordered (p q : Headway) : Prop where
  world : p.scene.world.Reordered q.scene.world
  executed_eq : p.executed = q.executed
  skipped_eq : p.skipped = q.skipped

theorem Reordered.refl (p : Headway) : p.Reordered p := ⟨.refl _, rfl, rfl⟩

theorem Reordered.trans (p q r : Headway) (h : p.Reordered q) (h' : q.Reordered r) :
    p.Reordered r :=
  ⟨h.world.trans h'.world, h.executed_eq.trans h'.executed_eq, h.skipped_eq.trans h'.skipped_eq⟩

/-- **What a visit does to a headway**: it leaves an imprint on the world and is counted. -/
structure Marked (a : AgentId) (vars : Bindings Value) (lines : List String) (e k : Nat)
    (p q : Headway) : Prop where
  world : World.Imprint a vars lines p.scene.world q.scene.world
  executed_eq : q.executed = p.executed + e
  skipped_eq : q.skipped = p.skipped + k

/-- The same marks keep headways the same up to the order of lines. -/
theorem Reordered.marked (h : p.Reordered q) (hp : Marked a vars lines e k p p')
    (hq : Marked a vars lines e k q q') : p'.Reordered q' :=
  ⟨h.world.imprint hp.world hq.world, by rw [hp.executed_eq, hq.executed_eq, h.executed_eq],
    by rw [hp.skipped_eq, hq.skipped_eq, h.skipped_eq]⟩

/-- **Marks of two agents can change places.** -/
theorem Reordered.marked_comm {p₁ p₂ q₁ q₂ : Headway} (h : p.Reordered q) (hab : a ≠ b)
    (hp₁ : Marked a vars lines e k p p₁) (hp₂ : Marked b vars' lines' e' k' p₁ p₂)
    (hq₁ : Marked b vars' lines' e' k' q q₁) (hq₂ : Marked a vars lines e k q₁ q₂) :
    p₂.Reordered q₂ := by
  refine ⟨h.world.imprint_comm hab hp₁.world hp₂.world hq₁.world hq₂.world, ?_, ?_⟩
  · rw [hp₂.executed_eq, hp₁.executed_eq, hq₂.executed_eq, hq₁.executed_eq, h.executed_eq,
      Nat.add_right_comm]
  · rw [hp₂.skipped_eq, hp₁.skipped_eq, hq₂.skipped_eq, hq₁.skipped_eq, h.skipped_eq,
      Nat.add_right_comm]

end Headway

namespace Job

open Headway (Reordered Marked)

variable {job : Job} {entry : Frame} {p q : Headway} {a b : AgentId}

/-- The run of an agent. -/
def errand (job : Job) (entry : Frame) (id : AgentId) (s : Scene) : Course Unit :=
  ((Context.new job.owner none job.set.tag).reset id entry job.address).run s

/-- **What the turn of an entry adds to a headway**, unless the agent fails. -/
def visit (job : Job) (entry : Frame) (p : Headway) (id : AgentId) : Option Headway :=
  if p.scene.world.isAlive id then
    match (job.errand entry id p.scene).result with
    | .ok () => some ⟨(job.errand entry id p.scene).scene, p.executed + 1, p.skipped⟩
    | .error _ => none
  else some { p with skipped := p.skipped + 1 }

theorem visit_of_dead (h : p.scene.world.get? a = none) :
    job.visit entry p a = some { p with skipped := p.skipped + 1 } := by
  have hdead : ¬ p.scene.world.isAlive a = true := by
    rw [World.isAlive_iff, h]
    nofun
  rw [visit, if_neg hdead]

theorem visit_of_ok (h : p.scene.world.isAlive a = true)
    (hok : (job.errand entry a p.scene).result = .ok ()) :
    job.visit entry p a
      = some ⟨(job.errand entry a p.scene).scene, p.executed + 1, p.skipped⟩ := by
  rw [visit, if_pos h, hok]

theorem visit_of_error (h : p.scene.world.isAlive a = true) {fault : Fault}
    (herror : (job.errand entry a p.scene).result = .error fault) :
    job.visit entry p a = none := by
  rw [visit, if_pos h, herror]

/-- **Two visits to an agent concur**: both fail, or both leave the same mark. -/
inductive VisitsConcur (job : Job) (entry : Frame) (a : AgentId) (p q : Headway) : Prop where
  | failed (fst : job.visit entry p a = none) (snd : job.visit entry q a = none)
  | marked {p' q' vars lines e k} (fst : job.visit entry p a = some p')
      (snd : job.visit entry q a = some q') (fst_mark : Marked a vars lines e k p p')
      (snd_mark : Marked a vars lines e k q q')

section

variable (hrole : entry.procedure.role = .command) (hlocal : entry.procedure.isLocal = true)
include hrole hlocal

/-- **Visits to one agent concur** in worlds with one outline in which it has the same record, or is
dead. -/
theorem visit_concur (hget : p.scene.world.get? a = q.scene.world.get? a)
    (houtline : p.scene.world.SameOutline q.scene.world) : job.VisitsConcur entry a p q := by
  cases hp : p.scene.world.get? a with
  | none =>
    have hq : q.scene.world.get? a = none := hget.symm.trans hp
    exact .marked (e := 0) (k := 1) (visit_of_dead hp) (visit_of_dead hq)
      ⟨.of_dead hp .empty, rfl, rfl⟩ ⟨.of_dead hq .empty, rfl, rfl⟩
  | some agent =>
    have hsame : World.SameFor a agent p.scene.world q.scene.world :=
      ⟨hp, hget.symm.trans hp, houtline⟩
    have halive := World.isAlive_iff.mpr ⟨agent, hsame.fst_get?⟩
    have halive' := World.isAlive_iff.mpr ⟨agent, hsame.snd_get?⟩
    obtain ⟨hresult, vars, lines, himprint, himprint'⟩ :
        Context.RunsConcur a p.scene q.scene (job.errand entry a p.scene)
          (job.errand entry a q.scene) :=
      Context.run_concur rfl hrole hlocal rfl hsame job.address
    cases hfirst : (job.errand entry a p.scene).result with
    | error fault =>
      exact .failed (visit_of_error halive hfirst) (visit_of_error halive' (hresult ▸ hfirst))
    | ok =>
      exact .marked (e := 1) (k := 0) (visit_of_ok halive hfirst)
        (visit_of_ok halive' (hresult ▸ hfirst)) ⟨himprint, rfl, rfl⟩ ⟨himprint', rfl, rfl⟩

theorem visit_congr (a : AgentId) (h : p.Reordered q) :
    Option.Rel Reordered (job.visit entry p a) (job.visit entry q a) := by
  have hvisits : job.VisitsConcur entry a p q :=
    visit_concur hrole hlocal (h.world.get?_eq a) h.world.sameOutline
  cases hvisits with
  | failed hp hq =>
    rw [hp, hq]
    exact .none
  | marked hp hq hmark hmark' =>
    rw [hp, hq]
    exact .some (h.marked hmark hmark')

/-- **Visits can change places.** -/
theorem visit_comm (a b : AgentId) (h : p.Reordered q) :
    Option.Rel Reordered ((job.visit entry p a).bind fun p' => job.visit entry p' b)
      ((job.visit entry q b).bind fun q' => job.visit entry q' a) := by
  by_cases hab : a = b
  · subst hab
    exact rel_bind (visit_congr hrole hlocal a) (visit_congr hrole hlocal a h)
  -- the mark of one agent is nothing to the other: `a` finds in `q₁` what it finds in `p`
  have hlast {q₁ : Headway} {vars lines e k} (hmark : Marked b vars lines e k q q₁) :
      job.VisitsConcur entry a p q₁ :=
    visit_concur hrole hlocal
      ((h.world.get?_eq a).trans (hmark.world.get?_of_ne hab).symm)
      (h.world.sameOutline.trans hmark.world.sameOutline)
  have hself (c : AgentId) (r : Headway) : job.VisitsConcur entry c r r :=
    visit_concur hrole hlocal rfl (.refl r.scene.world)
  cases hself a p with
  | failed hp =>
    cases hself b q with
    | failed hq =>
      rw [hp, hq]
      exact .none
    | marked hq _ hmark =>
      cases hlast hmark with
      | failed _ hq₁ =>
        rw [hp, hq, Option.bind_none, Option.bind_some, hq₁]
        exact .none
      | marked hp' => cases hp.symm.trans hp'
  | @marked p₁ _ _ _ _ _ hp _ hmark =>
    have hnext : job.VisitsConcur entry b p₁ q :=
      visit_concur hrole hlocal
        ((hmark.world.get?_of_ne (Ne.symm hab)).trans (h.world.get?_eq b))
        (hmark.world.sameOutline.symm.trans h.world.sameOutline)
    cases hnext with
    | failed hp₁ hq =>
      rw [hp, hq, Option.bind_some, hp₁]
      exact .none
    | marked hp₁ hq hnext hnext' =>
      cases hlast hnext' with
      | failed hp' => cases hp.symm.trans hp'
      | marked hp' hq₁ hfirst hfirst' =>
        cases hp.symm.trans hp'
        rw [hp, hq, Option.bind_some, Option.bind_some, hp₁, hq₁]
        exact .some (h.marked_comm hab hfirst hnext hnext' hfirst')

/-- **Visits in any order** come to the same headway, up to the order of lines. -/
theorem visits_perm {ids others : List AgentId} (hids : ids.Perm others) (h : p.Reordered q) :
    Option.Rel Reordered (ids.foldlM (job.visit entry) p) (others.foldlM (job.visit entry) q) :=
  rel_foldlM_of_perm Reordered.refl Reordered.trans (fun a => visit_congr hrole hlocal a)
    (fun a b => visit_comm hrole hlocal a b) hids h

end

/-! ## Runs are told by visits -/

/-- **To go through entries is to visit them**, as far as it matters whether that succeeds and what
it leaves then. -/
theorem sweepAfresh_eq_visits (traceAgents : Bool) (ids : List AgentId) (progress : Progress) :
    (job.sweepAfresh traceAgents .never entry ids progress).headway?
      = ids.foldlM (job.visit entry) ⟨progress.scene, progress.executed, progress.skipped⟩ := by
  induction ids generalizing progress with
  | nil => rfl
  | cons id rest ih =>
    rw [sweepAfresh, List.foldlM_cons]
    cases hget : progress.scene.world.get? id with
    | none =>
      have hdead : progress.scene.world.isAlive id = false := congrArg Option.isSome hget
      rw [visit_of_dead hget, if_pos (by rw [hdead]; rfl)]
      exact ih _
    | some agent =>
      have halive : progress.scene.world.isAlive id = true := World.isAlive_iff.mpr ⟨agent, hget⟩
      rw [if_neg (by rw [halive]; exact Bool.false_ne_true), if_neg (by exact Bool.false_ne_true),
        visit, if_pos halive, errand]
      dsimp only
      cases (((Context.new job.owner none job.set.tag).reset id entry job.address).run
        progress.scene).result with
      | error fault => rfl
      | ok => exact ih _

variable {s : Scene} {traceAgents : Bool}

/-- **How far a run comes in which nobody fails.** -/
def headway? (job : Job) (s : Scene) : Option Headway :=
  (job.snapshot s).foldlM (job.visit (job.entry s)) ⟨job.opening s, 0, 0⟩

theorem headway?_sweep (job : Job) (s : Scene) (traceAgents : Bool) :
    (job.sweep traceAgents .never (job.entry s) (job.snapshot s) (job.outset s)).headway?
      = job.headway? s := by
  have howner : (job.outset s).context.owner = job.owner := rfl
  have htag : (job.outset s).context.tag = job.set.tag := rfl
  rw [sweep_eq_sweepAfresh howner htag, sweepAfresh_eq_visits]
  rfl

/-- A run in which nobody fails succeeds, with what the visits have come to. -/
theorem run_of_headway?_eq_some (h : job.headway? s = some p) :
    (job.run s traceAgents .never).result
        = .ok ⟨(job.snapshot s).length, p.executed, p.skipped⟩
      ∧ (job.run s traceAgents .never).scene = p.scene := by
  rw [← job.headway?_sweep s traceAgents] at h
  rw [run_eq_conclude]
  generalize job.sweep traceAgents .never (job.entry s) (job.snapshot s) (job.outset s) = course
    at h ⊢
  obtain ⟨_ | ⟨executed, skipped⟩, scene, events⟩ := course
  · cases h
  · cases h
    exact ⟨rfl, rfl⟩

/-- A run in which somebody fails does so itself. -/
theorem run_of_headway?_eq_none (h : job.headway? s = none) :
    ∃ failure, (job.run s traceAgents .never).result = .error failure := by
  rw [← job.headway?_sweep s traceAgents] at h
  rw [run_eq_conclude]
  generalize job.sweep traceAgents .never (job.entry s) (job.snapshot s) (job.outset s) = course
    at h ⊢
  obtain ⟨failure | _, scene, events⟩ := course
  · exact ⟨failure, rfl⟩
  · cases h

/-! ## Runs in another order -/

/-- **Two runs come to the same, but for the order of the lines that they print.** -/
structure SameButOrder (w : World) (summary : Summary) (first second : JobCourse Summary) :
    Prop where
  fst_result : first.result = .ok summary
  snd_result : second.result = .ok summary
  /-- They leave the same agents, with the same numbers, breeds and variables. -/
  get?_eq : ∀ id, first.scene.world.get? id = second.scene.world.get? id
  /-- They leave the same breeds, with the same members in the same order. -/
  breeds_eq : first.scene.world.breeds = second.scene.world.breeds
  /-- They add the same lines to what has been printed, each in an order of its own. -/
  outputs : ∃ lines lines' : Array String, first.scene.world.output = w.output ++ lines
    ∧ second.scene.world.output = w.output ++ lines' ∧ lines.toList.Perm lines'.toList

theorem exists_output_run (job : Job) (s : Scene) (traceAgents : Bool) :
    ∃ lines, (job.run s traceAgents .never).scene.world.output = s.world.output ++ lines := by
  rw [world_run]
  exact World.output_after _ _

/-- **The order of visits does not matter to local code.** Two runs of a job from one world,
whatever orders their generators draw, both fail or come to the same but for the order of lines. -/
theorem run_order (job : Job) (s : Scene) (random : Random) (traceAgents : Bool)
    (hrole : (job.entry s).procedure.role = .command)
    (hlocal : (job.entry s).procedure.isLocal = true) :
    (∃ failure failure', (job.run s traceAgents .never).result = .error failure
        ∧ (job.run { s with random } traceAgents .never).result = .error failure')
      ∨ ∃ summary, SameButOrder s.world summary (job.run s traceAgents .never)
        (job.run { s with random } traceAgents .never) := by
  have hids : (job.snapshot s).Perm (job.snapshot { s with random }) :=
    (job.perm_snapshot s).trans (job.perm_snapshot { s with random }).symm
  have hopening : Reordered ⟨job.opening s, 0, 0⟩ ⟨job.opening { s with random }, 0, 0⟩ := by
    refine ⟨?_, rfl, rfl⟩
    show World.Reordered (job.opening s).world (job.opening { s with random }).world
    rw [world_opening, world_opening]
    exact .refl _
  have hrel : Option.Rel Reordered (job.headway? s) (job.headway? { s with random }) :=
    visits_perm hrole hlocal hids hopening
  generalize hs : job.headway? s = first, ht : job.headway? { s with random } = second at hrel
  cases hrel with
  | none =>
    obtain ⟨failure, hfirst⟩ := run_of_headway?_eq_none hs
    obtain ⟨failure', hsecond⟩ := run_of_headway?_eq_none ht
    exact .inl ⟨failure, failure', hfirst, hsecond⟩
  | @some p q hpq =>
    obtain ⟨hfirst, hfirst_scene⟩ := run_of_headway?_eq_some hs
    obtain ⟨hsecond, hsecond_scene⟩ := run_of_headway?_eq_some ht
    obtain ⟨lines, hlines⟩ := job.exists_output_run s traceAgents
    obtain ⟨lines', hlines'⟩ := job.exists_output_run { s with random } traceAgents
    rw [← hids.length_eq, ← hpq.executed_eq, ← hpq.skipped_eq] at hsecond
    have hworlds := hpq.world
    rw [← hfirst_scene, ← hsecond_scene] at hworlds
    refine .inr ⟨_, hfirst, hsecond, hworlds.get?_eq, hworlds.breeds_eq, lines, lines', hlines,
      hlines', ?_⟩
    have hall := hworlds.output_perm
    rw [hlines, hlines', Array.toList_append, Array.toList_append] at hall
    exact (List.perm_append_left_iff _).mp hall

/-- Two cows count the goats, one of them twice. -/
def counting : Job where
  owner := default
  set := .fixed .turtle [⟨1, 0⟩, ⟨3, 0⟩, ⟨1, 0⟩]
  procedure := .command "count"
    [.call (.command "look" [.print .who, .set "seen" (.count (.breed .turtle "goats"))]),
      .print (.own "seen")]
  address := 0
  caller := none

/-- With another generator the cows count in another order. -/
theorem run_order_counting :
    counting.snapshot .pasture = [⟨1, 0⟩, ⟨3, 0⟩, ⟨1, 0⟩]
      ∧ counting.snapshot { Scene.pasture with random := .ofSeed 0 }
        = [⟨1, 0⟩, ⟨1, 0⟩, ⟨3, 0⟩]
      ∧ (counting.run .pasture false .never).scene.world.output
        = #["0", "1", "2", "1", "0", "1"]
      ∧ (counting.run { Scene.pasture with random := .ofSeed 0 } false .never).scene.world.output
        = #["0", "1", "0", "1", "2", "1"]
      ∧ SameButOrder Scene.pasture.world ⟨3, 3, 0⟩ (counting.run .pasture false .never)
        (counting.run { Scene.pasture with random := .ofSeed 0 } false .never) := by
  have hresult : (counting.run .pasture false .never).result = .ok ⟨3, 3, 0⟩ := by
    decide +kernel
  refine ⟨by decide +kernel, by decide +kernel, by decide +kernel, by decide +kernel, ?_⟩
  rcases counting.run_order .pasture (.ofSeed 0) false rfl rfl with
    ⟨failure, -, herror, -⟩ | ⟨summary, hsame⟩
  · cases hresult.symm.trans herror
  · cases hresult.symm.trans hsame.fst_result
    exact hsame

end Job

end AgentSweep
