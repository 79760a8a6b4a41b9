import AgentSweep.Proofs.Machine.CallStack

/-!
# What an evaluation reports

The evaluation of a reporter runs until a step reports a value or ends the run. Commands may be
called on the way, and these may contain `report` instructions of their own. None of them can report
anything: whatever has been called is a command (`Frame.Above.role_eq`), and the `report` of a
command is refused. The value is therefore reported by the body with which the evaluation began
(`Context.result_evaluate_eq_ok_iff`).
-/

namespace AgentSweep

/-- Whatever runs above a frame has been called, and only commands can be called. -/
theorem Frame.Above.role_eq {entry frame : Frame} {calls : Nat} (h : entry.Above calls frame)
    (hpos : 0 < calls) : frame.procedure.role = .command := by
  cases h with
  | entry => exact absurd hpos (Nat.lt_irrefl 0)
  | call _ _ role => exact role

/-- With no call in between a frame stands above itself only. -/
theorem Frame.Above.eq_entry {entry frame : Frame} (h : entry.Above 0 frame) : frame = entry := by
  cases h
  rfl

/-- The outcome of the step with which a run comes to its end. -/
def Ending.outcome : Ending → Outcome
  | .over => .over
  | .reported value => .reported value

namespace Context

variable {c : Context} {s : Scene} {frame : Frame} {value : Value}

/-! ## Steps that report -/

/-- Only a `report` in a reporter can report a value, and the value is that of its expression. -/
theorem perform_eq_reported_iff {p : Procedure} {i : Instruction} :
    (c.perform s p i).1 = .ok (.reported value)
      ↔ ∃ e, i = .report e ∧ p.role = .reporter ∧ (e.eval c s).1 = .ok value := by
  have hleave : c.leave.1 ≠ .reported value := by
    rcases c.leave_cases with ⟨d, -, hleave⟩ | ⟨-, hleave⟩ <;> rw [hleave] <;> rintro ⟨⟩
  cases i with
  | report e =>
    rw [perform]
    cases p.role with
    | command => simp
    | reporter => cases heval : e.eval c s with | mk result random => cases result <;> simp [heval]
  | leave => simp [perform, hleave]
  | _ =>
    refine ⟨fun h => ?_, by rintro ⟨_, ⟨⟩, -⟩⟩
    exfalso
    revert h
    simp only [perform]
    repeat' split
    all_goals simp

/-- **A step reports a value** if and only if it runs a `report` in a reporter, and the value is
that of its expression. -/
theorem step_eq_reported_iff (hframe : c.frame = some frame) :
    (c.step s).outcome = .ok (.reported value)
      ↔ ∃ e, (c.step s).instruction = some (.report e) ∧ frame.procedure.role = .reporter
        ∧ (e.eval c s).1 = .ok value := by
  rcases step_cases hframe s with ⟨fault, hstep⟩ | ⟨i, -, hstep⟩ | ⟨-, hstep⟩
  · simp [hstep]
  · simp [hstep, perform_eq_reported_iff]
  · rcases c.leave_cases with ⟨d, -, hleave⟩ | ⟨-, hleave⟩ <;> simp [hstep, hleave]

/-- The `report` of a command is refused, and does nothing. -/
theorem step_of_report_of_command (hframe : c.frame = some frame) {e : Expr}
    (hi : (c.step s).instruction = some (.report e)) (hrole : frame.procedure.role = .command) :
    c.step s = ⟨some (.report e), .error .reportOutsideReporter, c, s⟩ := by
  rcases step_cases hframe s with ⟨fault, hstep⟩ | ⟨i, -, hstep⟩ | ⟨-, hstep⟩
  · rw [hstep] at hi
    cases hi
  · rw [hstep] at hi
    cases hi
    rw [hstep, perform, hrole]
  · rw [hstep] at hi
    cases hi

/-! ## Evaluations -/

/-- **A run comes to what the last of its steps comes to**, and only that step can end it. -/
theorem result_drive_eq_iff (steps : Array StepRecord) {result : Except Fault Ending} :
    (c.drive s steps).result = result
      ↔ ∃ b, Reaches (c, s) b ∧ (b.1.step b.2).outcome = result.map Ending.outcome := by
  have hfinal {b : Context × Scene} (hb : Reaches (c, s) b) {result : Except Fault Ending}
      (houtcome : (b.1.step b.2).outcome = result.map Ending.outcome) :
      (c.drive s steps).result = result := by
    obtain ⟨taken, htaken⟩ := hb.exists_drive_eq steps
    rw [htaken, drive_eq, houtcome]
    rcases result with fault | _ | value <;> rfl
  refine ⟨?_, fun ⟨b, hb, houtcome⟩ => hfinal hb houtcome⟩
  rintro rfl
  obtain ⟨b, hb, hlast⟩ := exists_last c s
  obtain ⟨result, houtcome⟩ : ∃ result : Except Fault Ending,
      (b.1.step b.2).outcome = result.map Ending.outcome := by
    cases houtcome : (b.1.step b.2).outcome with
    | error fault => exact ⟨.error fault, rfl⟩
    | ok outcome =>
      rcases outcome with _ | _ | value
      · exact absurd houtcome hlast
      · exact ⟨.ok .over, rfl⟩
      · exact ⟨.ok (.reported value), rfl⟩
  exact ⟨b, hb, hfinal hb houtcome ▸ houtcome⟩

/-- **A state in which a reporter reports its value**, on behalf of the frame in which its
evaluation began. -/
structure Reports (frame : Frame) (b : Context × Scene) (value : Value) : Prop where
  /-- The reporter itself runs, and nothing that it has called. -/
  frame_eq : b.1.frame = some frame
  calls_eq : b.1.calls = 0
  role_eq : frame.procedure.role = .reporter
  /-- It runs a `report` of its own body, and the value is that of the expression there and then. -/
  exists_report : ∃ e, frame.procedure.code[b.1.ip]? = some (.report e)
    ∧ (b.1.step b.2).instruction = some (.report e) ∧ (e.eval b.1 b.2).1 = .ok value

theorem Reports.of_step {b : Context × Scene} (hstands : b.1.StandsOn frame)
    (h : (b.1.step b.2).outcome = .ok (.reported value)) : Reports frame b value := by
  obtain ⟨current, hcurrent, habove⟩ := hstands
  obtain ⟨e, hi, hrole, hvalue⟩ := (step_eq_reported_iff hcurrent).mp h
  have hcode : current.procedure.code[b.1.ip]? = some (.report e) := by
    rcases step_cases hcurrent b.2 with ⟨fault, hstep⟩ | ⟨i, hcode, hstep⟩ | ⟨-, hstep⟩
    · rw [hstep] at hi
      cases hi
    · rw [hstep] at hi
      cases hi
      exact hcode
    · rw [hstep] at hi
      cases hi
  -- whatever stands above the frame is a command, and reports nothing
  rcases Nat.eq_zero_or_pos b.1.calls with hzero | hpos
  · rw [hzero] at habove
    cases habove.eq_entry
    exact ⟨hcurrent, hzero, hrole, e, hcode, hi, hvalue⟩
  · cases (habove.role_eq hpos).symm.trans hrole

theorem Reports.outcome_eq {b : Context × Scene} (h : Reports frame b value) :
    (b.1.step b.2).outcome = .ok (.reported value) := by
  obtain ⟨e, -, hi, hvalue⟩ := h.exists_report
  exact (step_eq_reported_iff h.frame_eq).mpr ⟨e, hi, h.role_eq, hvalue⟩

/-- An evaluation makes an error of a run that is over without a value. -/
theorem evaluate_eq (c : Context) (s : Scene) (frame : Frame) :
    c.evaluate s frame
      = match ((c.enter frame).drive s #[]).result with
        | .ok (.reported value) => ((c.enter frame).drive s #[]).conclude (.ok value)
          ((c.enter frame).drive s #[]).context.finish
        | .ok .over => ((c.enter frame).drive s #[]).conclude
          (.error (.noReport frame.procedure.name)) ((c.enter frame).drive s #[]).context.finish
        | .error fault => ((c.enter frame).drive s #[]).conclude (.error fault)
          ((c.enter frame).drive s #[]).context := rfl

/-- **An evaluation comes to a value** if and only if the reporter comes to report it. -/
theorem result_evaluate_eq_ok_iff :
    (c.evaluate s frame).result = .ok value
      ↔ ∃ b, Reaches (c.enter frame, s) b ∧ Reports frame b value := by
  have hdrive : (c.evaluate s frame).result = .ok value
      ↔ ((c.enter frame).drive s #[]).result = .ok (.reported value) := by
    rw [evaluate_eq]
    rcases ((c.enter frame).drive s #[]).result with fault | _ | other <;> simp [Course.conclude]
  have hstart : (c.enter frame).StandsOn frame := ⟨frame, rfl, .entry⟩
  rw [hdrive, result_drive_eq_iff]
  exact exists_congr fun b => and_congr_right fun hb =>
    ⟨.of_step (hstart.of_reaches hb), Reports.outcome_eq⟩

/-- An evaluation fails with the step that is refused, in the state that this step leaves. -/
theorem evaluate_of_error {b : Context × Scene} {fault : Fault}
    (hb : Reaches (c.enter frame, s) b) (houtcome : (b.1.step b.2).outcome = .error fault) :
    (c.evaluate s frame).result = .error fault
      ∧ (c.evaluate s frame).context = (b.1.step b.2).context
      ∧ (c.evaluate s frame).scene = (b.1.step b.2).scene := by
  have hresult : ((c.enter frame).drive s #[]).result = .error fault :=
    (result_drive_eq_iff #[]).mpr ⟨b, hb, houtcome⟩
  obtain ⟨hcontext, hscene, -⟩ := hb.drive_eq_last (by rw [houtcome]; nofun) #[]
  rw [evaluate_eq, hresult]
  exact ⟨rfl, hcontext, hscene⟩

end Context

end AgentSweep
