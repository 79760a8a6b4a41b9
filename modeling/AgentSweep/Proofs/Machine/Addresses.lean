import AgentSweep.Proofs.Machine.CallStack

/-!
# Addresses

The address at which an agent begins is the only one that is not computed by running code. All
others are 0, where a command is called, or the address after an instruction, where the body goes on
or a call comes back to it. None of these lies behind the end of the body for which it is meant. A
run that begins within a body, or at its end, therefore stays within bodies
(`Context.WithinBodies.of_reaches`), and no address in it is ever invalid. A run that begins behind
the end of a body fails with its first step and does nothing (`Context.run_of_size_lt`).

The body for which a return address is meant is that of the calling frame, not the current one. It
is the chain of callers (`Frame.Above`) from which this is known.
-/

namespace AgentSweep

/-- An open call returns into the body of its caller, or to its end. -/
theorem Frame.Above.returnAddress_le {entry frame : Frame} {calls : Nat}
    (h : entry.Above calls frame) {k : Nat} (hk : k < calls) :
    ∃ g caller, frame.ancestor? k = some g ∧ g.parent = some caller
      ∧ g.returnAddress ≤ caller.procedure.size := by
  obtain ⟨g, caller, hg, hcaller, -, hpos, hcode⟩ := h.exists_caller hk
  have hlt : g.returnAddress - 1 < caller.procedure.size := (List.getElem?_eq_some_iff.mp hcode).1
  exact ⟨g, caller, hg, hcaller, by omega⟩

namespace Context

variable {c : Context} {s : Scene} {frame entry : Frame}

/-! ## One step -/

/-- **A context stands within bodies** above a frame: the next instruction is one of the current
body, or the body is at its end. -/
def WithinBodies (entry : Frame) (c : Context) : Prop :=
  ∃ frame, c.frame = some frame ∧ entry.Above c.calls frame ∧ c.ip ≤ frame.procedure.size

/-- An instruction that neither calls nor leaves stays at its address, or goes on to the next. -/
theorem ip_perform {p : Procedure} {i : Instruction} (hcall : ∀ callee, i ≠ .call callee)
    (hleave : i ≠ .leave) :
    (c.perform s p i).2.1.ip = c.ip ∨ (c.perform s p i).2.1.ip = c.ip + 1 := by
  cases i with
  | call callee => exact absurd rfl (hcall callee)
  | leave => exact absurd rfl hleave
  | done | fail => exact .inl rfl
  | _ =>
    simp only [perform]
    repeat' split
    all_goals first | exact .inl rfl | exact .inr rfl

/-- No instruction finds fault with an address. -/
theorem perform_ne_invalidAddress {p : Procedure} {i : Instruction} {name : String}
    {address : Nat} : (c.perform s p i).1 ≠ .error (.invalidAddress name address) := by
  have hagent {α : Type} {f : Agent → Except Fault α}
      (hf : ∀ agent, f agent ≠ .error (.invalidAddress name address)) :
      Expr.ofAgent c s.world f ≠ .error (.invalidAddress name address) := by
    unfold Expr.ofAgent
    repeat' split
    all_goals first | exact hf _ | rintro ⟨⟩
  have heval (e : Expr) : (e.eval c s).1 ≠ .error (.invalidAddress name address) := by
    cases e with
    | constant | count => rintro ⟨⟩
    | own => exact hagent fun agent => by split <;> rintro ⟨⟩
    | who => exact hagent fun agent => by rintro ⟨⟩
    | random bound => rw [Expr.eval]; split <;> rintro ⟨⟩
  cases i with
  | print e | set _ e | report e =>
    have he := heval e
    simp only [perform]
    cases hvalue : e.eval c s with
    | mk result random =>
      rw [hvalue] at he
      cases result <;> (repeat' split) <;> simp_all
  | hatch breed =>
    have hparent := hagent (f := Except.ok) fun agent => by rintro ⟨⟩
    simp only [perform]
    cases hvalue : Expr.ofAgent c s.world .ok <;> (repeat' split) <;> simp_all
  | _ =>
    simp only [perform]
    repeat' split
    all_goals rintro ⟨⟩

theorem WithinBodies.leave (h : c.WithinBodies entry) : c.leave.2.WithinBodies entry := by
  obtain ⟨frame, hframe, habove, hip⟩ := id h
  rcases c.leave_cases with ⟨d, hpop, hleave⟩ | ⟨-, hleave⟩
  · rw [hleave]
    cases hcalls : c.calls with
    | zero => cases (pop?_of_calls_eq_zero hcalls).symm.trans hpop
    | succ calls =>
      cases (pop?_of_calls_eq_succ hframe hcalls).symm.trans hpop
      rw [hcalls] at habove
      cases habove with
      | call above code _ => exact ⟨_, rfl, above, (List.getElem?_eq_some_iff.mp code).1⟩
  · rw [hleave]
    exact h

/-- **No step leads out of the bodies.** -/
theorem WithinBodies.step (h : c.WithinBodies entry) (s : Scene) :
    (c.step s).context.WithinBodies entry := by
  obtain ⟨frame, hframe, habove, hip⟩ := id h
  rcases step_cases hframe s with ⟨fault, hstep⟩ | ⟨i, hi, hstep⟩ | ⟨-, hstep⟩
  · rw [hstep]
    exact h
  · have hlt : c.ip < frame.procedure.size := (List.getElem?_eq_some_iff.mp hi).1
    rw [hstep]
    by_cases hleave : i = .leave
    · rw [hleave]
      exact h.leave
    · by_cases hcall : ∃ callee, i = .call callee
      · obtain ⟨callee, rfl⟩ := hcall
        dsimp only
        rw [perform]
        cases hrole : callee.role with
        | command => exact ⟨_, rfl, hframe ▸ .call habove hi hrole, Nat.zero_le _⟩
        | reporter => exact h
      · have hnot (callee : Procedure) : i ≠ .call callee := fun heq => hcall ⟨callee, heq⟩
        have hstack := sameStack_perform (c := c) (s := s) (p := frame.procedure) hnot hleave
        refine ⟨frame, hstack.frame_eq.trans hframe, hstack.calls_eq ▸ habove, ?_⟩
        rcases ip_perform (c := c) (s := s) (p := frame.procedure) hnot hleave with hsame | hnext
        · exact Nat.le_trans (Nat.le_of_eq hsame) hip
        · exact Nat.le_trans (Nat.le_of_eq hnext) hlt
  · rw [hstep]
    exact h.leave

/-- Within bodies, no step finds fault with its address. -/
theorem WithinBodies.step_ne_invalidAddress (h : c.WithinBodies entry) {name : String}
    {address : Nat} : (c.step s).outcome ≠ .error (.invalidAddress name address) := by
  obtain ⟨frame, hframe, -, hip⟩ := h
  by_cases htag : c.tag.intersects frame.procedure.usableBy = true
  · rcases Nat.lt_or_eq_of_le hip with hlt | heq
    · rw [step_of_getElem? hframe htag (List.getElem?_eq_getElem hlt)]
      exact perform_ne_invalidAddress
    · rw [step_of_eq_size hframe htag heq]
      nofun
  · rw [step_of_not_intersects hframe htag]
    nofun

/-! ## Runs -/

/-- **A run that begins within bodies stays within bodies.** -/
theorem WithinBodies.of_reaches {a b : Context × Scene} (h : a.1.WithinBodies entry)
    (hab : Reaches a b) : b.1.WithinBodies entry := by
  induction hab with
  | refl => exact h
  | tail _ hnext ih =>
    obtain ⟨-, rfl⟩ := hnext
    exact ih.step _

/-- **What is known of the addresses in a state**, with the given frame: none of them lies behind
the end of its body, neither before the step nor after it. -/
structure AddressesHold (b : Context × Scene) (frame : Frame) : Prop where
  frame_eq : b.1.frame = some frame
  ip_le : b.1.ip ≤ frame.procedure.size
  /-- Every open call returns into the body of its caller. -/
  returnAddress_le : ∀ k < b.1.calls, ∃ g caller, frame.ancestor? k = some g
    ∧ g.parent = some caller ∧ g.returnAddress ≤ caller.procedure.size
  /-- Behind an instruction that is run there is another one, or the end of the body. -/
  next_le : (b.1.step b.2).instruction.isSome → b.1.ip + 1 ≤ frame.procedure.size
  /-- The address after that is therefore a word, if there are words enough to count the body. -/
  advance_eq : frame.procedure.size < UInt64.size → (b.1.step b.2).instruction.isSome →
    b.1.advance = b.1.goto (b.1.ip + 1)
  /-- The step itself keeps within bodies, whether it goes on, calls, comes back or is the last. -/
  ip_step_le : ∃ next, (b.1.step b.2).context.frame = some next
    ∧ (b.1.step b.2).context.ip ≤ next.procedure.size

theorem WithinBodies.exists_addressesHold {b : Context × Scene} (h : b.1.WithinBodies entry) :
    ∃ frame, AddressesHold b frame := by
  obtain ⟨frame, hframe, habove, hip⟩ := id h
  have hnext (hi : (b.1.step b.2).instruction.isSome) : b.1.ip + 1 ≤ frame.procedure.size := by
    rcases step_cases hframe b.2 with ⟨fault, hstep⟩ | ⟨i, hcode, -⟩ | ⟨-, hstep⟩
    · rw [hstep] at hi
      cases hi
    · exact (List.getElem?_eq_some_iff.mp hcode).1
    · rw [hstep] at hi
      cases hi
  obtain ⟨next, hframe', -, hip'⟩ := h.step b.2
  refine ⟨frame, hframe, hip, fun k hk => habove.returnAddress_le hk, hnext, fun hsize hi => ?_,
    next, hframe', hip'⟩
  rw [advance, Nat.mod_eq_of_lt (Nat.lt_of_le_of_lt (hnext hi) hsize)]

/-- **A run from behind the end of a body fails at once**, and nothing has been done. -/
theorem run_of_size_lt (hframe : c.frame = some frame) (hip : frame.procedure.size < c.ip)
    (hfinished : c.finished = false) :
    (c.run s).result = .error (if c.tag.intersects frame.procedure.usableBy
        then .invalidAddress frame.procedure.name c.ip
        else .wrongKind frame.procedure.name c.tag)
      ∧ (c.run s).context = c ∧ (c.run s).scene = s := by
  rw [run, if_neg (Bool.eq_false_iff.mp hfinished), drive_eq]
  by_cases htag : c.tag.intersects frame.procedure.usableBy = true
  · rw [step_of_size_lt hframe htag hip, if_pos htag]
    exact ⟨rfl, rfl, rfl⟩
  · rw [step_of_not_intersects hframe htag, if_neg htag]
    exact ⟨rfl, rfl, rfl⟩

end Context

end AgentSweep
