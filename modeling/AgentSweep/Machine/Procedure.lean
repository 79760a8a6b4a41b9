import AgentSweep.Value

/-!
# Procedures

A procedure is a list of instructions with a name. Instructions are addressed from 0, and the
address one past the last is the end of the body. A *command* is run for what it does, a
*reporter* for the value that it reports. A call holds the procedure that it calls, so that no
procedure can call itself and every body has a finite *unrolled size*: the number of steps it
takes at most, calls included.
-/

namespace AgentSweep

/-- **What an instruction computes with.** -/
inductive Expr where
  | constant (value : Value)
  /-- A variable of the current agent. -/
  | own (name : String)
  /-- The number of the current agent. -/
  | who
  /-- A random whole number below a bound; 0 if the bound is 0. -/
  | random (bound : UInt32)
  /-- How many members a set has. -/
  | count (set : AgentSet)

/-- Whether a procedure is run for its effects or for a value. -/
inductive Role where
  | command
  | reporter
deriving DecidableEq, Repr

mutual

/-- **An instruction.** -/
inductive Instruction where
  | noop
  /-- Prints a value. -/
  | print (value : Expr)
  /-- Sets a variable of the current agent. -/
  | set (name : String) (value : Expr)
  /-- Makes a turtle with the current agent's variables. -/
  | hatch (breed : String)
  /-- Kills the current agent, which ends its run. -/
  | die
  /-- Kills the agent with a given number, if there is one. -/
  | killWho (who : Nat)
  /-- Runs a command from its start and comes back. -/
  | call (callee : Procedure)
  /-- Goes back to the caller; without one, ends the agent's run. -/
  | leave
  /-- Ends the agent's run, however many calls are open. -/
  | done
  /-- Reports a value. -/
  | report (value : Expr)
  /-- Raises an error. -/
  | fail (message : String)

/-- **A procedure.** -/
structure Procedure where
  name : String
  role : Role
  /-- The kinds of agents that may run the body. -/
  usableBy : KindMask
  code : List Instruction

end

namespace Instruction

/-- The short name of an instruction in the log. -/
def mnemonic : Instruction → String
  | noop => "noop"
  | print _ => "print"
  | set _ _ => "set"
  | hatch _ => "hatch"
  | die => "die"
  | killWho _ => "kill-who"
  | call _ => "call"
  | leave => "return"
  | done => "done"
  | report _ => "report"
  | fail _ => "fail"

end Instruction

namespace Procedure

instance : Inhabited Procedure := ⟨⟨"", .command, .all, []⟩⟩

/-- A command that agents of every kind may run. -/
def command (name : String) (code : List Instruction) : Procedure :=
  ⟨name, .command, .all, code⟩

/-- A reporter that agents of every kind may run. -/
def reporter (name : String) (code : List Instruction) : Procedure :=
  ⟨name, .reporter, .all, code⟩

/-- How many instructions the body has. -/
def size (p : Procedure) : Nat := p.code.length

/-- Whether the body has no instruction. -/
def isEmpty (p : Procedure) : Bool := p.code.isEmpty

end Procedure

/-! ## Equality -/

/-- Whether two expressions are equal; constants are compared as values. -/
def Expr.beq : Expr → Expr → Bool
  | .constant a, .constant b => a == b
  | .own a, .own b => a == b
  | .who, .who => true
  | .random a, .random b => a == b
  | .count a, .count b => a == b
  | _, _ => false

instance : BEq Expr := ⟨Expr.beq⟩

mutual

/-- Whether two instructions are equal. -/
def Instruction.beq : Instruction → Instruction → Bool
  | .noop, .noop => true
  | .print a, .print b => a == b
  | .set x a, .set y b => x == y && a == b
  | .hatch a, .hatch b => a == b
  | .die, .die => true
  | .killWho a, .killWho b => a == b
  | .call p, .call q => Procedure.beq p q
  | .leave, .leave => true
  | .done, .done => true
  | .report a, .report b => a == b
  | .fail a, .fail b => a == b
  | _, _ => false

/-- Whether two bodies are equal. -/
def Instruction.beqAll : List Instruction → List Instruction → Bool
  | [], [] => true
  | i :: is, j :: js => Instruction.beq i j && Instruction.beqAll is js
  | _, _ => false

/-- Whether two procedures are equal, those that they call included. -/
def Procedure.beq : Procedure → Procedure → Bool
  | ⟨name, role, usableBy, code⟩, ⟨name', role', usableBy', code'⟩ =>
    name == name' && role == role' && usableBy == usableBy' && Instruction.beqAll code code'

end

instance : BEq Procedure := ⟨Procedure.beq⟩

/-! ## Unrolled size -/

mutual

/-- **The unrolled size of a procedure**: one step for reaching the end, and what its instructions
take. -/
def Procedure.unrolled : Procedure → Nat
  | ⟨_, _, _, code⟩ => 1 + Instruction.costs code

/-- The steps that one instruction takes, those of the procedure that it calls included. -/
def Instruction.cost : Instruction → Nat
  | .call callee => 1 + callee.unrolled
  | _ => 1

/-- The steps that a list of instructions takes. -/
def Instruction.costs : List Instruction → Nat
  | [] => 0
  | i :: is => i.cost + Instruction.costs is

end

theorem Instruction.cost_pos (i : Instruction) : 0 < i.cost := by
  cases i <;> simp only [Instruction.cost] <;> omega

namespace Procedure

/-- The steps that a body takes at most from an address on. -/
def unrolledFrom (p : Procedure) (address : Nat) : Nat :=
  1 + Instruction.costs (p.code.drop address)

theorem unrolled_eq (p : Procedure) : p.unrolled = 1 + Instruction.costs p.code := by
  cases p
  rfl

@[simp] theorem unrolledFrom_zero (p : Procedure) : p.unrolledFrom 0 = p.unrolled := by
  simp [unrolledFrom, unrolled_eq]

theorem unrolledFrom_pos (p : Procedure) (address : Nat) : 0 < p.unrolledFrom address := by
  unfold unrolledFrom
  omega

/-- The instruction at an address is what separates the rest of the body from the rest after
it. -/
theorem unrolledFrom_of_getElem? {p : Procedure} {address : Nat} {i : Instruction}
    (h : p.code[address]? = some i) :
    p.unrolledFrom address = i.cost + p.unrolledFrom (address + 1) := by
  obtain ⟨hlt, rfl⟩ := List.getElem?_eq_some_iff.1 h
  unfold unrolledFrom
  rw [List.drop_eq_getElem_cons hlt, Instruction.costs]
  omega

end Procedure

end AgentSweep
