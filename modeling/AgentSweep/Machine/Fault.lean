import AgentSweep.Agent.Kind

/-!
# What can go wrong in running code

A fault is the cause of an error raised by a single step. Its text is `Fault.message`.
-/

namespace AgentSweep

/-- **Why a step was refused.** -/
inductive Fault where
  /-- The code itself raised an error. -/
  | raised (message : String)
  /-- The current agent, whose title is given, has no variable of that name. -/
  | notOwned (agent name : String)
  /-- A procedure or primitive is run under a tag that may not run it. -/
  | wrongKind (primitive : String) (tag : KindMask)
  /-- A reporter ended without reporting. -/
  | noReport (procedure : String)
  /-- A value was reported where nobody asked for one. -/
  | reportOutsideReporter
  /-- A reporter was called as a command. -/
  | reporterAsCommand (procedure : String)
  /-- An address lies behind the end of a body. -/
  | invalidAddress (procedure : String) (address : Nat)
  /-- There is no frame to run. -/
  | noFrame
  /-- There is no current agent. -/
  | noAgent
  /-- The current agent is dead; the tag says what it was. -/
  | deadAgent (tag : KindMask)
deriving DecidableEq, Repr

namespace Fault

/-- **The text of a fault.** -/
def message : Fault → String
  | raised message => message
  | notOwned agent name => s!"{agent} does not own variable {name}"
  | wrongKind primitive tag => s!"{primitive} can't be run by a {tag.names}"
  | noReport procedure =>
    s!"reached end of reporter procedure {procedure} without REPORT being called"
  | reportOutsideReporter => "REPORT can only be used inside a reporter procedure"
  | reporterAsCommand procedure =>
    s!"{procedure} is a reporter and can't be called as a command"
  | invalidAddress procedure address =>
    s!"instruction address {address} is outside procedure {procedure}"
  | noFrame => "context has no active frame"
  | noAgent => "context has no current agent"
  | deadAgent tag => s!"that {tag.names} is dead"

end Fault

end AgentSweep
