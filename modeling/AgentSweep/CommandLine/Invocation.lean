import AgentSweep.CommandLine.Arguments

/-!
# What the command line asks for

The program has two commands. `run` lets every turtle of a new world run a small procedure, and
`report` counts the turtles by a reporter. Before the command an option may name a configuration
file.
-/

namespace AgentSweep

/-- **What `run` is to do.** -/
structure RunOptions where
  /-- How many turtles there are at the start. -/
  turtles : Nat
  /-- The seed, if it is not to be that of the configuration. -/
  seed : Option Nat
  /-- Whether every visited turtle has a child. -/
  hatch : Bool
  /-- The number of the turtle that every visited turtle kills. -/
  killWho : Option Nat
deriving DecidableEq, Repr

/-- **A command.** -/
inductive Command where
  | run (options : RunOptions)
  | report (turtles : Nat)
deriving DecidableEq, Repr

/-- A page of help. -/
inductive HelpPage where
  | overview
  | run
  | report
  | help
deriving DecidableEq, Repr

/-- **What the command line asks for.** -/
inductive Invocation where
  | command (config : Option String) (command : Command)
  | help (page : HelpPage)
  /-- The arguments make no sense. -/
  | misuse
deriving DecidableEq, Repr

namespace Invocation

open Arguments

/-- How many turtles there are if nobody says. -/
def defaultTurtles : Nat := 5

/-- What has been read of the options of a command. -/
structure Partial where
  turtles : Option Nat
  seed : Option Nat
  hatch : Bool
  killWho : Option Nat

/-- The options of the program. -/
def programSpecs : List Spec := [⟨"config", some 'c', true⟩]

/-- The options of `run`. -/
def runSpecs : List Spec :=
  [⟨"turtles", some 't', true⟩, ⟨"seed", none, true⟩, ⟨"hatch", none, false⟩,
    ⟨"kill-who", none, true⟩]

/-- The options of `report`. -/
def reportSpecs : List Spec := [⟨"turtles", some 't', true⟩]

/-- Accepts an option of the program. -/
def acceptProgram (config : Option String) : Given → Option (Option String)
  | .value "config" path => once config (if path.isEmpty then none else some path)
  | _ => none

/-- Accepts an option of a command. -/
def acceptCommand (p : Partial) : Given → Option Partial
  | .value "turtles" text =>
    (once p.turtles (word64? text)).map fun turtles => { p with turtles }
  | .value "seed" text => (once p.seed (word64? text)).map fun seed => { p with seed }
  | .value "kill-who" text =>
    (once p.killWho (word64? text)).map fun killWho => { p with killWho }
  | .flag "hatch" => if p.hatch then none else some { p with hatch := true }
  | _ => none

/-- Nothing read yet. -/
def blank : Partial := ⟨none, none, false, none⟩

/-- The page of help about a command. -/
def helpPage : List String → Invocation
  | [] => help .overview
  | ["run"] => help .run
  | ["report"] => help .report
  | ["help"] => help .help
  | _ => misuse

/-- A command, after options of the program that are `none` where they are wrong. -/
def order (config : Option (Option String)) (c : Command) : Invocation :=
  match config with
  | some config => command config c
  | none => misuse

/-- Reads the name of a command and what comes after it. The options before it are not looked at
for a page of help. -/
def ofCommand (config : Option (Option String)) (name : String) (arguments : List String) :
    Invocation :=
  match name with
  | "run" =>
    match readAll runSpecs acceptCommand blank arguments with
    | .ok p => order config (.run ⟨p.turtles.getD defaultTurtles, p.seed, p.hatch, p.killWho⟩)
    | .error .help => help .run
    | .error .usage => misuse
  | "report" =>
    match readAll reportSpecs acceptCommand blank arguments with
    | .ok p => order config (.report (p.turtles.getD defaultTurtles))
    | .error .help => help .report
    | .error .usage => misuse
  | "help" => helpPage arguments
  | _ => misuse

/-- **Reads the arguments of the program.** -/
def ofArguments (arguments : List String) : Invocation :=
  match read programSpecs acceptProgram none none arguments with
  | .ok ⟨config, waiting, some (name, rest)⟩ =>
    ofCommand (settle acceptProgram config waiting) name rest
  | .ok ⟨_, _, none⟩ => misuse
  | .error .help => help .overview
  | .error .usage => misuse

end Invocation

end AgentSweep
