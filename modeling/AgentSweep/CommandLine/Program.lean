import AgentSweep.CommandLine.Invocation
import AgentSweep.CommandLine.LogFilter
import AgentSweep.Job.Workspace

/-!
# The command line program

What the program answers to its arguments, given the files that it may read and a seed that chance
has chosen. `visitAll` and `population` are what its two commands do; the rest of the module is the
text of their answers.
-/

namespace AgentSweep

/-- **What the program leaves behind**: its exit code and what it has written. -/
structure Answer where
  exitCode : Nat
  output : String
  errors : String
deriving DecidableEq, Repr

namespace Program

/-- The version of the program. -/
def version : String := "0.1.0"

/-! ## The commands -/

/-- The procedure that every turtle runs. -/
def visit (o : RunOptions) : Procedure :=
  .command "go"
    ([.print .who] ++ (if o.hatch then [.hatch "turtles"] else [])
      ++ match o.killWho with
        | some who => [.killWho who]
        | none => [])

/-- The world at the start. -/
def populate (turtles : Nat) : World := (World.empty.createTurtles "turtles" turtles).2

/-- A job over all turtles. -/
def jobOver (owner : String) (procedure : Procedure) : Job :=
  ⟨⟨.zero, owner⟩, .turtles, procedure, 0, none⟩

/-- **What `run` has to tell.** -/
structure Visits where
  /-- The numbers of the visited turtles, in order. -/
  visited : List String
  summary : Summary
  /-- How many turtles there are afterwards. -/
  turtles : Nat
deriving DecidableEq, Repr

/-- **Lets every turtle run the procedure.** -/
def visitAll (o : RunOptions) (config : Config) (random : Random) : Except JobFailure Visits :=
  let ws := Workspace.new (populate o.turtles) config
  let course := (jobOver "cli" (visit o)).run (ws.scene random) config.traceAgents ws.signal
  match course.result with
  | .ok summary =>
    let world := course.scene.world
    .ok ⟨world.output.toList, summary, AgentSet.turtles.count world⟩
  | .error failure => .error failure

/-- **Counts the turtles by a reporter**, and shows the count. -/
def population (turtles : Nat) (config : Config) (random : Random) : Except JobFailure String :=
  let ws := Workspace.new (populate turtles) config
  let procedure := Procedure.reporter "population" [.report (.count .turtles)]
  let course := (jobOver "console" procedure).report (ws.scene random)
  match course.result with
  | .ok value => .ok (value.render course.scene.world)
  | .error failure => .error failure

/-! ## The answers -/

/-- Lines, each with its end. -/
def lines (ls : List String) : String := String.join (ls.map fun l => l ++ "\n")

/-- What `run` writes. -/
def visitsText (v : Visits) : String :=
  lines
    (v.visited.map (fun who => "visited turtle " ++ who)
      ++ [s!"snapshot: {v.summary.snapshot}  executed: {v.summary.executed}  "
        ++ s!"skipped: {v.summary.skipped}  turtles now: {v.turtles}"])

/-- A page of help. -/
def helpText : HelpPage → String
  | .overview => lines
    ["Exclusive-execution core for an agent-based simulation VM",
      "",
      "Usage: corral-cli [OPTIONS] <COMMAND>",
      "",
      "Commands:",
      "  run     Run a procedure over every turtle",
      "  report  Evaluate `count turtles` as a reporter",
      "  help    Print this message or the help of the given subcommand(s)",
      "",
      "Options:",
      "  -c, --config <CONFIG>  JSON configuration file",
      "  -h, --help             Print help"]
  | .run => lines
    ["Run a procedure over every turtle",
      "",
      "Usage: corral-cli run [OPTIONS]",
      "",
      "Options:",
      "  -t, --turtles <TURTLES>    Number of turtles to create [default: 5]",
      "      --seed <SEED>          Seed for the random source (overrides the config)",
      "      --hatch                Every visited turtle hatches a child",
      "      --kill-who <KILL_WHO>  Every visited turtle kills the turtle with this who number",
      "  -h, --help                 Print help"]
  | .report => lines
    ["Evaluate `count turtles` as a reporter",
      "",
      "Usage: corral-cli report [OPTIONS]",
      "",
      "Options:",
      "  -t, --turtles <TURTLES>  Number of turtles to create [default: 5]",
      "  -h, --help               Print help"]
  | .help => lines
    ["Print this message or the help of the given subcommand(s)",
      "",
      "Usage: corral-cli help [COMMAND]...",
      "",
      "Arguments:",
      "  [COMMAND]...  Print help for the subcommand(s)"]

/-- The answer to something that went well. -/
def success (output : String) : Answer := ⟨0, output, ""⟩

/-- The answer to something that went wrong. -/
def refusal (message : String) : Answer := ⟨1, "", "Error: " ++ message ++ "\n"⟩

/-- The configuration that is asked for. -/
def loadConfig (path : Option String) (files : String → Option ByteArray) :
    Except String Config :=
  match path with
  | none => .ok .standard
  | some path =>
    match Config.load (files path) with
    | .ok config => .ok config
    | .error _ => .error s!"Failed to load config from {Quoted.text path}"

/-- **What a command answers.** A seed among its options wins over that of the configuration. -/
def answerCommand (config : Config) (chance : UInt64) : Command → Answer
  | .run o =>
    let random := match o.seed with
      | some seed => Random.ofSeed seed.toUInt64
      | none => config.generator chance
    match visitAll o config random with
    | .ok visits => success (visitsText visits)
    | .error failure => refusal failure.message
  | .report turtles =>
    match population turtles config (config.generator chance) with
    | .ok text => success (lines [text])
    | .error failure => refusal failure.message

/-- The answer to a filter that cannot be read to its end. -/
def breakdown (complaints : List String) : Answer := ⟨101, "", lines complaints⟩

/-- **What the program answers to its arguments.** Complaints about the log filter come before an
error of the command. -/
def answer (arguments : List String) (files : String → Option ByteArray) (chance : UInt64) :
    Answer :=
  match Invocation.ofArguments arguments with
  | .command path command =>
    match loadConfig path files with
    | .ok config =>
      let ⟨complaints, broken⟩ := LogFilter.report config.logFilter
      if broken then breakdown complaints
      else
        let answer := answerCommand config chance command
        { answer with errors := lines complaints ++ answer.errors }
    | .error message => refusal message
  | .help page => success (helpText page)
  | .misuse => ⟨2, "", "error: unexpected arguments; try --help\n"⟩

end Program

end AgentSweep
