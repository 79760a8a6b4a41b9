/-!
# Arguments

How a row of arguments is read as options and words. An option has a long name (`--turtles`), and
may have a short one (`-t`). Its value stands in the same argument, after an equals sign or right
after the short name, or else is the next argument; in that case it does not begin with a hyphen,
unless it is a hyphen alone. After `--` nothing may follow.

Arguments are judged one after the other, and the first one that is wrong decides. A request for
help is granted only if nothing before it is wrong. An option whose value is an argument of its own
is judged late, when the next option is read or the arguments end: at a word it still waits.
-/

namespace AgentSweep

namespace Arguments

/-- **An option.** -/
structure Spec where
  long : String
  short : Option Char
  takesValue : Bool

/-- **Why reading stops early.** -/
inductive Stop where
  /-- The arguments are wrong. -/
  | usage
  /-- Help is asked for. -/
  | help
deriving DecidableEq, Repr

/-- **An option that was given.** -/
inductive Given where
  | flag (long : String)
  | value (long text : String)

/-- What one argument is. -/
inductive Argument where
  | word
  /-- The end of all options. -/
  | ending
  | help
  | given (option : Given)
  /-- An option whose value is the next argument. -/
  | awaits (long : String)
  | unknown

/-- The long form of an option, after its hyphens. -/
def ofLong (specs : List Spec) (body : List Char) : Argument :=
  let name := String.ofList (body.takeWhile fun c => c != '=')
  let attached := body.dropWhile fun c => c != '='
  match specs.find? fun spec => spec.long == name, attached with
  | some spec, [] => if spec.takesValue then .awaits spec.long else .given (.flag spec.long)
  | some spec, _ :: text =>
    if spec.takesValue then .given (.value spec.long (String.ofList text)) else .unknown
  | none, [] => if name = "help" then .help else .unknown
  | none, _ :: _ => .unknown

/-- The short form of an option, after its hyphen. -/
def ofShort (specs : List Spec) (c : Char) (rest : List Char) : Argument :=
  match specs.find? fun spec => spec.short == some c, rest with
  | some spec, [] => .awaits spec.long
  | some spec, '=' :: text => .given (.value spec.long (String.ofList text))
  | some spec, text => .given (.value spec.long (String.ofList text))
  | none, _ => if c = 'h' then .help else .unknown

/-- What an argument is. -/
def classify (specs : List Spec) (argument : String) : Argument :=
  match argument.toList with
  | ['-', '-'] => .ending
  | '-' :: '-' :: body => ofLong specs body
  | '-' :: c :: rest => ofShort specs c rest
  | _ => .word

/-- **How far reading has come.** -/
structure Progress (σ : Type) where
  /-- What has been read and judged. -/
  state : σ
  /-- The last option, if it is still to be judged. -/
  waiting : Option Given
  /-- The word at which reading has stopped, and the arguments after it. -/
  word : Option (String × List String)

/-- Judges the option that waits, if there is one. -/
def settle {σ : Type} (accept : σ → Given → Option σ) (state : σ) : Option Given → Option σ
  | some option => accept state option
  | none => some state

/-- **Reads options up to the first word.** `accept` says what an option does to what has been
read so far, if it is right. -/
def read {σ : Type} (specs : List Spec) (accept : σ → Given → Option σ) (state : σ)
    (waiting : Option Given) : List String → Except Stop (Progress σ)
  | [] => .ok ⟨state, waiting, none⟩
  | argument :: rest =>
    match classify specs argument, settle accept state waiting with
    | .word, _ => .ok ⟨state, waiting, some (argument, rest)⟩
    | .ending, _ => if rest.isEmpty then .ok ⟨state, waiting, none⟩ else .error .usage
    | .help, some _ => .error .help
    | .given option, some state =>
      match accept state option with
      | some state => read specs accept state none rest
      | none => .error .usage
    | .awaits long, some state =>
      match rest with
      | [] => .error .usage
      | text :: rest =>
        match classify specs text with
        | .word => read specs accept state (some (.value long text)) rest
        | _ => .error .usage
    | _, _ => .error .usage

/-- Reads options after which no word may come. -/
def readAll {σ : Type} (specs : List Spec) (accept : σ → Given → Option σ) (state : σ)
    (arguments : List String) : Except Stop σ :=
  match read specs accept state none arguments with
  | .ok ⟨state, waiting, none⟩ =>
    match settle accept state waiting with
    | some state => .ok state
    | none => .error .usage
  | .ok ⟨_, _, some _⟩ => .error .usage
  | .error stop => .error stop

/-- A 64-bit word in decimal digits, perhaps with a plus sign. -/
def word64? (text : String) : Option Nat :=
  let digits := match text.toList with
    | '+' :: rest => rest
    | chars => chars
  if digits.isEmpty || digits.any fun c => !c.isDigit then none
  else
    let n := Nat.ofDigitChars 10 digits 0
    if n < UInt64.size then some n else none

/-- Sets what has not been set before. An option may be given once only. -/
def once {α : Type} (old : Option α) (value : Option α) : Option (Option α) :=
  match old with
  | none => value.map some
  | some _ => none

end Arguments

end AgentSweep
