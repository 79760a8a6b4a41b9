import AgentSweep.Pattern.Group

/-!
# Reading patterns

A pattern is read from its first character to its last. `flaw?` says what keeps a pattern from
being used: it is malformed, or it asks for the edges of words of Unicode, which the automata that
patterns are made into cannot find.

A pattern stands between the braces of a log filter and cannot hold a closing brace there. So an
opening brace never makes a count of repetitions, and is an error.
-/

namespace AgentSweep

namespace Pattern

/-- **A pattern as far as it has been read.** -/
structure Draft where
  /-- The innermost group. -/
  group : Group
  /-- The groups around it, from the innermost to the whole pattern. -/
  outer : List Group
  /-- The names of groups. -/
  names : List (List Char)
  /-- Whether the edge of a word of Unicode has been asked for. -/
  wordEdge : Bool

namespace Draft

/-- Nothing has been read. -/
def start : Draft := ⟨.start .standard, [], [], false⟩

/-- The draft with one more piece. -/
def add (d : Draft) (piece : Piece) : Draft := { d with group := d.group.add piece }

/-- The draft with one more atom. -/
def addAtom (d : Draft) (atom : Atom) : Draft :=
  { d.add (.part 0) with wordEdge := d.wordEdge || (atom = .wordEdge && d.group.mode.unicode) }

/-- The draft after an opening bracket. No two groups have the same name. -/
def enter? (d : Draft) : Opening → Option Draft
  | .switches mode => some { d with group := { d.group.add .switches with mode } }
  | .group mode name =>
    if name.any (d.names.contains ·) then none
    else
      some { d with
        group := .start mode
        outer := d.group :: d.outer
        names := name.toList ++ d.names }

/-- The draft after a closing bracket. The modes are again those of the group around. -/
def leave? (d : Draft) : Option Draft :=
  match d.outer with
  | [] => none
  | parent :: outer =>
    some { d with group := parent.add (.part (1 + d.group.depth)), outer := outer }

/-- The atom that begins with a character, and what follows it. -/
def scanAtom (m : Mode) (c : Char) (rest : List Char) : Option (Atom × List Char) :=
  match c with
  | '\\' => Atom.scanEscape m rest
  | '\x7b' => none
  | '.' => some (.any, rest)
  | '^' => some (.anchor, rest)
  | '$' => some (.anchor, rest)
  | c => some (.char c false, rest)

/-- What follows a repetition. A question mark makes it a lazy one. -/
def afterRepetition : List Char → List Char
  | '?' :: rest => rest
  | rest => rest

theorem length_scanAtom {m : Mode} {c : Char} {rest rest' : List Char} {atom : Atom}
    (h : scanAtom m c rest = some (atom, rest')) : rest'.length ≤ rest.length := by
  have hescape := @Atom.length_scanEscape m rest
  unfold scanAtom at h
  grind

theorem length_afterRepetition (rest : List Char) :
    (afterRepetition rest).length ≤ rest.length := by
  unfold afterRepetition
  grind

/-- **Reads one part of a pattern**, from its first character and what follows it. -/
def step (d : Draft) (c : Char) (rest : List Char) : Option (Draft × List Char) :=
  let m := d.group.mode
  match c with
  | '(' =>
    match Opening.scan m rest with
    | some (opening, rest) => (d.enter? opening).map fun d => (d, rest)
    | none => none
  | ')' => d.leave?.map fun d => (d, rest)
  | '|' => some ({ d with group := d.group.divide }, rest)
  | '[' =>
    match (Brackets.afterCircumflex m rest).bind (Brackets.scan m .start []) with
    | some (depth, rest) => some (d.add (.part depth), rest)
    | none => none
  | '*' | '+' | '?' => d.group.repeat?.map fun group => ({ d with group }, afterRepetition rest)
  | c =>
    match scanAtom m c rest with
    | some (atom, rest) => if atom.fits m then some (d.addAtom atom, rest) else none
    | none => none

theorem length_step {d d' : Draft} {c : Char} {rest rest' : List Char}
    (h : d.step c rest = some (d', rest')) : rest'.length ≤ rest.length := by
  have hopening := @Opening.length_scan d.group.mode rest
  have hcircumflex := @Brackets.length_afterCircumflex d.group.mode rest
  have hbrackets := @Brackets.length_scan d.group.mode .start []
  have hatom := @length_scanAtom d.group.mode c rest
  have hlazy := length_afterRepetition rest
  unfold step at h
  grind [Option.map_eq_some_iff, Option.bind_eq_some_iff]

/-- Reads what is left of a pattern. -/
def read (d : Draft) (chars : List Char) : Option Draft :=
  match _h : d.group.mode.skip chars with
  | [] => some d
  | c :: rest =>
    match _h : d.step c rest with
    | some (d, rest) => read d rest
    | none => none
termination_by chars.length
decreasing_by exact Mode.length_lt_of_skip ‹_› (length_step ‹_›)

end Draft

/-- How deep a pattern may go. -/
def depthLimit : Nat := 250

/-- **Why a pattern cannot be used.** -/
inductive Flaw where
  | malformed
  /-- It asks for an edge of a word of Unicode. -/
  | wordEdge
deriving DecidableEq, Repr

/-- The wording of a flaw. -/
def Flaw.message : Flaw → String
  | malformed => "error building NFA"
  | wordEdge =>
    "unsupported regex feature for DFAs: cannot build DFAs for regexes with Unicode word "
      ++ "boundaries; switch to ASCII word boundaries, or heuristically enable Unicode word "
      ++ "boundaries or use a different regex engine"

/-- **What is wrong with a pattern.** -/
def flaw? (pattern : List Char) : Option Flaw :=
  match Draft.start.read pattern with
  | some d =>
    if !d.outer.isEmpty || depthLimit < d.group.depth then some .malformed
    else if d.wordEdge then some .wordEdge
    else none
  | none => some .malformed

end Pattern

end AgentSweep
