import AgentSweep.Pattern.Brackets
import AgentSweep.Text.Alphanumeric

/-!
# Groups in patterns

A group is a row of alternatives in round brackets, and the whole pattern is one too. An
alternative is a row of pieces. What follows the opening bracket may name the group or switch modes
for it; a pair of brackets with nothing but switches is no group, and switches modes for what is
left of the group around it.
-/

namespace AgentSweep

namespace Pattern

/-- **A piece of an alternative.** -/
inductive Piece where
  /-- Switches of modes, which are nothing that could be repeated. -/
  | switches
  /-- Anything else, with its depth. -/
  | part (depth : Nat)
deriving DecidableEq, Repr

/-- How deep a piece goes. -/
def Piece.depth : Piece → Nat
  | switches => 0
  | part depth => depth

/-- **A group that has not been closed.** -/
structure Group where
  mode : Mode
  /-- The depths of the alternatives before the last one. -/
  alternatives : List Nat
  /-- The pieces of the last alternative, from the last one to the first. -/
  pieces : List Piece

namespace Group

/-- A group of which nothing has been read. -/
def start (m : Mode) : Group := ⟨m, [], []⟩

/-- The group with one more piece. -/
def add (g : Group) (piece : Piece) : Group := { g with pieces := piece :: g.pieces }

/-- The group with its last piece repeated. -/
def repeat? (g : Group) : Option Group :=
  match g.pieces with
  | .part depth :: pieces => some { g with pieces := .part (1 + depth) :: pieces }
  | _ => none

/-- The group at the beginning of one more alternative. -/
def divide (g : Group) : Group :=
  { g with alternatives := rowDepth (g.pieces.map Piece.depth) :: g.alternatives, pieces := [] }

/-- The depth of the alternatives. -/
def depth (g : Group) : Nat := rowDepth g.divide.alternatives

end Group

/-! ## The beginning of a group -/

/-- **What an opening bracket may begin.** -/
inductive Opening where
  | group (mode : Mode) (name : Option (List Char))
  | switches (mode : Mode)

namespace Opening

/-- Whether characters are the name of a group. -/
def isName : List Char → Bool
  | [] => false
  | c :: rest =>
    (c = '_' || CharClass.alphabetic.holds c)
      && rest.all fun c => c ∈ ['_', '.', '[', ']'] || CharClass.isAlphanumeric c

/-- Reads a name up to its closing mark. -/
def scanName (m : Mode) (chars : List Char) : Option (Opening × List Char) :=
  match chars.dropWhile fun c => c != '>' with
  | [] => none
  | _ :: rest =>
    let name := chars.takeWhile fun c => c != '>'
    if isName name then some (group m (some name), rest) else none

/-- Reads switches up to the colon or the bracket after them. -/
def scanSwitches (m : Mode) (chars : List Char) : Option (Opening × List Char) :=
  match chars.dropWhile fun c => c != ':' && c != ')' with
  | [] => none
  | c :: rest =>
    let list := chars.takeWhile fun c => c != ':' && c != ')'
    if !Mode.areSwitches list then none
    else if c = ':' then some (group (m.switch list) none, rest)
    else if list.isEmpty then none
    else some (switches (m.switch list), rest)

/-- Reads what follows an opening bracket. -/
def scan (m : Mode) (chars : List Char) : Option (Opening × List Char) :=
  match m.skip chars with
  | '?' :: 'P' :: '<' :: rest => scanName m rest
  | '?' :: '<' :: rest => scanName m rest
  | '?' :: rest => scanSwitches m rest
  | rest => some (group m none, rest)

theorem length_scanName {m : Mode} {chars rest : List Char} {opening : Opening}
    (h : scanName m chars = some (opening, rest)) : rest.length ≤ chars.length := by
  have := (List.dropWhile_suffix (fun c => c != '>') (l := chars)).length_le
  unfold scanName at h
  grind

theorem length_scanSwitches {m : Mode} {chars rest : List Char} {opening : Opening}
    (h : scanSwitches m chars = some (opening, rest)) : rest.length ≤ chars.length := by
  have := (List.dropWhile_suffix (fun c => c != ':' && c != ')') (l := chars)).length_le
  unfold scanSwitches at h
  grind

theorem length_scan {m : Mode} {chars rest : List Char} {opening : Opening}
    (h : scan m chars = some (opening, rest)) : rest.length ≤ chars.length := by
  have hskip := m.length_skip chars
  have hname := @length_scanName m
  have hswitches := @length_scanSwitches m
  unfold scan at h
  grind

end Opening

end Pattern

end AgentSweep
