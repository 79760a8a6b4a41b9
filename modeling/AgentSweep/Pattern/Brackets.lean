import AgentSweep.Pattern.Atom

/-!
# Brackets in patterns

A class in brackets is a row of items: atoms, ranges of characters, other classes in brackets, and
classes that have a name between colons. Such rows are the operands of the operators `&&`, `--`
and `~~`. After the opening bracket a circumflex negates the class, and hyphens and then a closing
bracket stand for themselves.

Of a class only its depth is kept. An item that holds no other one has depth 0; a row of several
items, an operator, and a pair of brackets each go one deeper than the deepest of what they hold.
-/

namespace AgentSweep

namespace Pattern

/-- How deep a row goes whose items have the given depths. -/
def rowDepth : List Nat → Nat
  | [] => 0
  | [depth] => depth
  | depths => 1 + depths.foldl max 0

namespace Brackets

/-- **A class whose closing bracket has not been read.** -/
structure Opened where
  /-- Whether nothing but hyphens has been read so far. -/
  fresh : Bool
  /-- The depths of the items of the operand that is being read. -/
  items : List Nat
  /-- The depth of what stands before the last operator, if there is one. -/
  before : Option Nat

/-- A class of which nothing has been read. -/
def Opened.start : Opened := ⟨true, [], none⟩

namespace Opened

/-- The class with one more item. -/
def add (o : Opened) (depth : Nat) : Opened := { o with fresh := false, items := depth :: o.items }

/-- Whether a character, which has a meaning of its own elsewhere, stands for itself at the
beginning of a class. -/
def isPlain (o : Opened) (c : Char) : Bool :=
  o.fresh && (c = '-' || (c = ']' && o.items.isEmpty))

/-- The class with such a character. -/
def addPlain (o : Opened) (c : Char) : Opened := { o.add 0 with fresh := c = '-' }

/-- The depth of all operands up to now. -/
def operandDepth (o : Opened) : Nat :=
  match o.before with
  | some depth => 1 + max depth (rowDepth o.items)
  | none => rowDepth o.items

/-- The class after an operator. -/
def operator (o : Opened) : Opened := ⟨false, [], some o.operandDepth⟩

/-- The depth of the class, brackets and all. -/
def depth (o : Opened) : Nat := 1 + o.operandDepth

end Opened

/-- The names of classes. -/
def names : List String :=
  ["alnum", "alpha", "ascii", "blank", "cntrl", "digit", "graph", "lower", "print", "punct",
    "space", "upper", "word", "xdigit"]

/-- The named class at the front, without its first bracket: whether it is negated, and what
follows it. -/
def scanNamed (chars : List Char) : Option (Bool × List Char) :=
  match chars with
  | ':' :: rest =>
    let negated := rest.head? == some '^'
    let rest := if negated then rest.drop 1 else rest
    let name := rest.takeWhile fun c => c != ':'
    match rest.dropWhile fun c => c != ':' with
    | ':' :: ']' :: rest =>
      if names.any fun n => n.toList == name then some (negated, rest) else none
    | _ => none
  | _ => none

/-- Whether a class may be negated. With Unicode off, it would then hold parts of characters. -/
def negationFits (m : Mode) (negated : Bool) : Bool := m.unicode || !negated

/-- The atom at the front, and what follows it. -/
def scanAtom (m : Mode) : List Char → Option (Atom × List Char)
  | [] => none
  | '\\' :: rest => Atom.scanEscape m rest
  | c :: rest => some (.char c false, rest)

/-- The next character but blanks. The first sign of a comment counts as a blank, the comment
itself does not. -/
def peek? (m : Mode) (chars : List Char) : Option Char :=
  if m.spaced then
    match chars.dropWhile CharClass.blank.holds with
    | '#' :: rest => (rest.dropWhile CharClass.blank.holds).head?
    | rest => rest.head?
  else chars.head?

/-- Whether two atoms are the ends of a range. -/
def areEnds : Atom → Atom → Bool
  | .char first _, .char last _ => first ≤ last
  | _, _ => false

/-- What follows the atom or the range at the front. A hyphen makes a range, unless a closing
bracket or another hyphen comes next. -/
def scanItem (m : Mode) (chars : List Char) : Option (List Char) :=
  match scanAtom m chars with
  | none => none
  | some (first, rest) =>
    if !first.fitsBrackets m then none
    else
      match m.skip rest with
      | '-' :: after =>
        if peek? m after = some ']' ∨ peek? m after = some '-' then some ('-' :: after)
        else
          match scanAtom m (m.skip after) with
          | some (last, rest) =>
            if last.fitsBrackets m && areEnds first last then some rest else none
          | none => none
      | rest => some rest

/-- What follows the circumflex at the front, if there is one that may be there. -/
def afterCircumflex (m : Mode) (chars : List Char) : Option (List Char) :=
  match m.skip chars with
  | '^' :: rest => if negationFits m true then some rest else none
  | rest => some rest

theorem length_scanNamed {chars rest : List Char} {negated : Bool}
    (h : scanNamed chars = some (negated, rest)) : rest.length < chars.length := by
  unfold scanNamed at h
  split at h
  · rename_i tail
    have hle : ∀ l : List Char, (l.dropWhile fun c => c != ':').length ≤ l.length :=
      fun l => (List.dropWhile_suffix _).length_le
    have hif : (if (tail.head? == some '^') = true then tail.drop 1 else tail).length
        ≤ tail.length := by
      split <;> simp
    have := hle (if (tail.head? == some '^') = true then tail.drop 1 else tail)
    grind
  · simp at h

theorem length_scanAtom {m : Mode} {chars rest : List Char} {atom : Atom}
    (h : scanAtom m chars = some (atom, rest)) : rest.length < chars.length := by
  unfold scanAtom at h
  split at h
  · simp at h
  · have := Atom.length_scanEscape h
    simp only [List.length_cons]
    omega
  · simp_all

theorem length_scanItem {m : Mode} {chars rest : List Char}
    (h : scanItem m chars = some rest) : rest.length < chars.length := by
  have hskip := m.length_skip
  have hatom := @length_scanAtom m
  unfold scanItem at h
  grind

theorem length_afterCircumflex {m : Mode} {chars rest : List Char}
    (h : afterCircumflex m chars = some rest) : rest.length ≤ chars.length := by
  have := m.length_skip chars
  unfold afterCircumflex at h
  grind

/-! ## Reading a class -/

/-- **How far reading has come.** -/
inductive Progress where
  /-- Some brackets are open: the innermost, and those around it. -/
  | opened (o : Opened) (outer : List Opened)
  /-- All brackets are closed. -/
  | closed (depth : Nat)

/-- **Reads one part of a class**, from its first character and what follows it. -/
def step (m : Mode) (o : Opened) (outer : List Opened) (c : Char) (rest : List Char) :
    Option (Progress × List Char) :=
  if o.isPlain c then
    if m.takesLetters then some (.opened (o.addPlain c) outer, rest) else none
  else if c = '[' then
    match scanNamed rest with
    | some (negated, rest) =>
      if m.takesLetters && negationFits m negated then some (.opened (o.add 0) outer, rest)
      else none
    | none => (afterCircumflex m rest).map fun rest => (.opened .start (o :: outer), rest)
  else if c = ']' then
    match outer with
    | [] => some (.closed o.depth, rest)
    | parent :: outer => some (.opened (parent.add o.depth) outer, rest)
  else if (c = '&' || c = '-' || c = '~') && rest.head? = some c then
    some (.opened o.operator outer, rest.drop 1)
  else (scanItem m (c :: rest)).map fun rest => (.opened (o.add 0) outer, rest)

theorem length_step {m : Mode} {o : Opened} {outer : List Opened} {c : Char}
    {rest rest' : List Char} {progress : Progress}
    (h : step m o outer c rest = some (progress, rest')) : rest'.length ≤ rest.length := by
  have hnamed := @length_scanNamed rest
  have hcircumflex := @length_afterCircumflex m rest
  have hitem := @length_scanItem m (c :: rest)
  have hdrop : (rest.drop 1).length ≤ rest.length := by simp
  unfold step at h
  grind [Option.map_eq_some_iff]

/-- **The depth of a class that is being read, and what follows its closing bracket.** -/
def scan (m : Mode) (o : Opened) (outer : List Opened) (chars : List Char) :
    Option (Nat × List Char) :=
  match _h : m.skip chars with
  | [] => none
  | c :: rest =>
    match _h : step m o outer c rest with
    | some (.opened o outer, rest) => scan m o outer rest
    | some (.closed depth, rest) => some (depth, rest)
    | none => none
termination_by chars.length
decreasing_by exact Mode.length_lt_of_skip ‹_› (length_step ‹_›)

theorem length_scan {m : Mode} {o : Opened} {outer : List Opened} {chars rest : List Char}
    {depth : Nat} (h : scan m o outer chars = some (depth, rest)) :
    rest.length < chars.length := by
  fun_induction scan m o outer chars with
  | case1 => simp at h
  | case2 o outer chars c tail hskip o' outer' tail' hs ih =>
    exact Nat.lt_trans (ih h) (Mode.length_lt_of_skip hskip (length_step hs))
  | case3 o outer chars c tail hskip depth' tail' hs =>
    obtain ⟨rfl, rfl⟩ : depth' = depth ∧ tail' = rest := by simpa using h
    exact Mode.length_lt_of_skip hskip (length_step hs)
  | case4 => simp at h

end Brackets

end Pattern

end AgentSweep
