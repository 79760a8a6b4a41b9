/-!
# Kinds of agents

An agent is the observer, a turtle, a patch or a link. A set of kinds is a `KindMask`: one bit for
each kind in an eight-bit word. A mask says which agents may run a procedure, and it is the type
tag under which code runs. The four upper bits belong to no kind; a mask read from outside may
carry them, and they take part in `union`, `contains` and `intersects` like the others.
-/

namespace AgentSweep

/-- What an agent is. -/
inductive Kind where
  | observer
  | turtle
  | patch
  | link
deriving DecidableEq, Repr

/-- **A set of kinds**, as a word with one bit for each kind. -/
structure KindMask where
  bits : UInt8
deriving DecidableEq, Repr

namespace KindMask

/-- No kind. -/
def none : KindMask := ⟨0⟩

/-- Every kind. -/
def all : KindMask := ⟨15⟩

instance : Inhabited KindMask := ⟨none⟩

/-- The bits of either mask. -/
def union (a b : KindMask) : KindMask := ⟨a.bits ||| b.bits⟩

/-- Whether every bit of `b` is set in `a`. -/
def contains (a b : KindMask) : Bool := a.bits &&& b.bits == b.bits

/-- Whether the two masks share a bit. -/
def intersects (a b : KindMask) : Bool := a.bits &&& b.bits != 0

end KindMask

namespace Kind

/-- The kinds in the order of their bits, which is the order in which a mask lists them. -/
def all : List Kind := [.observer, .turtle, .patch, .link]

/-- The name of a kind, as it stands in messages. -/
def name : Kind → String
  | .observer => "observer"
  | .turtle => "turtle"
  | .patch => "patch"
  | .link => "link"

/-- The mask that holds this kind alone. -/
def mask : Kind → KindMask
  | .observer => ⟨1⟩
  | .turtle => ⟨2⟩
  | .patch => ⟨4⟩
  | .link => ⟨8⟩

/-- The kind with a given name. -/
def ofName? (name : String) : Option Kind :=
  all.find? fun kind => kind.name == name

theorem mem_all (kind : Kind) : kind ∈ all := by
  cases kind <;> simp [all]

@[simp] theorem ofName?_name (kind : Kind) : ofName? kind.name = some kind := by
  cases kind <;> rfl

end Kind

namespace KindMask

/-- The kinds in a mask; bits that belong to no kind are passed over. -/
def kinds (m : KindMask) : List Kind :=
  Kind.all.filter fun kind => m.contains kind.mask

/-- The names of the kinds in a mask with a stroke between them, such as `turtle/link`. -/
def names (m : KindMask) : String :=
  "/".intercalate (m.kinds.map Kind.name)

@[simp] theorem kinds_mask (kind : Kind) : kind.mask.kinds = [kind] := by
  cases kind <;> decide

end KindMask

end AgentSweep
