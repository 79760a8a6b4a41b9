/-!
# Names with values

A small finite map from names to values, kept as a list of pairs in the order in which the names
were first bound. Binding a name again replaces its value in place. The laws `get?_insert`,
`get?_modify` and `get?_adjust` say all that other modules use.
-/

namespace AgentSweep

/-- **Names with values**, in the order in which the names were first bound. -/
structure Bindings (α : Type) where
  entries : List (String × α)

namespace Bindings

variable {α : Type}

/-- No names. -/
def empty : Bindings α := ⟨[]⟩

instance : Inhabited (Bindings α) := ⟨empty⟩

/-- The value in the first pair with a given name. -/
def find (name : String) : List (String × α) → Option α
  | [] => none
  | (key, value) :: rest => if key = name then some value else find name rest

/-- The value of a name. -/
def get? (b : Bindings α) (name : String) : Option α :=
  find name b.entries

/-- Puts `f` of the old value, if there is one, in the place of that value, and a new pair at the
end otherwise. -/
def bind (name : String) (f : Option α → α) : List (String × α) → List (String × α)
  | [] => [(name, f none)]
  | (key, value) :: rest =>
    if key = name then (key, f (some value)) :: rest
    else (key, value) :: bind name f rest

/-- Changes the value in the first pair with a given name, if there is one. -/
def change (name : String) (f : α → α) : List (String × α) → List (String × α)
  | [] => []
  | (key, value) :: rest =>
    if key = name then (key, f value) :: rest else (key, value) :: change name f rest

/-- Binds a name to a function of its old value. -/
def modify (b : Bindings α) (name : String) (f : Option α → α) : Bindings α :=
  ⟨bind name f b.entries⟩

/-- Binds a name to a value, whatever it was bound to before. -/
def insert (b : Bindings α) (name : String) (value : α) : Bindings α :=
  b.modify name fun _ => value

/-- Changes the value of a name that is bound, and nothing else. -/
def adjust (b : Bindings α) (name : String) (f : α → α) : Bindings α :=
  ⟨change name f b.entries⟩

/-- The names, in the order in which they were first bound. -/
def names (b : Bindings α) : List String := b.entries.map Prod.fst

@[simp] theorem get?_empty (name : String) : (empty : Bindings α).get? name = none := rfl

theorem find_bind (name key : String) (f : Option α → α) (l : List (String × α)) :
    find key (bind name f l) = if key = name then some (f (find name l)) else find key l := by
  induction l with
  | nil => simp only [bind, find]; grind
  | cons p rest ih => simp only [bind, find]; grind [find]

theorem find_change (name key : String) (f : α → α) (l : List (String × α)) :
    find key (change name f l) = if key = name then (find name l).map f else find key l := by
  induction l with
  | nil => simp [change, find]
  | cons p rest ih => simp only [change, find]; grind [find]

theorem get?_modify (b : Bindings α) (name key : String) (f : Option α → α) :
    (b.modify name f).get? key
      = if key = name then some (f (b.get? name)) else b.get? key :=
  find_bind name key f b.entries

theorem get?_insert (b : Bindings α) (name key : String) (value : α) :
    (b.insert name value).get? key = if key = name then some value else b.get? key :=
  get?_modify b name key fun _ => value

theorem get?_adjust (b : Bindings α) (name key : String) (f : α → α) :
    (b.adjust name f).get? key = if key = name then (b.get? name).map f else b.get? key :=
  find_change name key f b.entries

end Bindings

end AgentSweep
