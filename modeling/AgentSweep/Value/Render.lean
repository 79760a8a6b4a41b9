import AgentSweep.Decimal.Shortest
import AgentSweep.World.Membership

/-!
# How values are shown

`print` shows a number in the fewest digits that read back as it, always in full, never with an
exponent; a whole number has no decimal point. A text stands for itself, a list stands in square
brackets with blanks between its items, and an agent or a set is described as it is in the world
at that moment.
-/

namespace AgentSweep

namespace Value

/-- **A number as `print` shows it.** Of two equally near decimals the larger one is shown. -/
def numberText (x : Float) : String :=
  let signed (negative : Bool) (text : String) := if negative then "-" ++ text else text
  match Binary64.ofFloat x with
  | .nan => "NaN"
  | .infinite negative => signed negative "inf"
  | .finite negative m q =>
    match (Decimal.shortest .up m q).positional with
    | (whole, []) => signed negative (String.ofList whole)
    | (whole, fraction) =>
      signed negative (String.ofList whole ++ "." ++ String.ofList fraction)

mutual

/-- **A value as `print` shows it.** -/
def render (w : World) : Value → String
  | nobody => "nobody"
  | number x => numberText x
  | boolean b => if b then "true" else "false"
  | text s => s
  | agent id => "(" ++ w.title id ++ ")"
  | agentset set => s!"(agentset, {set.count w} {set.kind.name}s)"
  | list items => "[" ++ " ".intercalate (renderAll w items) ++ "]"

/-- The items of a list as they are shown. -/
def renderAll (w : World) : List Value → List String
  | [] => []
  | item :: items => render w item :: renderAll w items

end

end Value

end AgentSweep
