/-
The check that rows share one shape: within one list, where the first row sets the shape, and between
the two sides of an operator, where an empty side goes with any other.
-/
import BagAlgebra.Value.Display

namespace BagAlgebra

/-- The shape of a row. -/
def Value.shape : Value → Shape
  | .tuple items => .fields items.length
  | _ => .scalar

/-- Refuses the first row whose shape is not the expected one. -/
def requireShape (location : Location) (expected : Shape) : List Value → Except Fault Unit
  | [] => .ok ()
  | row :: rows =>
    if row.shape = expected then requireShape location expected rows
    else do .error (.mixedRow location (← row.repr?) row.shape expected)

/-- The common shape of rows; none if there are no rows. -/
def commonShape (location : Location) : List Value → Except Fault (Option Shape)
  | [] => .ok none
  | row :: rows => do
    requireShape location row.shape rows
    return some row.shape

/-- Refuses two sides that do not share one shape. -/
def requireSharedShape (operator : Operator) (left right : List Value) : Except Fault Unit := do
  match ← commonShape (.leftOf operator) left, ← commonShape (.rightOf operator) right with
  | some l, some r => if l = r then return else .error (.shapeMismatch operator l r)
  | _, _ => return

end BagAlgebra
