/-
Lists that can be changed. A list is known by its cell; to change it is to replace its items wherever
the cell occurs, inside rows, captured values and trees as well.
-/
import BagAlgebra.Value.Basic

namespace BagAlgebra

mutual

/-- The value with other items in the list of a cell. -/
def Value.replaceCell (cell : Nat) (items : List Value) : Value → Value
  | .tuple vs => .tuple (replaceCellItems cell items vs)
  | .list c vs =>
    if c = some cell then .list c items else .list c (replaceCellItems cell items vs)
  | .dict es => .dict (replaceCellEntries cell items es)
  | .generator serial vs => .generator serial (replaceCellItems cell items vs)
  | .callable f => .callable (f.replaceCell cell items)
  | .expr e => .expr (e.replaceCell cell items)
  | .builder e => .builder (e.replaceCell cell items)
  | v => v
termination_by structural v => v

def replaceCellItems (cell : Nat) (items : List Value) : List Value → List Value
  | [] => []
  | v :: vs => v.replaceCell cell items :: replaceCellItems cell items vs
termination_by structural vs => vs

def Entry.replaceCell (cell : Nat) (items : List Value) : Entry → Entry
  | .mk key value => .mk (key.replaceCell cell items) (value.replaceCell cell items)
termination_by structural e => e

def replaceCellEntries (cell : Nat) (items : List Value) : List Entry → List Entry
  | [] => []
  | e :: es => e.replaceCell cell items :: replaceCellEntries cell items es
termination_by structural es => es

def Callback.replaceCell (cell : Nat) (items : List Value) : Callback → Callback
  | .function handle params body captured =>
    .function handle params body (replaceCellItems cell items captured)
  | f => f
termination_by structural f => f

def Expr.replaceCell (cell : Nat) (items : List Value) : Expr → Expr
  | .bare serial => .bare serial
  | .terminal rows => .terminal (replaceCellItems cell items rows)
  | .selection child p => .selection (child.replaceCell cell items) (p.replaceCell cell items)
  | .projection child f => .projection (child.replaceCell cell items) (f.replaceCell cell items)
  | .join left right p f =>
    .join (left.replaceCell cell items) (right.replaceCell cell items) (p.replaceCell cell items)
      (f.replaceCell cell items)
  | .product left right f =>
    .product (left.replaceCell cell items) (right.replaceCell cell items) (f.replaceCell cell items)
  | .union left right => .union (left.replaceCell cell items) (right.replaceCell cell items)
  | .filter kind left right strategy =>
    .filter kind (left.replaceCell cell items) (right.replaceCell cell items) strategy
termination_by structural e => e

end

end BagAlgebra
