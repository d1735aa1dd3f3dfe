/-
The cells of rows and the headers of a table. A tuple has a cell for each field, any other row a
single one. Where no headers are given they are made up from the widest row.
-/
import BagAlgebra.Value.Display
import BagAlgebra.Value.Sequence

namespace BagAlgebra

/-- The cell texts of a row. -/
def cells (row : Value) : Except Fault (List String) :=
  match row with
  | .tuple items => items.mapM Value.str?
  | v => do return [← v.str?]

/-- The header of a table whose rows are no tuples. -/
def valueHeader : String := "value"

/-- The header of the column at a position. -/
def columnHeader (i : Nat) : String := "c" ++ toString i

/-- The headers of the first columns. -/
def columnHeaders (count : Nat) : List String := (List.range count).map columnHeader

variable {ε : Type}

/-- The greatest of some widths; there must be one. -/
def greatest : List Nat → Except Fault Nat
  | [] => .error .badValue
  | n :: ns => .ok (ns.foldl max n)

/-- The headers made up for rows: a single column is called by its value if the first row is no
tuple, else columns are numbered. -/
def madeUpHeaders (rows : Value) : Run ε (List String) := do
  if !rows.truthy then return []
  else
    let widths ← rows.forEach fun row => do return (← cells row).length
    let width ← greatest widths
    if width = 1 then
      let first ← rows.item (.int 0)
      return if first.isTuple then columnHeaders width else [valueHeader]
    else return columnHeaders width

/-- The headers in force: those given, unless null, or else the ones made up. -/
def headersInForce (rows headers : Value) : Run ε (List Value) :=
  match headers with
  | .null => do return (← madeUpHeaders rows).map .text
  | given => given.collect

end BagAlgebra
