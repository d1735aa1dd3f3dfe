/-
Rows as records: a dictionary for each row, with the headers of the columns as keys.
-/
import BagAlgebra.Table.Cells

namespace BagAlgebra

/-- The record of a row: a tuple has an entry for each field, any other row a single one. -/
def record : Value → Value
  | .tuple items =>
    .dict (List.zipWith (fun header v => .mk (.text header) v) (columnHeaders items.length) items)
  | v => .dict [.mk (.text valueHeader) v]

/-- The records of rows. -/
def records {ε : Type} (rows : Value) : Run ε (List Value) := rows.forEach fun row => pure (record row)

end BagAlgebra
