/-
Rows as delimiter-separated text: a line of headers, then a line for each row. Nothing is quoted.
-/
import BagAlgebra.Table.Cells

namespace BagAlgebra

namespace Csv

variable {ε : Type}

/-- How a value serves as a delimiter: a text joins, some values only seem to, others cannot. -/
inductive Delimiter where
  | joins (text : String)
  | refuses
deriving DecidableEq

/-- The delimiter that a value stands for. The type of texts and a builder have a joining operation
too, but it refuses a list of texts. -/
def delimiter? : Value → Option Delimiter
  | .text s => some (.joins s)
  | .callable (.builtin .str) => some .refuses
  | .builder _ => some .refuses
  | _ => none

/-- One line: texts with a delimiter between them. -/
def line (delimiter : Delimiter) (fields : List Value) : Except Fault String :=
  match delimiter, fields.mapM Value.text? with
  | .joins d, some texts => .ok (d.intercalate texts)
  | _, _ => .error .typeMismatch

/-- The whole text. -/
def render (rows headers delimiter : Value) : Run ε String := do
  match delimiter? delimiter with
  | none => Run.fail .noField
  | some d => do
    let headers ← headersInForce rows headers
    let head ← line d headers
    let body ← rows.forEach fun row => do
      let texts ← cells row
      line d (texts.map .text)
    return "\n".intercalate (head :: body)

end Csv

end BagAlgebra
