/-
Separated texts. For uniform rows that can be shown, the first line has the headers of their shape and
every other line the cells of a row.
-/
import BagAlgebra.Proofs.Table.Aligned
import BagAlgebra.Table.Csv

namespace BagAlgebra

namespace Csv

theorem line_texts (delimiter : String) (texts : List String) :
    line (.joins delimiter) (texts.map .text) = .ok (delimiter.intercalate texts) := by
  have h : (texts.map Value.text).mapM Value.text? = some texts := by
    induction texts with
    | nil => rfl
    | cons text texts ih =>
      rw [List.map_cons, List.mapM_cons, ih]
      rfl
  unfold line
  rw [h]

/-- A list of rows as separated text: the line of headers, then a line for each row, if all have a text. -/
theorem render_list {ε : Type} (cell : Option Nat) (rows : List Value) (headers : Value) (delimiter : String) :
    (render (.list cell rows) headers (.text delimiter) : Run ε String) = (do
      let headers ← headersInForce (.list cell rows) headers
      let head ← line (.joins delimiter) headers
      if rows.all Value.printable then
        return "\n".intercalate (head :: rows.map fun r => delimiter.intercalate (cellTexts r))
      else Run.fail .badValue) := by
  have hlines : ((Value.list cell rows).forEach fun r => do
        let texts ← (cells r : Run ε (List String))
        line (.joins delimiter) (texts.map .text)) =
      if rows.all Value.printable then pure (rows.map fun r => delimiter.intercalate (cellTexts r))
      else Run.fail .badValue := by
    simp only [line_texts]
    exact mapM_cells (fun texts => delimiter.intercalate texts) rows
  show (do
    let headers ← headersInForce (.list cell rows) headers
    let head ← line (.joins delimiter) headers
    let body ← (Value.list cell rows).forEach fun r => do
      let texts ← (cells r : Run ε (List String))
      line (.joins delimiter) (texts.map .text)
    return "\n".intercalate (head :: body)) = _
  rw [hlines]
  cases rows.all Value.printable <;> rfl

theorem render_uniform {ε : Type} (cell : Option Nat) {row : Value} {rows : List Value}
    (h : ∀ r ∈ row :: rows, r.shape = row.shape) (delimiter : String) :
    (render (.list cell (row :: rows)) .null (.text delimiter) : Run ε String) =
      if (row :: rows).all Value.printable then
        pure ("\n".intercalate (delimiter.intercalate row.shape.headers ::
          (row :: rows).map fun r => delimiter.intercalate (cellTexts r)))
      else Run.fail .badValue := by
  rw [render_list, Pretty.headersInForce_uniform cell h]
  cases (row :: rows).all Value.printable with
  | false => rfl
  | true =>
    rw [if_pos rfl, pure_bind, line_texts]
    rfl

end Csv

end BagAlgebra
