/-
Rows as an aligned text table. A column is as wide as its longest text, within a limit; a text that is
too long is cut and ends in an ellipsis. The blanks at the end of a line are left out.
-/
import BagAlgebra.Table.Cells
import BagAlgebra.Text.Blank

namespace BagAlgebra

namespace Pretty

/-! ## Lines -/

def ellipsis : String := "…"

/-- The text that a column of a width shows of a cell. -/
def cut (width : Int) (cell : String) : String :=
  if width < cell.length then
    String.ofList (cell.toList.take (width - 1).toNat) ++ ellipsis
  else cell

/-- A text with blanks after it up to a width. -/
def pad (width : Int) (s : String) : String :=
  s ++ String.ofList (List.replicate (width - s.length).toNat ' ')

/-- A line of the table from its padded cells. -/
def joinCells (fields : List String) : String :=
  String.ofList (stripRight (" | ".intercalate fields).toList)

/-- The line under the headers. -/
def rule (widths : List Int) : String :=
  "-+-".intercalate (widths.map fun w => String.ofList (List.replicate w.toNat '-'))

/-- A line of cells that all are texts. -/
def line (widths : List Int) (row : List String) : String :=
  joinCells (List.zipWith (fun w s => pad w (cut w s)) widths row)

/-- The table of headers and rows, each as long as the widths. -/
def table (widths : List Int) (headers : List String) (rows : List (List String)) : String :=
  "\n".intercalate (line widths headers :: rule widths :: rows.map (line widths))

/-! ## Widths -/

/-- The widths of columns that hold one more row. -/
def widen (widths lengths : List Nat) : List Nat := List.zipWith max widths lengths

/-- A width within a limit. The limit may be any number; "not a number" limits nothing. -/
def capped (limit : Value) (width : Nat) : Except Fault Number :=
  match limit.int?, limit.number? with
  | some n, _ => .ok (.int (min (width : Int) n))
  | none, some n => .ok (if n.lt (.int width) then n else .int width)
  | none, none => .error .typeMismatch

/-- A width that a text can be padded to: an integer, and one that is not out of all bounds. -/
def usable : Number → Except Fault Int
  | .float _ => .error .typeMismatch
  | .int w => if w < -sizeLimit - 1 then .error .tooLarge else .ok w

/-! ## Rendering -/

variable {ε : Type}

/-- Refuses the first row that has not as many cells as there are headers. -/
def checkRow (headers : List Value) (shown : String) (row : List String) : Except Fault Unit :=
  if row.length = headers.length then .ok ()
  else .error (.headerMismatch (Value.list none (row.map .text)).repr shown)

/-- A header has to be a text: a collection can be measured, but neither cut nor padded. -/
def headerText (width : Number) (header : Value) (length : Nat) : Except Fault String :=
  match header with
  | .text s => (usable width).map fun _ => s
  | _ => .error (if width.lt (.int length) then .typeMismatch else .noField)

/-- The table of rows under headers, of which there is at least one. -/
def renderUnder (headers : List Value) (limit : Value) (rows : List (List String)) :
    Except Fault String := do
  let shown ← (Value.list none headers).repr?
  let lengths ← headers.mapM Value.length?
  rows.forM (checkRow headers shown)
  let widths := rows.foldl (fun ws row => widen ws (row.map String.length)) lengths
  let capped ← widths.mapM (capped limit)
  let texts ← ((capped.zip headers).zip lengths).mapM fun ((w, header), length) =>
    headerText w header length
  let widths ← capped.mapM usable
  return table widths texts rows

/-- The whole text. -/
def render (rows headers limit : Value) : Run ε String := do
  match rows.truthy, headers with
  | false, .null => return "(no rows)"
  | _, _ => do
    let headers ← headersInForce rows headers
    if headers.isEmpty then
      let count ← rows.length?
      return "(" ++ toString count ++ " rows, 0 columns)"
    else
      let body ← rows.forEach fun row => cells row
      renderUnder headers limit body

end Pretty

end BagAlgebra
