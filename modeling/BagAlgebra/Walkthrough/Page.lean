/-
The page of the walkthrough. It shows the relations and asks for a threshold and a strategy; when the
button is pressed it evaluates the chain and shows the result and every stage, or the fault that
stopped it.
-/
import BagAlgebra.Number.Numeral
import BagAlgebra.Table.Csv
import BagAlgebra.Table.Pretty
import BagAlgebra.Table.Records
import BagAlgebra.Walkthrough.Call
import BagAlgebra.Walkthrough.Stages

namespace BagAlgebra

namespace Walkthrough

/-- What the page remembers: the choices made so far. -/
structure Choices where
  threshold? : Option Value
  strategy? : Option Value

namespace Choices

def threshold (choices : Choices) : Value := choices.threshold?.getD (.int 1)

def strategy (choices : Choices) : Value := choices.strategy?.getD (.text Strategy.hash.name)

/-- The choices with those that are missing made. -/
def settled (choices : Choices) : Choices := ⟨some choices.threshold, some choices.strategy⟩

end Choices

/-! ## Conversion -/

/-- A value as an integer: numbers lose what is after the point, texts are read as numerals. -/
def toInteger : Value → Except Fault Int
  | .bool b => .ok (if b then 1 else 0)
  | .int n => .ok n
  | .float x =>
    match x.quantity with
    | .rational q => .ok (Binary64.truncate q)
    | .infinite _ => .error .tooLarge
  | .nan _ => .error .badValue
  | .text s =>
    match Numeral.parse? s with
    | some n => .ok n
    | none => .error .badValue
  | _ => .error .typeMismatch

/-! ## Parts -/

def textLanguage : String := "text"

/-- A text shown as it is. -/
def showCode (text : String) : Render Unit := Render.call (.code text textLanguage)

/-- Rows as an aligned table with made-up headers, cut at twenty-four characters. -/
def pretty {ε : Type} (rows : List Value) : Run ε String :=
  Pretty.render (.list none rows) .null (.int 24)

/-- Rows as text between commas with made-up headers. -/
def csv {ε : Type} (rows : List Value) : Run ε String :=
  Csv.render (.list none rows) .null (.text ",")

/-- The page above the button. -/
def showInputs : Render Unit := do
  Render.call (.title "🧮 RA Evaluator — Builder Walkthrough")
  Render.call (.write ("Builds one expression with the fluent builder, one operation at a time, and "
    ++ "evaluates every intermediate stage. Supports σ (select), π (project), × (product), "
    ++ "⋈ (join), ⋃, ∩, −."))
  Render.call (.columns [1, 1] "large")
  Render.within (.column 0) do
    Render.call (.numberInput "Selection threshold" 1 "threshold"
      "Rows with x.0 above this value are kept.")
  Render.within (.column 1) do
    Render.call (.selectBox "Intersection strategy" [Strategy.hash.name, Strategy.scan.name]
      "strategy")
  Render.call (.expander "📚 Input relations")
  Render.within .expander do
    relations.forM fun (name, rows) => do
      Render.call (.markdown ("**" ++ name ++ "** — _rows: " ++ toString rows.length ++ "_"))
      showCode (← pretty rows)

/-- The rows of the result. -/
def showTable (rows : List Value) : Render Unit := do
  if rows.isEmpty then Render.call (.info "Empty result set.")
  else
    Render.call (.table (← records (.list none rows)))
    Render.call (.download "Download CSV" (← csv rows) "result.csv" "text/csv")

/-- A stage: its label, its expression and its rows. -/
def showStage (stage : Stage) : Render Unit := do
  Render.call (.markdown ("**" ++ stage.label ++ "**"))
  showCode stage.builder.expression.repr
  showCode (← pretty (← Render.engine stage.builder.eval))

/-- The chain, its result and its stages. -/
def showChain (choices : Choices) : Render Unit := do
  let threshold ← toInteger choices.threshold
  let stages ← stages (.int threshold) choices.strategy
  let rows ← match stages.getLast? with
    | some stage => Render.engine stage.builder.eval
    | none => pure []
  Render.call (.success "Expression evaluated successfully!")
  Render.call (.tabs ["Result Table", "Result Text", "Stages"])
  Render.within (.tab 0) (showTable rows)
  Render.within (.tab 1) do showCode (← pretty rows)
  Render.within (.tab 2) (stages.forM showStage)

/-- How faults of the algebra are introduced. -/
def faultName : FaultKind → String
  | .expression => "ExpressionError"
  | .schema => "SchemaError"
  | _ => "RelAlgError"

/-- Shows a fault: those of the algebra with their message, all others by kind. -/
def showFault (fault : Fault) : Render Unit :=
  if fault.kind.isAlgebra then
    Render.call (.error (faultName fault.kind ++ ": " ++ fault.text))
  else Render.call (.fault fault.kind)

/-- The whole page. -/
def page (choices : Choices) (pressed : Bool) : Render Unit := do
  Render.call (.configure "RA Evaluator: Builder Walkthrough" "🧮" "wide")
  showInputs
  Render.call (.button "▶️ Run" "primary")
  if pressed then
    match ← (showChain choices).attempt with
    | .ok () => return
    | .error fault => showFault fault
  else Render.call (.info "Press Run to evaluate the chain.")

/-- A visit to the page: the choices that are missing are made, and all are remembered. -/
def visit (choices : Choices) (pressed : Bool) : Render Choices := do
  page choices.settled pressed
  return choices.settled

end Walkthrough

end BagAlgebra
