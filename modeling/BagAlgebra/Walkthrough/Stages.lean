/-
The walkthrough: one chain of operations over fixed relations, with every builder on the way. Rows
above a threshold are selected, projected to their names, multiplied, joined, united with further
rows and intersected with the expected ones.
-/
import BagAlgebra.Builder

namespace BagAlgebra

namespace Walkthrough

/-! ## Relations -/

def startRows : List Value :=
  [.tuple [.int 1, .text "a"], .tuple [.int 2, .text "b"], .tuple [.int 3, .text "c"]]

def productRows : List Value := [.int 1, .int 2]

def joinRows : List Value := [.tuple [.int 1, .text "Join1"], .tuple [.int 2, .text "Join2"]]

def unionRows : List Value := [.tuple [.text "d", .int 3, .text "Union"]]

def intersectRows : List Value :=
  [.tuple [.text "c", .int 1, .text "Join1"], .tuple [.text "c", .int 2, .text "Join2"],
   .tuple [.text "d", .int 3, .text "Union"], .tuple [.text "e", .int 4, .text "Removed"]]

/-- The relations by name. -/
def relations : List (String × List Value) :=
  [("Start", startRows), ("Product", productRows), ("Join", joinRows), ("Union", unionRows),
   ("Intersect", intersectRows)]

/-! ## Callbacks -/

/-- The element of an argument at a position. -/
def field (name : String) (position : Nat) : Code :=
  .item (.argument name) (.literal (.int position))

/-- A function without a name. -/
def function {ε : Type} (params : List String) (body : Code) (captured : List Value) :
    Run ε Value := do
  let serial ← Run.fresh
  return .callable (.function ⟨serial, .named, Callback.anonymousName⟩ (params.map .required) body
    captured)

/-- Whether the first field of a row is above the threshold. -/
def aboveThreshold {ε : Type} (threshold : Value) : Run ε Value :=
  function ["x"] (.binary (.order .gt) (field "x" 0) (.literal (.captured 0))) [threshold]

/-- The second field of a row. -/
def secondField {ε : Type} : Run ε Value := function ["x"] (field "x" 1) []

/-- Both rows as a pair. -/
def pairUp {ε : Type} : Run ε Value :=
  function ["x", "y"] (.tuple [.argument "x", .argument "y"]) []

/-- Whether the second field of the left row is the first of the right. -/
def sameNumber {ε : Type} : Run ε Value :=
  function ["x", "y"] (.binary .eq (field "x" 1) (field "y" 0)) []

/-- The first field of the left row and both fields of the right. -/
def nameAndFields {ε : Type} : Run ε Value :=
  function ["x", "y"] (.tuple [field "x" 0, field "y" 0, field "y" 1]) []

/-! ## The chain -/

/-- A builder on the way, with its label. -/
structure Stage where
  label : String
  builder : Builder

/-- Every stage of the chain. -/
def stages {ε : Type} (threshold strategy : Value) : Run ε (List Stage) := do
  let start ← Builder.fromRows (.list none startRows)
  let thresholdText ← threshold.str?
  let selected ← start.select (← aboveThreshold threshold)
  let projected ← selected.project (← secondField)
  let multiplied ← projected.product (.list none productRows) (← pairUp)
  let joined ← multiplied.join (.list none joinRows) (← sameNumber) (← nameAndFields)
  let united ← joined.union (.list none unionRows)
  let expected ← united.filter .intersection (.list none intersectRows) strategy
  return [⟨"Terminal", start⟩, ⟨"σ x.0 > " ++ thresholdText, selected⟩, ⟨"π x.1", projected⟩,
    ⟨"× [1, 2]", multiplied⟩, ⟨"⋈ x.1 = y.0", joined⟩, ⟨"⋃ Union rows", united⟩,
    ⟨"∩ Expected rows", expected⟩]

/-- A stage with its shown expression and its rows. -/
structure StageReport where
  label : String
  expression : String
  rows : List Value

/-- Every stage, evaluated one after the other. -/
def report (threshold strategy : Value) : Eval (List StageReport) := do
  (← stages threshold strategy).mapM fun stage => do
    return ⟨stage.label, stage.builder.expression.repr, ← stage.builder.eval⟩

end Walkthrough

end BagAlgebra
