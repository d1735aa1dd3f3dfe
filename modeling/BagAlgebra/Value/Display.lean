/-
The shown forms of values and expressions. A value has a full form, in which texts are quoted, and a
plain form, in which a text stands for itself. An expression is shown by the symbols of its
operators, with its callbacks by name and its terminals by their number of rows.
-/
import BagAlgebra.Number.Decimal
import BagAlgebra.Number.Numeral
import BagAlgebra.Text.Quoted
import BagAlgebra.Value.Basic

namespace BagAlgebra

/-! ## Callbacks -/

namespace Builtin

def name : Builtin → String
  | .str => "str"
  | .repr => "repr"
  | .len => "len"
  | .max => "max"
  | .min => "min"
  | .bool => "bool"

/-- Two of them are types, which a call makes a value of. -/
def isType : Builtin → Bool
  | .str | .bool => true
  | _ => false

end Builtin

namespace Callback

/-- The name that a function without a name of its own goes by. -/
def anonymousName : String := "<lambda>"

/-- The name that a callback bears; an object bears the text it shows. -/
def name : Callback → String
  | .builtin b => b.name
  | .always => "_always"
  | .function handle _ _ _ => handle.name

/-- The name that expressions and messages show. -/
def label : Callback → String
  | .function ⟨_, .object, name⟩ _ _ _ => name
  | f => if f.name = anonymousName then "λ" else f.name

/-- The full form. Functions are shown without their place in memory. -/
def repr : Callback → String
  | .builtin b =>
    if b.isType then "<class '" ++ b.name ++ "'>" else "<built-in function " ++ b.name ++ ">"
  | .function ⟨_, .object, name⟩ _ _ _ => name
  | f => "<function " ++ f.name ++ ">"

end Callback

/-! ## Expressions -/

namespace Expr

/-- The symbolic form of a tree. -/
def repr : Expr → String
  | .bare _ => "Bare"
  | .terminal rows => "Terminal[" ++ toString rows.length ++ "]"
  | .selection child predicate => "σ[" ++ predicate.label ++ "](" ++ child.repr ++ ")"
  | .projection child mapper => "π[" ++ mapper.label ++ "](" ++ child.repr ++ ")"
  | .join left right predicate _ =>
    "(" ++ left.repr ++ ")⋈[" ++ predicate.label ++ "](" ++ right.repr ++ ")"
  | .product left right _ => "(" ++ left.repr ++ ")×(" ++ right.repr ++ ")"
  | .union left right => "(" ++ left.repr ++ ")⋃(" ++ right.repr ++ ")"
  | .filter kind left right _ => "(" ++ left.repr ++ ")" ++ kind.symbol ++ "(" ++ right.repr ++ ")"
termination_by structural e => e

/-- The full form of a builder over a tree. -/
def builderRepr (e : Expr) : String := "ExpressionBuilder(expression=" ++ e.repr ++ ")"

end Expr

/-! ## Values -/

/-- Texts between separators. -/
def commaSeparated (texts : List String) : String := ", ".intercalate texts

mutual

/-- The full form of a value. -/
def Value.repr : Value → String
  | .null => "None"
  | .bool b => if b then "True" else "False"
  | .int n => toString n
  | .float x => x.text
  | .nan _ => "nan"
  | .text s => quoted s
  | .tuple items => match reprItems items with
    | [single] => "(" ++ single ++ ",)"
    | texts => "(" ++ commaSeparated texts ++ ")"
  | .list _ items => "[" ++ commaSeparated (reprItems items) ++ "]"
  | .dict entries => "\x7b" ++ commaSeparated (reprEntries entries) ++ "\x7d"
  | .generator _ _ => "<generator object>"
  | .range span =>
    let ends := toString span.start ++ ", " ++ toString span.stop
    "range(" ++ (if span.step = 1 then ends else ends ++ ", " ++ toString span.step) ++ ")"
  | .callable f => f.repr
  | .expr e => e.repr
  | .builder e => e.builderRepr
termination_by structural v => v

def reprItems : List Value → List String
  | [] => []
  | v :: vs => v.repr :: reprItems vs
termination_by structural vs => vs

def Entry.repr : Entry → String
  | .mk key value => key.repr ++ ": " ++ value.repr
termination_by structural e => e

def reprEntries : List Entry → List String
  | [] => []
  | e :: es => e.repr :: reprEntries es
termination_by structural es => es

end

mutual

/-- Whether no integer in the full form has more digits than text may have. -/
def Value.printable : Value → Bool
  | .int n => Numeral.fits n
  | .tuple items => printableItems items
  | .list _ items => printableItems items
  | .dict entries => printableEntries entries
  | .range span => Numeral.fits span.start && Numeral.fits span.stop && Numeral.fits span.step
  | _ => true
termination_by structural v => v

def printableItems : List Value → Bool
  | [] => true
  | v :: vs => v.printable && printableItems vs
termination_by structural vs => vs

def Entry.printable : Entry → Bool
  | .mk key value => key.printable && value.printable
termination_by structural e => e

def printableEntries : List Entry → Bool
  | [] => true
  | e :: es => e.printable && printableEntries es
termination_by structural es => es

end

namespace Value

/-- The full form, refused where an integer has too many digits. -/
def repr? (v : Value) : Except Fault String :=
  if v.printable then .ok v.repr else .error .badValue

/-- The plain form: a text itself, any other value in full. -/
def str? : Value → Except Fault String
  | .text s => .ok s
  | v => v.repr?

/-- The name of a value's type in messages. -/
def typeName : Value → String
  | .null => "NoneType"
  | .bool _ => "bool"
  | .int _ => "int"
  | .float _ => "float"
  | .nan _ => "float"
  | .text _ => "str"
  | .tuple _ => "tuple"
  | .list _ _ => "list"
  | .dict _ => "dict"
  | .generator _ _ => "generator"
  | .range _ => "range"
  | .callable (.builtin b) => if b.isType then "type" else "builtin_function_or_method"
  | .callable (.function ⟨_, .object, _⟩ _ _ _) => "CallableObject"
  | .callable _ => "function"
  | .expr e => e.operator.name
  | .builder _ => "ExpressionBuilder"

end Value

end BagAlgebra
