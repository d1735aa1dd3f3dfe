/-
Values: what rows are made of. Beside plain data there are objects that are told apart by identity
(lists, generators, functions, "not a number"), and expressions and builders are values too, so
values, callbacks and expressions are defined together.
-/
import BagAlgebra.Callback.Code
import BagAlgebra.Number.Arithmetic
import BagAlgebra.Value.Span

namespace BagAlgebra

/-- The callbacks that come with the library. -/
inductive Builtin where
  | str
  | repr
  | len
  | max
  | min
  | bool
deriving DecidableEq

/-- How a function is known: by a name, by a name while its signature cannot be inspected, or as an
object that only shows a text. -/
inductive Form where
  | named
  | uninspectable
  | object
deriving DecidableEq

/-- What tells a function from every other: its serial number, with the name or text it shows. -/
structure Handle where
  serial : Nat
  form : Form
  name : String
deriving DecidableEq

mutual

/-- A dynamic value. -/
inductive Value where
  | null
  | bool (b : Bool)
  | int (n : Int)
  | float (x : Binary64)
  /-- "Not a number"; each one made is an object of its own. -/
  | nan (serial : Nat)
  | text (s : String)
  | tuple (items : List Value)
  /-- A list. Those that a script can get hold of have a cell, under which they can be changed. -/
  | list (cell : Option Nat) (items : List Value)
  | dict (entries : List Entry)
  /-- Gives each of its items once; the store knows how many it has given. -/
  | generator (serial : Nat) (items : List Value)
  | range (span : Span)
  | callable (callback : Callback)
  | expr (expression : Expr)
  | builder (expression : Expr)

/-- A key of a dictionary and its value. -/
inductive Entry where
  | mk (key value : Value)

/-- A predicate or mapper. -/
inductive Callback where
  | builtin (b : Builtin)
  /-- The predicate that holds of every pair of rows. -/
  | always
  /-- A function with the values that its defaults and its body mention. -/
  | function (handle : Handle) (params : List Param) (body : Code) (captured : List Value)

/-- A tree of operators. -/
inductive Expr where
  /-- The common base of the operators, an object without meaning of its own. -/
  | bare (serial : Nat)
  | terminal (rows : List Value)
  | selection (child : Expr) (predicate : Callback)
  | projection (child : Expr) (mapper : Callback)
  | join (left right : Expr) (predicate mapper : Callback)
  | product (left right : Expr) (mapper : Callback)
  | union (left right : Expr)
  | filter (kind : FilterKind) (left right : Expr) (strategy : Strategy)

end

namespace Entry

def key : Entry → Value
  | .mk key _ => key

def value : Entry → Value
  | .mk _ value => value

end Entry

namespace Expr

def operator : Expr → Operator
  | .bare _ => .bare
  | .terminal _ => .terminal
  | .selection .. => .selection
  | .projection .. => .projection
  | .join .. => .join
  | .product .. => .product
  | .union .. => .union
  | .filter kind .. => .filter kind

/-- The inner join of a product: its two sides under the predicate that always holds. -/
def joiner? : Expr → Option Expr
  | .product left right mapper => some (.join left right .always mapper)
  | _ => none

end Expr

namespace Value

/-- A value as a number; the truth values count as zero and one. -/
def number? : Value → Option Number
  | .bool b => some (.int (if b then 1 else 0))
  | .int n => some (.int n)
  | .float x => some (.float (some x))
  | .nan _ => some (.float none)
  | _ => none

/-- The exact value of a number, "not a number" apart. -/
def quantity? (v : Value) : Option Quantity := v.number?.bind Number.quantity

/-- A value as an integer; the truth values count as zero and one. -/
def int? : Value → Option Int
  | .bool b => some (if b then 1 else 0)
  | .int n => some n
  | _ => none

def text? : Value → Option String
  | .text s => some s
  | _ => none

def isTuple : Value → Bool
  | .tuple _ => true
  | _ => false

def isNan : Value → Bool
  | .nan _ => true
  | _ => false

/-- Whether a value is data that holds no object with an identity. -/
def isPlain : Value → Bool
  | .null => true
  | .bool _ => true
  | .int _ => true
  | .float _ => true
  | .text _ => true
  | .callable (.builtin _) => true
  | _ => false

/-- False are null, zeros, and whatever is empty. -/
def truthy : Value → Bool
  | .null => false
  | .bool b => b
  | .int n => n != 0
  | .float x => !x.isZero
  | .text s => !s.isEmpty
  | .tuple items => !items.isEmpty
  | .list _ items => !items.isEmpty
  | .dict entries => !entries.isEmpty
  | .range span => span.length != 0
  | _ => true

end Value

end BagAlgebra
