/-
What predicates and mappers are written in: a list of parameters and a body. A body is closed code:
the values from outside that it mentions, and those of defaults, are captured and named by their slot.
-/
import BagAlgebra.Fault
import BagAlgebra.Number.Binary64

namespace BagAlgebra

/-- One item of a parameter list. -/
inductive Param where
  /-- A parameter that every call gives. -/
  | required (name : String)
  /-- A parameter with a default, which is the captured value at a slot. -/
  | defaulted (name : String) (slot : Nat)
  /-- Takes the surplus of positional arguments. -/
  | rest (name : String)
  /-- Takes the surplus of named arguments. -/
  | extra (name : String)
  /-- Parameters before this mark are positional only. -/
  | positionalMark
  /-- Parameters after this mark are named only. -/
  | namedMark
deriving DecidableEq

mutual

/-- Data as a body writes it down. -/
inductive Literal where
  | null
  | bool (b : Bool)
  | int (n : Int)
  | float (x : Binary64)
  /-- "Not a number". -/
  | nan
  | text (s : String)
  | tuple (items : List Literal)
  | list (items : List Literal)
  | dict (entries : List LiteralEntry)
  | generator (items : List Literal)
  | range (arguments : List Literal)
  /-- The captured value at a slot. -/
  | captured (slot : Nat)

/-- A key of a dictionary and its value. -/
inductive LiteralEntry where
  | mk (key value : Literal)

end

/-- Comparisons by order. -/
inductive Relation where
  | lt
  | le
  | gt
  | ge
deriving DecidableEq

/-- Operations on two operands that are both evaluated. -/
inductive BinaryOp where
  | eq
  | ne
  | order (relation : Relation)
  | add
  | sub
  | mul
  | floorDiv
  | floorMod
deriving DecidableEq

/-- The body of a callback. -/
inductive Code where
  | argument (name : String)
  | literal (data : Literal)
  | tuple (items : List Code)
  | list (items : List Code)
  | item (container index : Code)
  | length (operand : Code)
  | str (operand : Code)
  | not (operand : Code)
  | neg (operand : Code)
  | binary (op : BinaryOp) (a b : Code)
  /-- The first operand if it is false, else the second. -/
  | and (a b : Code)
  /-- The first operand if it is true, else the second. -/
  | or (a b : Code)
  | choose (condition a b : Code)
  | raise (kind : FaultKind) (text : String)
  /-- Logs the value of the operand under a label and gives it. -/
  | trace (label : String) (operand : Code)

end BagAlgebra
