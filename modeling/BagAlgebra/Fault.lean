/-
Everything that can go wrong, by cause. A fault has a kind, and those of the algebra and of callbacks
carry a message.
-/
import BagAlgebra.Operator
import BagAlgebra.Row.Shape

namespace BagAlgebra

/-- The kinds of fault. The algebra's own are the general one and its two special cases; a callback
may raise some of the others. -/
inductive FaultKind where
  | algebra
  | expression
  | schema
  | user
  | type
  | value
  | index
  | key
  | attribute
  | zeroDivision
  | overflow
  | memory
  | notImplemented
  | frozen
  | unbound
deriving DecidableEq

/-- A fault and its cause. Texts in it are the shown forms of the values concerned. -/
inductive Fault where
  /-- A part that has to be an expression is a value of another type. -/
  | notExpression (construct : Construct) (role : Role) (found : String)
  /-- A part that has to be callable is not. -/
  | notCallable (operator : Operator) (role : Role) (found : String)
  /-- The signature of a callback does not accept the rows it will be given. -/
  | badArity (operator : Operator) (role : Role) (callback : String) (rows : Nat)
  /-- A filter strategy that is neither of the two. -/
  | unknownStrategy (operator : Operator) (shown : String)
  /-- A row whose shape differs from that of the first row. -/
  | mixedRow (location : Location) (row : String) (found expected : Shape)
  /-- The rows of the two sides have different shapes. -/
  | shapeMismatch (operator : Operator) (left right : Shape)
  /-- A row of a table has not as many cells as there are headers. -/
  | headerMismatch (row headers : String)
  /-- Raised by a callback. -/
  | raised (kind : FaultKind) (text : String)
  /-- An operation met a value of a type that it is not for, or a call does not fit. -/
  | typeMismatch
  /-- A value of the right type that the operation has no answer for. -/
  | badValue
  /-- A position outside a sequence. -/
  | badIndex
  /-- A key or a name that is not there. -/
  | missingKey
  /-- A value has no part or operation of that name. -/
  | noField
  | divisionByZero
  /-- A number past the range of its format. -/
  | tooLarge
  /-- A sequence past what can be stored. -/
  | tooLong
  /-- The bare expression has no rows. -/
  | notImplemented
  /-- Nodes and builders cannot be changed. -/
  | frozen
  /-- A script names a value that was never bound. -/
  | unbound
deriving DecidableEq

namespace FaultKind

/-- Whether a kind is the algebra's general kind or one of its special cases. -/
def isAlgebra : FaultKind → Bool
  | .algebra | .expression | .schema => true
  | _ => false

/-- Whether faults of a kind show a message. -/
def hasMessage (kind : FaultKind) : Bool := kind.isAlgebra || kind == .user

end FaultKind

namespace Fault

def kind : Fault → FaultKind
  | .notExpression .. | .notCallable .. | .badArity .. | .unknownStrategy .. => .expression
  | .mixedRow .. | .shapeMismatch .. | .headerMismatch .. => .schema
  | .raised kind _ => kind
  | .typeMismatch => .type
  | .badValue => .value
  | .badIndex => .index
  | .missingKey => .key
  | .noField => .attribute
  | .divisionByZero => .zeroDivision
  | .tooLarge => .overflow
  | .tooLong => .memory
  | .notImplemented => .notImplemented
  | .frozen => .frozen
  | .unbound => .unbound

/-- The text of a fault; empty for a cause that has no wording of its own. -/
def text : Fault → String
  | .notExpression construct role found =>
    construct.name ++ ": " ++ role.name ++ " must be an Expression, got " ++ found
  | .notCallable operator role found =>
    operator.name ++ ": " ++ role.name ++ " must be callable, got " ++ found
  | .badArity operator role callback rows =>
    operator.name ++ ": " ++ role.name ++ " " ++ callback ++ " cannot be called with "
      ++ toString rows ++ " row argument(s)"
  | .unknownStrategy operator shown =>
    operator.name ++ ": unknown strategy " ++ shown ++ ", expected one of ('hash', 'scan')"
  | .mixedRow location row found expected =>
    location.name ++ ": row " ++ row ++ " has " ++ found.describe ++ ", expected "
      ++ expected.describe
  | .shapeMismatch operator left right =>
    operator.name ++ ": row shape mismatch, left rows have " ++ left.describe
      ++ " and right rows have " ++ right.describe
  | .headerMismatch row headers =>
    "pretty: row " ++ row ++ " does not match headers " ++ headers
  | .raised _ text => text
  | _ => ""

/-- The message that a fault shows, if its kind shows one. -/
def message? (fault : Fault) : Option String :=
  if fault.kind.hasMessage then some fault.text else none

end Fault

end BagAlgebra
