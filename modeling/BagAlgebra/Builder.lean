/-
Builders: chains of operations over a growing expression. Each operation gives a new builder and
leaves the one it is called on as it was. The right side of an operation may be given as rows, as an
expression or as a builder.
-/
import BagAlgebra.Expr.Eval

namespace BagAlgebra

/-- An expression that operations are added to. -/
structure Builder where
  expression : Expr

namespace Builder

variable {ε : Type}

/-- The builder as a value. -/
def toValue (b : Builder) : Value := .builder b.expression

/-- A builder over an expression. -/
def make (v : Value) : Except Fault Builder := do
  return ⟨← Expr.require .builder .expression v⟩

/-- A builder over a leaf with the items of a value as rows. -/
def fromRows (rows : Value) : Run ε Builder := do
  let e ← Expr.ofItems rows
  make (.expr e)

/-- A right side as an expression. -/
def rightSide : Value → Run ε Expr
  | .builder e => pure e
  | .expr e => pure e
  | v => Expr.ofItems v

def select (b : Builder) (predicate : Value) : Except Fault Builder := do
  make (.expr (← Expr.makeSelection (.expr b.expression) predicate))

def project (b : Builder) (mapper : Value) : Except Fault Builder := do
  make (.expr (← Expr.makeProjection (.expr b.expression) mapper))

def join (b : Builder) (right predicate mapper : Value) : Run ε Builder := do
  let right ← rightSide right
  let node ← Expr.makeJoin (.expr b.expression) (.expr right) predicate mapper
  make (.expr node)

def product (b : Builder) (right mapper : Value) : Run ε Builder := do
  let right ← rightSide right
  let node ← Expr.makeProduct (.expr b.expression) (.expr right) mapper
  make (.expr node)

def union (b : Builder) (right : Value) : Run ε Builder := do
  let right ← rightSide right
  let node ← Expr.makeUnion (.expr b.expression) (.expr right)
  make (.expr node)

def filter (b : Builder) (kind : FilterKind) (right strategy : Value) : Run ε Builder := do
  let right ← rightSide right
  let node ← Expr.makeFilter kind (.expr b.expression) (.expr right) strategy
  make (.expr node)

def eval (b : Builder) : Eval (List Value) := b.expression.eval

end Builder

end BagAlgebra
