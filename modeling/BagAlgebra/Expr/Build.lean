/-
Building of trees from values. Each part is checked before a node is made: sides must be expressions,
callbacks must accept the rows they will be given, a strategy must be one of the two, and the rows of
two terminals under one operator must share a shape. The first check that fails is reported.
-/
import BagAlgebra.Callback.Signature
import BagAlgebra.Row.Uniform
import BagAlgebra.Value.Sequence

namespace BagAlgebra

namespace Expr

/-! ## Checks of parts -/

/-- A part that has to be an expression. -/
def require (construct : Construct) (role : Role) : Value → Except Fault Expr
  | .expr e => .ok e
  | v => .error (.notExpression construct role v.typeName)

/-- A part that has to be callable on so many rows. -/
def requireCallback (operator : Operator) (role : Role) (rows : Nat) :
    Value → Except Fault Callback
  | .callable f =>
    if f.usableOn rows then .ok f
    else do .error (.badArity operator role (← f.header?) rows)
  | v => .error (.notCallable operator role v.typeName)

/-- A part that has to name a strategy. -/
def requireStrategy (operator : Operator) (v : Value) : Except Fault Strategy :=
  match v.text?.bind Strategy.ofName? with
  | some strategy => .ok strategy
  | none => do .error (.unknownStrategy operator (← v.repr?))

/-- The rows of a terminal. -/
def storedRows? : Expr → Option (List Value)
  | .terminal rows => some rows
  | _ => none

/-- Two terminals under one operator are compared at once; other sides are compared when they are
evaluated. -/
def compareStored (operator : Operator) (left right : Expr) : Except Fault Unit :=
  match left.storedRows?, right.storedRows? with
  | some l, some r => requireSharedShape operator l r
  | _, _ => .ok ()

/-! ## Nodes -/

/-- A leaf with a copy of its rows. -/
def ofRows (rows : List Value) : Except Fault Expr := do
  let _ ← commonShape .terminal rows
  return .terminal rows

/-- A leaf with the items of a value as rows. -/
def ofItems {ε : Type} (v : Value) : Run ε Expr := do
  let rows ← v.collect
  ofRows rows

def makeSelection (child predicate : Value) : Except Fault Expr := do
  let child ← require (.node .selection) .child child
  let predicate ← requireCallback .selection .predicate 1 predicate
  return .selection child predicate

def makeProjection (child mapper : Value) : Except Fault Expr := do
  let child ← require (.node .projection) .child child
  let mapper ← requireCallback .projection .mapper 1 mapper
  return .projection child mapper

def makeJoin (left right predicate mapper : Value) : Except Fault Expr := do
  let left ← require (.node .join) .left left
  let right ← require (.node .join) .right right
  let predicate ← requireCallback .join .predicate 2 predicate
  let mapper ← requireCallback .join .mapper 2 mapper
  return .join left right predicate mapper

/-- A product; its inner join is made by the join's own checks. -/
def makeProduct (left right mapper : Value) : Except Fault Expr := do
  let left ← require (.node .product) .left left
  let right ← require (.node .product) .right right
  let mapper ← requireCallback .product .mapper 2 mapper
  let _ ← makeJoin (.expr left) (.expr right) (.callable .always) (.callable mapper)
  return .product left right mapper

def makeUnion (left right : Value) : Except Fault Expr := do
  let left ← require (.node .union) .left left
  let right ← require (.node .union) .right right
  compareStored .union left right
  return .union left right

def makeFilter (kind : FilterKind) (left right strategy : Value) : Except Fault Expr := do
  let left ← require (.node (.filter kind)) .left left
  let right ← require (.node (.filter kind)) .right right
  let strategy ← requireStrategy (.filter kind) strategy
  compareStored (.filter kind) left right
  return .filter kind left right strategy

end Expr

end BagAlgebra
