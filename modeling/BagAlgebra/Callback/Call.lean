/-
Calls of callbacks: a body is evaluated operand by operand from the left, with the arguments under the
names of the parameters.
-/
import BagAlgebra.Callback.Literal
import BagAlgebra.Event
import BagAlgebra.Value.Arithmetic
import BagAlgebra.Value.Order

namespace BagAlgebra

/-! ## Bodies -/

/-- Applies an operation to two evaluated operands. -/
def BinaryOp.apply : BinaryOp → Value → Value → Eval Value
  | .eq, v, w => pure (.bool (v.equal w))
  | .ne, v, w => pure (.bool (!v.equal w))
  | .order relation, v, w => do return .bool (← v.order relation w)
  | .add, v, w => v.add w
  | .sub, v, w => v.numeric Number.sub w
  | .mul, v, w => v.mul w
  | .floorDiv, v, w => v.numeric Number.floorDiv w
  | .floorMod, v, w => v.floorMod w

mutual

/-- The value of a body. -/
def Code.eval (scope : Scope) (captured : List Value) : Code → Eval Value
  | .argument name =>
    match scope.lookup name with
    | some v => pure v
    | none => Run.fail .missingKey
  | .literal data => data.make captured
  | .tuple items => do return .tuple (← evalItems scope captured items)
  | .list items => do return .list none (← evalItems scope captured items)
  | .item container index => do
    let c ← container.eval scope captured
    let i ← index.eval scope captured
    c.item i
  | .length operand => do
    let v ← operand.eval scope captured
    return .int (← v.length?)
  | .str operand => do
    let v ← operand.eval scope captured
    return .text (← v.str?)
  | .not operand => do
    let v ← operand.eval scope captured
    return .bool (!v.truthy)
  | .neg operand => do
    let v ← operand.eval scope captured
    v.neg
  | .binary op a b => do
    let v ← a.eval scope captured
    let w ← b.eval scope captured
    op.apply v w
  | .and a b => do
    let v ← a.eval scope captured
    if v.truthy then b.eval scope captured else return v
  | .or a b => do
    let v ← a.eval scope captured
    if v.truthy then return v else b.eval scope captured
  | .choose condition a b => do
    let v ← condition.eval scope captured
    if v.truthy then a.eval scope captured else b.eval scope captured
  | .raise kind text => Run.fail (.raised kind text)
  | .trace label operand => do
    let v ← operand.eval scope captured
    Run.emit (.traced label v)
    return v
termination_by structural code => code

def evalItems (scope : Scope) (captured : List Value) : List Code → Eval (List Value)
  | [] => pure []
  | c :: cs => do
    let v ← c.eval scope captured
    return v :: (← evalItems scope captured cs)
termination_by structural cs => cs

end

/-! ## Extremes -/

/-- The first of the values that no later one exceeds in the given direction. -/
def extreme (direction : Relation) (best : Value) : List Value → Except Fault Value
  | [] => .ok best
  | v :: vs => do extreme direction (if ← v.order direction best then v else best) vs

/-- As `extreme`, but takes the values from a generator one by one. -/
def drawExtreme (direction : Relation) (serial : Nat) : Option Value → List Value → Eval Value
  | none, [] => Run.fail .badValue
  | some best, [] => pure best
  | none, v :: vs => do
    Run.draw serial
    drawExtreme direction serial (some v) vs
  | some best, v :: vs => do
    Run.draw serial
    if ← v.order direction best then drawExtreme direction serial (some v) vs
    else drawExtreme direction serial (some best) vs

/-- The extreme item of one collection, or of several arguments. -/
def extremeOf (direction : Relation) : List Value → Eval Value
  | [] => Run.fail .typeMismatch
  | [.generator serial items] => do
    drawExtreme direction serial none (items.drop (← Run.drawn serial))
  | [v] =>
    match v.items? with
    | some [] => Run.fail .badValue
    | some (first :: rest) => Run.ofExcept (extreme direction first rest)
    | none => Run.fail .typeMismatch
  | first :: rest => Run.ofExcept (extreme direction first rest)

/-! ## Calls -/

/-- A call of a callback of the library. -/
def Builtin.call : Builtin → List Value → Eval Value
  | .str, [] => pure (.text "")
  | .str, [v] => do return .text (← v.str?)
  | .repr, [v] => do return .text (← v.repr?)
  | .len, [v] => do return .int (← v.length?)
  | .bool, [] => pure (.bool false)
  | .bool, [v] => pure (.bool v.truthy)
  | .max, vs => extremeOf .gt vs
  | .min, vs => extremeOf .lt vs
  | _, _ => Run.fail .typeMismatch

/-- A call with positional arguments. -/
def Callback.call : Callback → List Value → Eval Value
  | .builtin b, args => b.call args
  | .always, args =>
    if args.length = 2 then pure (.bool true) else Run.fail .typeMismatch
  | .function _ params body captured, args =>
    if Param.accepts params args.length then
      body.eval (Param.bind captured params args) captured
    else Run.fail .typeMismatch

end BagAlgebra
