/-
The order of values: numbers by exact value, texts by code points, tuples and lists by their first
elements that do not match. Other values have no order.
-/
import BagAlgebra.Value.Match

namespace BagAlgebra

namespace Relation

/-- A relation on two numbers. -/
def onNumbers : Relation → Number → Number → Bool
  | .lt, a, b => a.lt b
  | .le, a, b => a.le b
  | .gt, a, b => b.lt a
  | .ge, a, b => b.le a

/-- A relation on two things that are already compared. -/
def holds : Relation → Ordering → Bool
  | .lt, o => o.isLT
  | .le, o => o.isLE
  | .gt, o => o.isGT
  | .ge, o => o.isGE

end Relation

mutual

/-- Whether a relation holds between two values that have an order. -/
def Value.order (relation : Relation) : Value → Value → Except Fault Bool
  | .text s, v => match v with
    | .text t => .ok (relation.holds (compare s t))
    | _ => .error .typeMismatch
  | .tuple xs, v => match v with
    | .tuple ys => orderItems relation xs ys
    | _ => .error .typeMismatch
  | .list _ xs, v => match v with
    | .list _ ys => orderItems relation xs ys
    | _ => .error .typeMismatch
  | v, w => match v.number?, w.number? with
    | some a, some b => .ok (relation.onNumbers a b)
    | _, _ => .error .typeMismatch
termination_by structural v => v

/-- The first elements that do not match decide; if there are none, the lengths do. -/
def orderItems (relation : Relation) : List Value → List Value → Except Fault Bool
  | [], ys => .ok (relation.holds (compare 0 ys.length))
  | x :: xs, ys => match ys with
    | [] => .ok (relation.holds .gt)
    | y :: ys => if x.same y then orderItems relation xs ys else x.order relation y
termination_by structural xs => xs

end

end BagAlgebra
