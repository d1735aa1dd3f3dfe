/-
Evaluation of trees. A node evaluates its left side, then its right side, then applies its own rule
and logs what it did. Duplicates are kept everywhere. A filter by set gives the same rows as one by
scan; it starts over as a scan when it meets a row that no set can hold.
-/
import BagAlgebra.Callback.Call
import BagAlgebra.Expr.Build

namespace BagAlgebra

/-! ## Rules of the operators -/

/-- The rows that a predicate holds of, in order. -/
def keepWhere (predicate : Callback) : List Value → Eval (List Value)
  | [] => pure []
  | row :: rows => do
    let verdict ← predicate.call [row]
    let kept ← keepWhere predicate rows
    return if verdict.truthy then row :: kept else kept

/-- Every row mapped, in order. -/
def mapRows (mapper : Callback) : List Value → Eval (List Value)
  | [] => pure []
  | row :: rows => do
    let image ← mapper.call [row]
    return image :: (← mapRows mapper rows)

/-- The rows that one left row produces: the mapper is applied directly after the predicate holds. -/
def joinRow (predicate mapper : Callback) (left : Value) : List Value → Eval (List Value)
  | [] => pure []
  | right :: rights => do
    let verdict ← predicate.call [left, right]
    if verdict.truthy then
      let image ← mapper.call [left, right]
      return image :: (← joinRow predicate mapper left rights)
    else joinRow predicate mapper left rights

/-- All pairs, the left row changing last. -/
def joinRows (predicate mapper : Callback) : List Value → List Value → Eval (List Value)
  | [], _ => pure []
  | left :: lefts, rights => do
    let images ← joinRow predicate mapper left rights
    return images ++ (← joinRows predicate mapper lefts rights)

/-! ## Membership -/

/-- Adds rows to the members of a set, one of each class of matching rows; none if a row is
unhashable. -/
def addMembers (seen : List Value) : List Value → Option (List Value)
  | [] => some seen
  | row :: rows =>
    if row.hashable then addMembers (if occurs row seen then seen else seen ++ [row]) rows else none

/-- For each left row, whether a set of the right rows holds it; none if a row is unhashable. -/
def occurrencesBySet (left right : List Value) : Option (List Bool) := do
  let members ← addMembers [] right
  left.mapM fun row => if row.hashable then some (occurs row members) else none

/-- For each left row, whether it matches some right row. -/
def occurrencesByScan (left right : List Value) : List Bool := left.map fun row => occurs row right

/-- For each left row, whether it occurs on the right. -/
def occurrences (kind : FilterKind) (strategy : Strategy) (left right : List Value) : Eval (List Bool) :=
  match strategy with
  | .scan => pure (occurrencesByScan left right)
  | .hash =>
    match occurrencesBySet left right with
    | some hits => pure hits
    | none => do
      Run.emit (.rescanned kind)
      return occurrencesByScan left right

/-- The rows whose hit is the wanted one. -/
def keepHits (wanted : Bool) (rows : List Value) (hits : List Bool) : List Value :=
  ((rows.zip hits).filter fun p => p.2 == wanted).map (·.1)

/-! ## Trees -/

namespace Expr

/-- The rows of a tree. What a bare expression gives is up to `bare`. -/
def evalWith (bare : Nat → Eval (List Value)) : Expr → Eval (List Value)
  | .bare serial => bare serial
  | .terminal rows => pure rows
  | .selection child predicate => do
    let rows ← keepWhere predicate (← child.evalWith bare)
    Run.emit (.kept rows.length)
    return rows
  | .projection child mapper => do mapRows mapper (← child.evalWith bare)
  | .join left right predicate mapper => do
    let lefts ← left.evalWith bare
    let rights ← right.evalWith bare
    let rows ← joinRows predicate mapper lefts rights
    Run.emit (.joined lefts.length rights.length rows.length)
    return rows
  | .product left right mapper => do
    let lefts ← left.evalWith bare
    let rights ← right.evalWith bare
    let rows ← joinRows .always mapper lefts rights
    Run.emit (.joined lefts.length rights.length rows.length)
    return rows
  | .union left right => do
    let lefts ← left.evalWith bare
    let rights ← right.evalWith bare
    requireSharedShape .union lefts rights
    return lefts ++ rights
  | .filter kind left right strategy => do
    let lefts ← left.evalWith bare
    let rights ← right.evalWith bare
    requireSharedShape (.filter kind) lefts rights
    let hits ← occurrences kind strategy lefts rights
    return keepHits kind.keepsMatches lefts hits
termination_by structural e => e

/-- A product is evaluated as its inner join. -/
theorem evalWith_product (bare : Nat → Eval (List Value)) (left right : Expr) (mapper : Callback) :
    (product left right mapper).evalWith bare = (join left right .always mapper).evalWith bare := rfl

/-- The rows of a tree. A bare expression has none to give. -/
def eval (e : Expr) : Eval (List Value) := e.evalWith fun _ => Run.fail .notImplemented

theorem eval_selection (child : Expr) (predicate : Callback) :
    (selection child predicate).eval = (do
      let rows ← keepWhere predicate (← child.eval)
      Run.emit (.kept rows.length)
      return rows) := rfl

theorem eval_projection (child : Expr) (mapper : Callback) :
    (projection child mapper).eval = (do mapRows mapper (← child.eval)) := rfl

theorem eval_join (left right : Expr) (predicate mapper : Callback) :
    (join left right predicate mapper).eval = (do
      let lefts ← left.eval
      let rights ← right.eval
      let rows ← joinRows predicate mapper lefts rights
      Run.emit (.joined lefts.length rights.length rows.length)
      return rows) := rfl

theorem eval_product (left right : Expr) (mapper : Callback) :
    (product left right mapper).eval = (join left right .always mapper).eval := rfl

theorem eval_union (left right : Expr) :
    (union left right).eval = (do
      let lefts ← left.eval
      let rights ← right.eval
      requireSharedShape .union lefts rights
      return lefts ++ rights) := rfl

theorem eval_filter (kind : FilterKind) (left right : Expr) (strategy : Strategy) :
    (filter kind left right strategy).eval = (do
      let lefts ← left.eval
      let rights ← right.eval
      requireSharedShape (.filter kind) lefts rights
      let hits ← occurrences kind strategy lefts rights
      return keepHits kind.keepsMatches lefts hits) := rfl

end Expr

end BagAlgebra
