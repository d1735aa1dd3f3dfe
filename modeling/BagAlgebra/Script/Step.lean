/-
Scripts: steps over named values. A step that succeeds may bind its value to a name; a step that fails
binds nothing and changes no list, and the script goes on. Appending to a list changes it for every
name and every value that holds it. An `eval` that is set on a bare expression answers for it from then
on, in every tree that has it as a leaf.
-/
import BagAlgebra.Script.Cell
import BagAlgebra.Script.Term
import BagAlgebra.Table.Csv
import BagAlgebra.Table.Pretty
import BagAlgebra.Value.Objects

namespace BagAlgebra

/-- An attribute that was set on an object from outside. It can be read back, and an `eval` is called when
the object is evaluated. A name that begins and ends with two underscores is the interpreter's own; what
else such an attribute does is left out. -/
structure Attribute where
  owner : Value
  field : String
  value : Value

/-- The state between two steps. -/
structure Session where
  bindings : Scope
  attributes : List Attribute
  store : Store

namespace Session

/-- Nothing bound, nothing set. -/
def start : Session := ⟨[], [], .empty⟩

/-- The session with a name bound; an earlier value of the name is forgotten. -/
def bind (session : Session) (name : String) (v : Value) : Session :=
  { session with bindings := (name, v) :: session.bindings.filter fun b => b.1 != name }

/-- The session with the items of a list replaced wherever the list occurs. -/
def replaceCell (session : Session) (cell : Nat) (items : List Value) : Session :=
  { session with
    bindings := session.bindings.map fun b => (b.1, b.2.replaceCell cell items)
    attributes := session.attributes.map fun a =>
      { a with owner := a.owner.replaceCell cell items, value := a.value.replaceCell cell items } }

/-- The session with an attribute set, in place of what was set under its name before. From then on it is
read back, and if it is an `eval` it is called, also where its owner is a leaf of a tree. -/
def set (session : Session) (owner : Value) (field : String) (v : Value) : Session :=
  { session with attributes := ⟨owner, field, v⟩ :: session.attributes }

/-- The attribute set last under a name. -/
def attribute? (session : Session) (owner : Value) (field : String) : Option Value :=
  (session.attributes.find? fun a => a.owner.same owner && a.field == field).map (·.value)

end Session

/-! ## Fields of nodes and builders -/

/-- A part of a node under the name of its field. -/
def Expr.field? : Expr → String → Option Value
  | .terminal rows, "rows" => some (.tuple rows)
  | .selection child _, "child" => some (.expr child)
  | .selection _ predicate, "predicate" => some (.callable predicate)
  | .projection child _, "child" => some (.expr child)
  | .projection _ mapper, "mapper" => some (.callable mapper)
  | .join left .., "left" => some (.expr left)
  | .join _ right .., "right" => some (.expr right)
  | .join _ _ predicate _, "predicate" => some (.callable predicate)
  | .join _ _ _ mapper, "mapper" => some (.callable mapper)
  | .product left .., "left" => some (.expr left)
  | .product _ right _, "right" => some (.expr right)
  | .product _ _ mapper, "mapper" => some (.callable mapper)
  | .union left _, "left" => some (.expr left)
  | .union _ right, "right" => some (.expr right)
  | .filter _ left .., "left" => some (.expr left)
  | .filter _ _ right _, "right" => some (.expr right)
  | .filter _ _ _ strategy, "strategy" => some (.text strategy.name)
  | e, "joiner" => e.joiner?.map .expr
  | _, _ => none

/-- A part of a value under the name of its field. -/
def Value.field? : Value → String → Option Value
  | .expr e, field => e.field? field
  | .builder e, "expression" => some (.expr e)
  | _, _ => none

/-- What setting an attribute of a value comes to: nodes and builders are frozen, functions and bare
expressions take any attribute, also an `eval` that evaluations will call, types take none, and plain data
knows no attributes. -/
def Value.settable : Value → Except Fault Unit
  | .expr (.bare _) => .ok ()
  | .expr _ => .error .frozen
  | .builder _ => .error .frozen
  | .callable .always => .ok ()
  | .callable (.function ..) => .ok ()
  | .callable (.builtin b) => .error (if b.isType then .typeMismatch else .noField)
  | _ => .error .noField

/-! ## Evaluation -/

/-- The rows of a node or builder. What a bare expression gives is up to `bare`. -/
def Value.evalRowsWith (bare : Nat → Eval (List Value)) : Value → Eval (List Value)
  | .expr e => e.evalWith bare
  | .builder e => e.evalWith bare
  | _ => Run.fail .noField

/-- The rows of a node or builder. A bare expression has none to give. -/
def Value.evalRows (v : Value) : Eval (List Value) :=
  v.evalRowsWith fun _ => Run.fail .notImplemented

/-- What a value gives when it is called on nothing. -/
def Value.answer : Value → Eval Value
  | .callable f => f.call []
  | _ => Run.fail .typeMismatch

/-- Items as a list of their own. -/
def listed (items : List Value) : Eval Value := do return .list (some (← Run.fresh)) items

/-- A value for a script to keep: a list that was made during a call becomes one of its own. -/
def Value.kept : Value → Eval Value
  | .list none items => listed items
  | v => pure v

namespace Session

/-- The `eval` that was set on a value. Of a builder it is that of its expression. -/
def override? (session : Session) : Value → Option Value
  | .expr (.bare serial) => session.attribute? (.expr (.bare serial)) "eval"
  | .builder (.bare serial) => session.attribute? (.expr (.bare serial)) "eval"
  | .callable f => session.attribute? (.callable f) "eval"
  | _ => none

/-- What a bare expression gives to the operator above it: the items of the list that the `eval` set on it
gives. Other collections are left out, and refused. -/
def rowsOf (session : Session) (serial : Nat) : Eval (List Value) :=
  match session.override? (.expr (.bare serial)) with
  | none => Run.fail .notImplemented
  | some own => do
    match ← own.answer with
    | .list _ items => return items
    | _ => Run.fail .typeMismatch

/-- What a value gives when it is evaluated: what the `eval` set on it gives, as it is, or else its rows, as
a new list. -/
def eval (session : Session) (v : Value) : Eval Value :=
  match session.override? v with
  | some own => do (← own.answer).kept
  | none => do listed (← v.evalRowsWith session.rowsOf)

end Session

/-! ## Steps -/

/-- What a step does. -/
inductive Action where
  | build (term : Term)
  | eval (on : Term)
  | append (on value : Term)
  | repr (on : Term)
  | equal (a b : Term)
  | hashable (on : Term)
  | get (on : Term) (field : String)
  | set (on : Term) (field : String) (value : Term)
  | pretty (rows headers limit : Term)
  | csv (rows headers delimiter : Term)

/-- An action and the name that its value is bound to. -/
structure Step where
  action : Action
  name? : Option String

/-- A list with one more item, as the items and the cell of the list. Values are finite: an item that
mentions the list, which would come to hold itself, is refused. -/
def Value.appended (v : Value) : Value → Except Fault (Option Nat × List Value)
  | .list none items => .ok (none, items ++ [v])
  | .list (some cell) items =>
    if ⟨.list, cell⟩ ∈ v.objects then .error .badValue else .ok (some cell, items ++ [v])
  | _ => .error .noField

/-- What an action changes in the session, beside the name. -/
inductive Change where
  | nothing
  | contents (cell : Option Nat) (items : List Value)
  | attribute (owner : Value) (field : String) (value : Value)

/-- The value of an action and the change it asks for. -/
def Action.run (session : Session) : Action → Eval (Value × Change)
  | .build term => do return (← term.build session.bindings, .nothing)
  | .eval on => do
    let v ← on.build session.bindings
    return (← session.eval v, .nothing)
  | .append on value => do
    let v ← on.build session.bindings
    let item ← value.build session.bindings
    let (cell, items) ← item.appended v
    return (.list cell items, .contents cell items)
  | .repr on => do
    let v ← on.build session.bindings
    return (.text (← v.repr?), .nothing)
  | .equal a b => do
    let v ← a.build session.bindings
    let w ← b.build session.bindings
    return (.bool (v.equal w), .nothing)
  | .hashable on => do
    let v ← on.build session.bindings
    if v.hashable then return (.bool true, .nothing) else Run.fail .typeMismatch
  | .get on field => do
    let v ← on.build session.bindings
    match v.field? field, session.attribute? v field with
    | some part, _ => return (part, .nothing)
    | none, some value => return (value, .nothing)
    | none, none => Run.fail .noField
  | .set on field value => do
    let v ← on.build session.bindings
    let w ← value.build session.bindings
    v.settable
    return (.null, .attribute v field w)
  | .pretty rows headers limit => do
    let r ← rows.build session.bindings
    let h ← headers.build session.bindings
    let l ← limit.build session.bindings
    return (.text (← Pretty.render r h l), .nothing)
  | .csv rows headers delimiter => do
    let r ← rows.build session.bindings
    let h ← headers.build session.bindings
    let d ← delimiter.build session.bindings
    return (.text (← Csv.render r h d), .nothing)

/-- The session after a change. -/
def Change.apply (session : Session) : Change → Session
  | .nothing => session
  | .contents (some cell) items => session.replaceCell cell items
  | .contents none _ => session
  | .attribute owner field value => session.set owner field value

/-- What a step answers. -/
structure Reply where
  result : Except Fault Value
  log : List Event

/-- One step. -/
def Step.run (step : Step) (session : Session) : Reply × Session :=
  match step.action.run session session.store with
  | ⟨.error fault, log, store⟩ => (⟨.error fault, log⟩, { session with store })
  | ⟨.ok (v, change), log, store⟩ =>
    let after := change.apply { session with store }
    (⟨.ok v, log⟩, match step.name? with
      | some name => after.bind name v
      | none => after)

/-- The answers of steps in order, and the session after the last. -/
def runSteps : List Step → Session → List Reply × Session
  | [], session => ([], session)
  | step :: steps, session =>
    let (reply, after) := step.run session
    let (replies, last) := runSteps steps after
    (reply :: replies, last)

end BagAlgebra
