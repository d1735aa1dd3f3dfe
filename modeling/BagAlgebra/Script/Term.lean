/-
Terms: descriptions of values. A term is data, a name bound earlier, or a call of a constructor or of
an operation of a builder. Each occurrence of a term for an object with identity makes a new object.
-/
import BagAlgebra.Builder

namespace BagAlgebra

/-! ## Syntax -/

/-- The names of arguments. -/
inductive Field where
  | rows
  | expression
  | child
  | left
  | right
  | predicate
  | mapper
  | strategy
deriving DecidableEq

/-- The operations of a builder. -/
inductive Method where
  | select
  | project
  | join
  | product
  | union
  | filter (kind : FilterKind)
deriving DecidableEq

/-- What a call calls. -/
inductive Callee where
  | node (operator : Operator)
  | builderFromRows
  | newBuilder
deriving DecidableEq

mutual

/-- A description of a value. -/
inductive Term where
  /-- Data without identity. -/
  | constant (value : Value) (plain : value.isPlain = true := by rfl)
  | nan
  | tuple (items : List Term)
  | list (items : List Term)
  | dict (entries : List TermEntry)
  | generator (items : List Term)
  | range (arguments : List Term)
  | function (form : Form) (name : String) (params : List Param) (body : Code)
      (captured : List Term)
  | reference (name : String)
  /-- Arguments are built in the order in which they stand. -/
  | call (callee : Callee) (arguments : List Argument)
  | invoke (method : Method) (on : Term) (arguments : List Argument)

/-- A key and a value. -/
inductive TermEntry where
  | mk (key value : Term)

/-- A named argument. -/
inductive Argument where
  | mk (field : Field) (term : Term)

end

/-! ## Arguments -/

/-- Built arguments. -/
abbrev Arguments := List (Field × Value)

namespace Arguments

/-- Refuses an argument that is not expected. -/
def only (args : Arguments) (expected : List Field) : Except Fault Unit :=
  if args.all fun a => expected.contains a.1 then .ok () else .error .typeMismatch

/-- An argument that has to be there. -/
def get (args : Arguments) (field : Field) : Except Fault Value :=
  match args.lookup field with
  | some v => .ok v
  | none => .error .typeMismatch

/-- An argument with a default. -/
def getD (args : Arguments) (field : Field) (default : Value) : Value :=
  (args.lookup field).getD default

end Arguments

/-- The strategy of a filter that names none. -/
def defaultStrategy : Value := .text Strategy.hash.name

/-! ## Calls -/

/-- Makes a node. -/
def makeNode (operator : Operator) (args : Arguments) : Eval Expr :=
  match operator with
  | .bare => do
    args.only []
    return .bare (← Run.fresh)
  | .terminal => do
    args.only [.rows]
    Expr.ofItems (args.getD .rows (.tuple []))
  | .selection => do
    args.only [.child, .predicate]
    Expr.makeSelection (← args.get .child) (← args.get .predicate)
  | .projection => do
    args.only [.child, .mapper]
    Expr.makeProjection (← args.get .child) (← args.get .mapper)
  | .join => do
    args.only [.left, .right, .predicate, .mapper]
    Expr.makeJoin (← args.get .left) (← args.get .right) (← args.get .predicate)
      (← args.get .mapper)
  | .product => do
    args.only [.left, .right, .mapper]
    Expr.makeProduct (← args.get .left) (← args.get .right) (← args.get .mapper)
  | .union => do
    args.only [.left, .right]
    Expr.makeUnion (← args.get .left) (← args.get .right)
  | .filter kind => do
    args.only [.left, .right, .strategy]
    Expr.makeFilter kind (← args.get .left) (← args.get .right)
      (args.getD .strategy defaultStrategy)

/-- Makes a node or a builder. -/
def Callee.call (callee : Callee) (args : Arguments) : Eval Value :=
  match callee with
  | .node operator => do return .expr (← makeNode operator args)
  | .builderFromRows => do
    args.only [.rows]
    let b ← Builder.fromRows (← args.get .rows)
    return b.toValue
  | .newBuilder => do
    args.only [.expression]
    let b ← Builder.make (← args.get .expression)
    return b.toValue

/-- Applies an operation of a builder. -/
def Builder.invoke (b : Builder) (method : Method) (args : Arguments) : Eval Builder :=
  match method with
  | .select => do
    args.only [.predicate]
    b.select (← args.get .predicate)
  | .project => do
    args.only [.mapper]
    b.project (← args.get .mapper)
  | .join => do
    args.only [.right, .predicate, .mapper]
    b.join (← args.get .right) (← args.get .predicate) (← args.get .mapper)
  | .product => do
    args.only [.right, .mapper]
    b.product (← args.get .right) (← args.get .mapper)
  | .union => do
    args.only [.right]
    b.union (← args.get .right)
  | .filter kind => do
    args.only [.right, .strategy]
    b.filter kind (← args.get .right) (args.getD .strategy defaultStrategy)

/-- Applies an operation of a value. Only builders have them, but that texts and their type know a
join of another kind. -/
def Method.invoke (method : Method) (on : Value) (args : Arguments) : Eval Value :=
  match on, method with
  | .builder e, method => do return (← Builder.invoke ⟨e⟩ method args).toValue
  | .text _, .join => Run.fail .typeMismatch
  | .callable (.builtin .str), .join => Run.fail .typeMismatch
  | _, _ => Run.fail .noField

/-! ## Values of terms -/

mutual

/-- Makes the value that a term describes. -/
def Term.build (scope : Scope) : Term → Eval Value
  | .constant v _ => pure v
  | .nan => do return .nan (← Run.fresh)
  | .tuple items => do return .tuple (← buildItems scope items)
  | .list items => do
    let vs ← buildItems scope items
    return .list (some (← Run.fresh)) vs
  | .dict entries => do return .dict (← buildEntries scope [] entries)
  | .generator items => do
    let vs ← buildItems scope items
    return .generator (← Run.fresh) vs
  | .range arguments => do
    let vs ← buildItems scope arguments
    return .range (← Span.ofValues vs)
  | .function form name params body captured => do
    let vs ← buildItems scope captured
    return .callable (.function ⟨← Run.fresh, form, name⟩ params body vs)
  | .reference name =>
    match scope.lookup name with
    | some v => pure v
    | none => Run.fail .unbound
  | .call callee arguments => do
    let args ← buildArguments scope arguments
    callee.call args
  | .invoke method on arguments => do
    let v ← on.build scope
    let args ← buildArguments scope arguments
    method.invoke v args
termination_by structural t => t

def buildItems (scope : Scope) : List Term → Eval (List Value)
  | [] => pure []
  | t :: ts => do
    let v ← t.build scope
    return v :: (← buildItems scope ts)
termination_by structural ts => ts

/-- A key has to be hashable; of two matching keys the first stays, with the value of the second. -/
def buildEntries (scope : Scope) (done : List Entry) : List TermEntry → Eval (List Entry)
  | [] => pure done
  | e :: es => do
    let (key, value) ← e.build scope
    if key.hashable then buildEntries scope (putEntry done key value) es
    else Run.fail .typeMismatch
termination_by structural es => es

def TermEntry.build (scope : Scope) : TermEntry → Eval (Value × Value)
  | .mk key value => do
    let k ← key.build scope
    let v ← value.build scope
    return (k, v)
termination_by structural e => e

def buildArguments (scope : Scope) : List Argument → Eval Arguments
  | [] => pure []
  | a :: as => do
    let arg ← a.build scope
    return arg :: (← buildArguments scope as)
termination_by structural as => as

def Argument.build (scope : Scope) : Argument → Eval (Field × Value)
  | .mk field term => do return (field, ← term.build scope)
termination_by structural a => a

end

end BagAlgebra
