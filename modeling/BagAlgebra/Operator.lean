/-
The operators of the algebra, the parts that they are built from, and the names that both have in
messages.
-/

namespace BagAlgebra

/-- The two operators that filter the left rows by whether they occur on the right. -/
inductive FilterKind where
  | intersection
  | difference
deriving DecidableEq

/-- How a filter looks its rows up: in a set of the right rows, or by a scan of their list. -/
inductive Strategy where
  | hash
  | scan
deriving DecidableEq

/-- The kinds of node; the bare one is the common base of the others and cannot be evaluated. -/
inductive Operator where
  | bare
  | terminal
  | selection
  | projection
  | join
  | product
  | union
  | filter (kind : FilterKind)
deriving DecidableEq

/-- The parts that a node or a builder is made of. -/
inductive Role where
  | child
  | left
  | right
  | predicate
  | mapper
  | expression
deriving DecidableEq

/-- What is being made when a part is refused. -/
inductive Construct where
  | node (operator : Operator)
  | builder
deriving DecidableEq

/-- Where rows come from when their shapes are compared. -/
inductive Location where
  | terminal
  | leftOf (operator : Operator)
  | rightOf (operator : Operator)
deriving DecidableEq

/-! ## Names -/

namespace FilterKind

def name : FilterKind → String
  | .intersection => "Intersection"
  | .difference => "Difference"

def symbol : FilterKind → String
  | .intersection => "∩"
  | .difference => "−"

/-- Whether the rows that occur on the right are the ones that stay. -/
def keepsMatches : FilterKind → Bool
  | .intersection => true
  | .difference => false

end FilterKind

namespace Strategy

def name : Strategy → String
  | .hash => "hash"
  | .scan => "scan"

def ofName? (s : String) : Option Strategy :=
  if s = "hash" then some .hash else if s = "scan" then some .scan else none

end Strategy

namespace Operator

def name : Operator → String
  | .bare => "Expression"
  | .terminal => "Terminal"
  | .selection => "Selection"
  | .projection => "Projection"
  | .join => "Join"
  | .product => "CartesianProduct"
  | .union => "Union"
  | .filter kind => kind.name

end Operator

namespace Role

def name : Role → String
  | .child => "child"
  | .left => "left"
  | .right => "right"
  | .predicate => "predicate"
  | .mapper => "mapper"
  | .expression => "expression"

end Role

namespace Construct

def name : Construct → String
  | .node operator => operator.name
  | .builder => "ExpressionBuilder"

end Construct

namespace Location

def name : Location → String
  | .terminal => Operator.terminal.name
  | .leftOf operator => operator.name ++ " (left)"
  | .rightOf operator => operator.name ++ " (right)"

end Location

end BagAlgebra
