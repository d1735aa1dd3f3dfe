/-
The shape of a row: the number of its fields, or "no tuple".
-/

namespace BagAlgebra

/-- A row is a tuple of so many fields, or a value that is no tuple. -/
inductive Shape where
  | scalar
  | fields (count : Nat)
deriving DecidableEq

namespace Shape

/-- How messages speak of rows of a shape. -/
def describe : Shape → String
  | .scalar => "non-tuple values"
  | .fields count => toString count ++ " fields"

end Shape

end BagAlgebra
