/-
What an evaluation leaves in the log.
-/
import BagAlgebra.Run
import BagAlgebra.Value.Basic

namespace BagAlgebra

/-- An event of an evaluation. -/
inductive Event where
  /-- A selection is done and kept so many rows. -/
  | kept (count : Nat)
  /-- A join is done: the numbers of left rows, right rows and produced rows. -/
  | joined (left right produced : Nat)
  /-- A filter gave up its set and scans instead. -/
  | rescanned (kind : FilterKind)
  /-- A callback showed a value under a label. -/
  | traced (label : String) (value : Value)

namespace Event

/-- The text of an event of the engine; a trace has none. -/
def message? : Event → Option String
  | .kept count => some ("Selection kept " ++ toString count ++ " rows")
  | .joined left right produced =>
    some ("Join of " ++ toString left ++ " x " ++ toString right ++ " rows produced "
      ++ toString produced ++ " rows")
  | .rescanned kind => some (kind.name ++ ": rows are unhashable, scanning instead")
  | .traced _ _ => none

end Event

/-- An evaluation: a run that logs events. -/
abbrev Eval (α : Type) : Type := Run Event α

end BagAlgebra
