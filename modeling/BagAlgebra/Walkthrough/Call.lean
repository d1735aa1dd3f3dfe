/-
The calls that a page makes, in the order in which it makes them.
-/
import BagAlgebra.Event

namespace BagAlgebra

/-- A part of the page that other parts are put into. -/
inductive Block where
  | column (index : Nat)
  | expander
  | tab (index : Nat)
deriving DecidableEq

/-- A call for a part of the page. -/
inductive Call where
  | configure (title icon layout : String)
  | title (text : String)
  | write (text : String)
  | columns (weights : List Nat) (gap : String)
  | numberInput (label : String) (step : Nat) (key help : String)
  | selectBox (label : String) (options : List String) (key : String)
  | expander (label : String)
  | markdown (text : String)
  | code (text language : String)
  | button (label style : String)
  | success (text : String)
  | info (text : String)
  | error (text : String)
  | fault (kind : FaultKind)
  | tabs (labels : List String)
  | table (records : List Value)
  | download (label data fileName mediaType : String)
  | enter (block : Block)
  | leave (block : Block)

/-- What a page leaves in the log: its own calls between the events of the engine. -/
inductive PageEvent where
  | engine (event : Event)
  | call (call : Call)

/-- A run of a page. -/
abbrev Render (α : Type) : Type := Run PageEvent α

namespace Render

/-- Makes a call. -/
def call (part : Call) : Render Unit := Run.emit (.call part)

/-- Lets the engine run. -/
def engine {α : Type} (run : Eval α) : Render α := run.mapLog .engine

/-- Puts parts into a block, which is left even if a part fails. -/
def within {α : Type} (block : Block) (parts : Render α) : Render α := do
  Render.call (.enter block)
  let result ← parts.attempt
  Render.call (.leave block)
  result

end Render

end BagAlgebra
