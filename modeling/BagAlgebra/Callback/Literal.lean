/-
The values of literals. A literal is made anew each time it is evaluated, so a generator in it has
all its items left, and a "not a number" in it is none of those made before. Only captured values
stay the objects that they are.
-/
import BagAlgebra.Callback.Signature
import BagAlgebra.Value.Sequence

namespace BagAlgebra

variable {ε : Type}

mutual

/-- Makes the value that a literal writes down. -/
def Literal.make (captured : List Value) : Literal → Run ε Value
  | .null => pure .null
  | .bool b => pure (.bool b)
  | .int n => pure (.int n)
  | .float x => pure (.float x)
  | .nan => do return .nan (← Run.fresh)
  | .text s => pure (.text s)
  | .tuple items => do return .tuple (← makeItems captured items)
  | .list items => do return .list none (← makeItems captured items)
  | .dict entries => do return .dict (← makeEntries captured [] entries)
  | .generator items => do
    let vs ← makeItems captured items
    return .generator (← Run.fresh) vs
  | .range arguments => do
    let vs ← makeItems captured arguments
    return .range (← Span.ofValues vs)
  | .captured slot => pure (capturedAt captured slot)
termination_by structural l => l

def makeItems (captured : List Value) : List Literal → Run ε (List Value)
  | [] => pure []
  | l :: ls => do
    let v ← l.make captured
    return v :: (← makeItems captured ls)
termination_by structural ls => ls

/-- A key has to be hashable; of two matching keys the first stays, with the value of the second. -/
def makeEntries (captured : List Value) (done : List Entry) :
    List LiteralEntry → Run ε (List Entry)
  | [] => pure done
  | e :: es => do
    let (key, value) ← e.make captured
    if key.hashable then makeEntries captured (putEntry done key value) es
    else Run.fail .typeMismatch
termination_by structural es => es

def LiteralEntry.make (captured : List Value) : LiteralEntry → Run ε (Value × Value)
  | .mk key value => do
    let k ← key.make captured
    let v ← value.make captured
    return (k, v)
termination_by structural e => e

end

end BagAlgebra
