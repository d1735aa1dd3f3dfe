/-
Which calls a parameter list accepts, how it is shown, and what its names stand for in a call. Calls
give positional arguments only.
-/
import BagAlgebra.Value.Display

namespace BagAlgebra

/-! ## Acceptance -/

namespace Param

/-- The parameters that a positional argument can fill. -/
def positional : List Param → List Param
  | [] => []
  | .required name :: ps => .required name :: positional ps
  | .defaulted name slot :: ps => .defaulted name slot :: positional ps
  | .positionalMark :: ps => positional ps
  | .rest _ :: _ => []
  | .namedMark :: _ => []
  | .extra _ :: ps => positional ps

/-- The parameters after the one that takes the surplus, or after the mark in its place. -/
def namedOnly : List Param → List Param
  | [] => []
  | .rest _ :: ps => ps
  | .namedMark :: ps => ps
  | _ :: ps => namedOnly ps

def isRequired : Param → Bool
  | .required _ => true
  | _ => false

def isRest : Param → Bool
  | .rest _ => true
  | _ => false

/-- Whether a call with so many positional arguments fits: enough for the parameters without a
default, no more than there are parameters unless the surplus is taken, and no named parameter is
left without a value. -/
def accepts (params : List Param) (count : Nat) : Bool :=
  let slots := positional params
  decide ((slots.filter isRequired).length ≤ count)
    && (decide (count ≤ slots.length) || params.any isRest)
    && !(namedOnly params).any isRequired

end Param

/-! ## Text -/

/-- The captured value at a slot. -/
def capturedAt (captured : List Value) (slot : Nat) : Value := captured[slot]?.getD .null

/-- One item as it is written in a signature. -/
def Param.text? (captured : List Value) : Param → Except Fault String
  | .required name => .ok name
  | .defaulted name slot => do return name ++ "=" ++ (← (capturedAt captured slot).repr?)
  | .rest name => .ok ("*" ++ name)
  | .extra name => .ok ("**" ++ name)
  | .positionalMark => .ok "/"
  | .namedMark => .ok "*"

/-- A parameter list as it is written. -/
def signatureText? (params : List Param) (captured : List Value) : Except Fault String := do
  return "(" ++ commaSeparated (← params.mapM (Param.text? captured)) ++ ")"

namespace Callback

/-- The parameters of a callback whose signature can be inspected. -/
def params? : Callback → Option (List Param)
  | .builtin .len => some [.required "obj", .positionalMark]
  | .builtin .repr => some [.required "obj", .positionalMark]
  | .builtin _ => none
  | .always => some [.required "left_row", .required "right_row"]
  | .function ⟨_, .uninspectable, _⟩ _ _ _ => none
  | .function _ params _ _ => some params

/-- Whether a callback may be used on so many rows. One that cannot be inspected is trusted. -/
def usableOn (f : Callback) (rows : Nat) : Bool :=
  match f.params? with
  | some params => Param.accepts params rows
  | none => true

/-- A callback with its parameter list. -/
def header? : Callback → Except Fault String
  | .always => .ok (Callback.always.label ++ "(left_row: 'Row', right_row: 'Row') -> 'bool'")
  | .function handle params body captured => do
    return (Callback.function handle params body captured).label
      ++ (← signatureText? params captured)
  | .builtin b => do
    return b.name ++ (← signatureText? (((Callback.builtin b).params?).getD []) [])

end Callback

/-! ## Calls -/

/-- Values under names. -/
abbrev Scope := List (String × Value)

/-- Gives the named parameters their defaults. -/
def Param.bindNamed (captured : List Value) : List Param → Scope
  | [] => []
  | .defaulted name slot :: ps => (name, capturedAt captured slot) :: bindNamed captured ps
  | .extra name :: ps => (name, .dict []) :: bindNamed captured ps
  | _ :: ps => bindNamed captured ps

/-- Gives each parameter its argument, or its default where the arguments have run out. -/
def Param.bind (captured : List Value) : List Param → List Value → Scope
  | [], _ => []
  | .required name :: ps, v :: vs => (name, v) :: bind captured ps vs
  | .required _ :: ps, [] => bind captured ps []
  | .defaulted name _ :: ps, v :: vs => (name, v) :: bind captured ps vs
  | .defaulted name slot :: ps, [] => (name, capturedAt captured slot) :: bind captured ps []
  | .rest name :: ps, vs => (name, .tuple vs) :: bindNamed captured ps
  | .extra name :: ps, vs => (name, .dict []) :: bind captured ps vs
  | .positionalMark :: ps, vs => bind captured ps vs
  | .namedMark :: ps, _ => bindNamed captured ps

end BagAlgebra
