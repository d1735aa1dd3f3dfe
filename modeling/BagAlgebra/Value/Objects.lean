/-
The objects that values mention: whatever is told apart by a serial number.
-/
import BagAlgebra.Value.Basic

namespace BagAlgebra

/-- The kinds of object that are told apart by identity. -/
inductive ObjectKind where
  | nan
  | list
  | generator
  | function
  | bare
deriving DecidableEq

/-- An object: its kind and its serial number. -/
structure Object where
  kind : ObjectKind
  serial : Nat
deriving DecidableEq

mutual

/-- The objects that a value mentions, at any depth. -/
def Value.objects : Value → List Object
  | .nan serial => [⟨.nan, serial⟩]
  | .tuple items => objectsOfItems items
  | .list cell items => cell.toList.map (Object.mk .list) ++ objectsOfItems items
  | .dict entries => objectsOfEntries entries
  | .generator serial items => ⟨.generator, serial⟩ :: objectsOfItems items
  | .callable f => f.objects
  | .expr e => e.objects
  | .builder e => e.objects
  | _ => []
termination_by structural v => v

def objectsOfItems : List Value → List Object
  | [] => []
  | v :: vs => v.objects ++ objectsOfItems vs
termination_by structural vs => vs

def Entry.objects : Entry → List Object
  | .mk key value => key.objects ++ value.objects
termination_by structural e => e

def objectsOfEntries : List Entry → List Object
  | [] => []
  | e :: es => e.objects ++ objectsOfEntries es
termination_by structural es => es

def Callback.objects : Callback → List Object
  | .function handle _ _ captured => ⟨.function, handle.serial⟩ :: objectsOfItems captured
  | _ => []
termination_by structural f => f

def Expr.objects : Expr → List Object
  | .bare serial => [⟨.bare, serial⟩]
  | .terminal rows => objectsOfItems rows
  | .selection child p => child.objects ++ p.objects
  | .projection child f => child.objects ++ f.objects
  | .join left right p f => left.objects ++ right.objects ++ (p.objects ++ f.objects)
  | .product left right f => left.objects ++ right.objects ++ f.objects
  | .union left right => left.objects ++ right.objects
  | .filter _ left right _ => left.objects ++ right.objects
termination_by structural e => e

end

theorem mem_objectsOfItems {o : Object} {vs : List Value} :
    o ∈ objectsOfItems vs ↔ ∃ v ∈ vs, o ∈ v.objects := by
  induction vs with
  | nil => simp [objectsOfItems]
  | cons v vs ih => simp [objectsOfItems, ih]

theorem mem_objectsOfEntries {o : Object} {es : List Entry} :
    o ∈ objectsOfEntries es ↔ ∃ e ∈ es, o ∈ e.objects := by
  induction es with
  | nil => simp [objectsOfEntries]
  | cons e es ih => simp [objectsOfEntries, ih]

/-- The objects of a plain value: none. -/
theorem objects_of_isPlain {v : Value} (h : v.isPlain = true) : v.objects = [] := by
  cases v with
  | callable f =>
    cases f with
    | builtin b => rfl
    | _ => cases h
  | null => rfl
  | bool b => rfl
  | int n => rfl
  | float x => rfl
  | text s => rfl
  | _ => cases h

end BagAlgebra
