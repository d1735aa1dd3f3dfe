/-
Arithmetic on values. Numbers follow the rules of numbers, and an answer that is "not a number" is a
new object. Texts, tuples and lists are joined by addition and repeated by multiplication with an
integer.
-/
import BagAlgebra.Value.Sequence

namespace BagAlgebra

/-- The fault of a failed operation on numbers. -/
def NumberFault.fault : NumberFault → Fault
  | .divisionByZero => .divisionByZero
  | .tooLarge => .tooLarge

namespace Value

variable {ε : Type}

/-- A number as a value. -/
def ofNumber : Number → Run ε Value
  | .int n => pure (.int n)
  | .float (some x) => pure (.float x)
  | .float none => return .nan (← Run.fresh)

/-- An operation that only numbers have. -/
def numeric (op : Number → Number → Except NumberFault Number) (v w : Value) : Run ε Value :=
  match v.number?, w.number? with
  | some a, some b =>
    match op a b with
    | .ok n => ofNumber n
    | .error fault => Run.fail fault.fault
  | _, _ => Run.fail .typeMismatch

def neg (v : Value) : Run ε Value :=
  match v.number? with
  | some a => ofNumber a.neg
  | none => Run.fail .typeMismatch

def add : Value → Value → Run ε Value
  | .text s, .text t => pure (.text (s ++ t))
  | .tuple xs, .tuple ys => pure (.tuple (xs ++ ys))
  | .list _ xs, .list _ ys => pure (.list none (xs ++ ys))
  | v, w => numeric Number.add v w

/-- How often a sequence is put after itself; a negative count counts as zero. -/
def copies (count : Int) (length : Nat) : Except Fault Nat :=
  if sizeLimit < count ∨ count < -sizeLimit - 1 then .error .tooLarge
  else if length = 0 then .ok 0
  else if storageLimit < count.toNat * length then .error .tooLong
  else .ok count.toNat

/-- A list put after itself. -/
def repeated (count : Int) (items : List Value) : Except Fault (List Value) :=
  (copies count items.length).map fun n => (List.replicate n items).flatten

/-- A text put after itself. A length that no text can have is a fault of the number; the items of
other sequences only run out of room. -/
def repeatedText (count : Int) (s : String) : Except Fault String :=
  if sizeLimit < count * s.length then .error .tooLarge
  else (copies count s.length).map fun n => Nat.repeat (· ++ s) n ""

/-- A text, tuple or list repeated; `none` for a value of another type. -/
def repeat? (v : Value) (count : Int) : Option (Except Fault Value) :=
  match v with
  | .text s => some ((repeatedText count s).map .text)
  | .tuple xs => some ((repeated count xs).map .tuple)
  | .list _ xs => some ((repeated count xs).map (.list none))
  | _ => none

def mul (v w : Value) : Run ε Value :=
  match v.int?.bind w.repeat?, w.int?.bind v.repeat? with
  | some r, _ => Run.ofExcept r
  | _, some r => Run.ofExcept r
  | none, none => numeric Number.mul v w

/-- The remainder of two numbers. A text on the left would be a format to be filled in; formats are left
out, and a text is refused as any other value that is not a number. -/
def floorMod : Value → Value → Run ε Value
  | .text _, _ => Run.fail .typeMismatch
  | v, w => numeric Number.floorMod v w

theorem floorMod_eq_numeric (v w : Value) :
    (v.floorMod w : Run ε Value) = numeric Number.floorMod v w := by
  cases v <;> rfl

end Value

end BagAlgebra
