/-
Numbers as rows hold them: integers of any size, and binary numbers of which one is "not a number".
Comparison is by exact value, at any magnitude. Arithmetic on two integers is exact; with a binary
number on either side the other is converted first, which fails past the finite range. Division and
remainder go toward the floor, so a remainder has the sign of the divisor.
-/
import BagAlgebra.Number.Binary64

namespace BagAlgebra

/-- An integer, or a binary number with `none` for "not a number". -/
inductive Number where
  | int (n : Int)
  | float (x : Option Binary64)

/-- Why an operation on numbers has no answer. -/
inductive NumberFault where
  | divisionByZero
  | tooLarge

namespace Number

/-- The exact value; `none` for "not a number". -/
def quantity : Number → Option Quantity
  | .int n => some (.rational n)
  | .float x => x.map Binary64.quantity

/-- Strict order by exact value; nothing is below or above "not a number". -/
def lt (a b : Number) : Bool :=
  match a.quantity, b.quantity with
  | some p, some q => p.lt q
  | _, _ => false

/-- Equality by exact value; "not a number" differs from every number. -/
def eq (a b : Number) : Bool :=
  match a.quantity, b.quantity with
  | some p, some q => p == q
  | _, _ => false

def le (a b : Number) : Bool := a.lt b || a.eq b

/-! ## Arithmetic -/

/-- The binary number nearest to a number. -/
def toFloat : Number → Except NumberFault (Option Binary64)
  | .float x => .ok x
  | .int n =>
    match Binary64.ofInt? n with
    | some x => .ok (some x)
    | none => .error .tooLarge

/-- An operation that is exact on integers and rounds once on binary numbers. -/
def lift (onInts : Int → Int → Except NumberFault Int)
    (onFloats : Option Binary64 → Option Binary64 → Except NumberFault (Option Binary64)) :
    Number → Number → Except NumberFault Number
  | .int a, .int b => (onInts a b).map .int
  | a, b => do
    let x ← a.toFloat
    let y ← b.toFloat
    return .float (← onFloats x y)

/-- An operation on two binary numbers, with "not a number" passed on. -/
def strict (op : Binary64 → Binary64 → Option Binary64) (x y : Option Binary64) : Option Binary64 :=
  x.bind fun x => y.bind fun y => op x y

def add : Number → Number → Except NumberFault Number :=
  lift (fun a b => .ok (a + b)) (fun x y => .ok (strict Binary64.add x y))

def sub : Number → Number → Except NumberFault Number :=
  lift (fun a b => .ok (a - b)) (fun x y => .ok (strict Binary64.sub x y))

def mul : Number → Number → Except NumberFault Number :=
  lift (fun a b => .ok (a * b)) (fun x y => .ok (strict Binary64.mul x y))

def neg : Number → Number
  | .int n => .int (-n)
  | .float x => .float (x.map Binary64.neg)

/-- Remainder and adjusted quotient of two binary numbers, the divisor not zero. The remainder of a
division toward zero is moved to the divisor's side; a remainder of zero takes the divisor's sign. -/
def divide (x y : Binary64) : Option (Option Binary64 × Binary64) := do
  let r ← Binary64.remainder x y
  let q := (Binary64.sub x r).bind fun d => Binary64.div d y
  if r.isZero then return (q, Binary64.zero y.negative)
  else if r.negative != y.negative then
    return (q.bind fun q => Binary64.sub q (Binary64.ofRat false 1), ← Binary64.add r y)
  else return (q, r)

/-- The quotient goes to the nearest integer at or below it. A quotient of zero takes the sign of
`x / y`. -/
def floorQuotient (x y : Binary64) : Option Binary64 := do
  let (q, _) ← divide x y
  let q ← q
  if q.isZero then
    return Binary64.zero (x.negative != y.negative)
  else
    let below := q.floor
    match q.quantity, below.quantity with
    | .rational p, .rational b =>
      if 1 < 2 * (p - b) then Binary64.add below (Binary64.ofRat false 1) else return below
    | _, _ => return below

def floorRemainder (x y : Binary64) : Option Binary64 := (divide x y).map (·.2)

/-- Refuses a divisor of zero. -/
def guarded (op : Binary64 → Binary64 → Option Binary64) (x y : Option Binary64) :
    Except NumberFault (Option Binary64) :=
  match y with
  | some d => if d.isZero then .error .divisionByZero else .ok (strict op x y)
  | none => .ok none

def floorDiv : Number → Number → Except NumberFault Number :=
  lift (fun a b => if b = 0 then .error .divisionByZero else .ok (Int.fdiv a b))
    (guarded floorQuotient)

def floorMod : Number → Number → Except NumberFault Number :=
  lift (fun a b => if b = 0 then .error .divisionByZero else .ok (Int.fmod a b))
    (guarded floorRemainder)

end Number

end BagAlgebra
