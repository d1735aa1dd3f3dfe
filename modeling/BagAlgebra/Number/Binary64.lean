/-
Binary floating-point numbers of 64 bits, "not a number" apart. A number is its sign and the rank of
its magnitude among the magnitudes of the format, zero first and infinity last, so neighbours differ
by one rank. Arithmetic is exact rational arithmetic followed by one rounding to the nearest
magnitude, a half going to the even rank. An operation that has no number for an answer gives `none`.
-/

namespace BagAlgebra

/-! ## Exact values -/

/-- An exact number: a rational, or an infinity of either sign. -/
inductive Quantity where
  | rational (q : Rat)
  | infinite (negative : Bool)
deriving DecidableEq

namespace Quantity

/-- The order of the extended rational line. -/
def lt : Quantity → Quantity → Bool
  | .rational p, .rational q => decide (p < q)
  | .rational _, .infinite negative => !negative
  | .infinite negative, .rational _ => negative
  | .infinite m, .infinite n => m && !n

end Quantity

/-! ## The format -/

/-- A sign and the rank of a magnitude. Each of 2047 exponents has `2 ^ 52` finite magnitudes, ranked in
ascending order; the last rank is infinity. -/
structure Binary64 where
  negative : Bool
  rank : Fin 9218868437227405313
deriving DecidableEq

namespace Binary64

/-- The number of ranks with one binary exponent, `2 ^ 52`. -/
def stride : Nat := 4503599627370496

/-- The rank of infinity, `2047 * 2 ^ 52`. -/
def top : Nat := 9218868437227405312

/-- The number of a sign and a rank; ranks past the last one are infinity. -/
def ofRank (negative : Bool) (rank : Nat) : Binary64 :=
  ⟨negative, ⟨min rank top, by unfold top; omega⟩⟩

def zero (negative : Bool) : Binary64 := ofRank negative 0

def infinity (negative : Bool) : Binary64 := ofRank negative top

def isInfinite (x : Binary64) : Bool := x.rank.val == top

def isZero (x : Binary64) : Bool := x.rank.val == 0

/-- The integer whose product with two to the `power` is the magnitude of a finite rank. -/
def significand (rank : Nat) : Nat :=
  if rank < stride then rank else stride + rank % stride

/-- The power of two that counts the units of a finite rank. -/
def power (rank : Nat) : Int :=
  ((max (rank / stride) 1 : Nat) : Int) - 1075

/-- Two to an integer power. -/
def twoPow (e : Int) : Rat :=
  if 0 ≤ e then (Nat.pow 2 e.toNat : Rat) else 1 / (Nat.pow 2 (-e).toNat : Rat)

/-- The magnitude of a finite rank. -/
def magnitude (rank : Nat) : Rat := (significand rank : Rat) * twoPow (power rank)

/-- The exact value. -/
def quantity (x : Binary64) : Quantity :=
  if x.isInfinite then .infinite x.negative
  else .rational (if x.negative then -magnitude x.rank.val else magnitude x.rank.val)

/-! ## Rounding -/

/-- A quotient of naturals rounded to the nearest integer, a half going to the even one. -/
def roundQuotient (num den : Nat) : Nat :=
  let q := num / den
  let r := num % den
  if 2 * r < den ∨ (2 * r = den ∧ q % 2 = 0) then q else q + 1

/-- The largest `e` with `2 ^ e ≤ num / den`, for positive `num` and `den`. -/
def floorLog (num den : Nat) : Int :=
  let e : Int := (Nat.log2 num : Int) - (Nat.log2 den : Int)
  if den * Nat.pow 2 e.toNat ≤ num * Nat.pow 2 (-e).toNat then e else e - 1

/-- The rank of the magnitude nearest to `num / den`, a half going to the even rank. Counting the
units of the quotient's own exponent makes a carry into the next exponent the next rank. -/
def nearestRank (num den : Nat) : Nat :=
  let unit : Int := max (floorLog num den - 52) (-1074)
  (unit + 1074).toNat * stride
    + roundQuotient (num * Nat.pow 2 (-unit).toNat) (den * Nat.pow 2 unit.toNat)

/-- The number nearest to a rational; a zero takes the given sign. -/
def ofRat (negativeZero : Bool) (q : Rat) : Binary64 :=
  if q.num = 0 then zero negativeZero
  else ofRank (decide (q.num < 0)) (nearestRank q.num.natAbs q.den)

/-- The number nearest to an integer, unless that is past the finite range. -/
def ofInt? (n : Int) : Option Binary64 :=
  let x := ofRat false (n : Rat)
  if x.isInfinite then none else some x

/-! ## Arithmetic -/

def neg (x : Binary64) : Binary64 := { x with negative := !x.negative }

/-- Sum. A sum of two negative zeros is the negative zero, any other sum of zero the positive. -/
def add (x y : Binary64) : Option Binary64 :=
  match x.quantity, y.quantity with
  | .rational p, .rational q => some (ofRat (x.negative && y.negative) (p + q))
  | .infinite m, .infinite n => if m = n then some x else none
  | .infinite _, .rational _ => some x
  | .rational _, .infinite _ => some y

def sub (x y : Binary64) : Option Binary64 := add x y.neg

/-- Product. -/
def mul (x y : Binary64) : Option Binary64 :=
  let negative := x.negative != y.negative
  match x.quantity, y.quantity with
  | .rational p, .rational q => some (ofRat negative (p * q))
  | _, _ => if x.isZero || y.isZero then none else some (infinity negative)

/-- Quotient by a number other than zero. -/
def div (x y : Binary64) : Option Binary64 :=
  let negative := x.negative != y.negative
  match x.quantity, y.quantity with
  | .rational p, .rational q => some (ofRat negative (p / q))
  | .infinite _, .rational _ => some (infinity negative)
  | .rational _, .infinite _ => some (zero negative)
  | .infinite _, .infinite _ => none

/-- The part of a rational before the point. -/
def truncate (q : Rat) : Int := Int.tdiv q.num q.den

/-- The remainder of a division that goes toward zero; it is exact and has the sign of `x`. -/
def remainder (x y : Binary64) : Option Binary64 :=
  match x.quantity, y.quantity with
  | .rational p, .rational q =>
    if y.isZero then none else some (ofRat x.negative (p - q * (truncate (p / q) : Rat)))
  | .rational _, .infinite _ => some x
  | .infinite _, _ => none

/-- The largest integer not above a finite number; an infinity stays. -/
def floor (x : Binary64) : Binary64 :=
  match x.quantity with
  | .rational q => ofRat x.negative (q.floor : Rat)
  | .infinite _ => x

end Binary64

end BagAlgebra
