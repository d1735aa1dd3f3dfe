/-
Decimal text of binary numbers. Written: the fewest digits that read back, of those the nearest, of
two equally near the even one; positional for decimal exponents from -4 to 15. Read: an optional
sign, digits with an optional point, an optional exponent, or `inf`.
-/
import BagAlgebra.Number.Binary64

namespace BagAlgebra

/-- The rational `digits * 10 ^ exponent`. -/
structure Decimal where
  digits : Nat
  exponent : Int

namespace Decimal

/-- The exact value as numerator and denominator. -/
def fraction (d : Decimal) : Nat × Nat :=
  (d.digits * Nat.pow 10 d.exponent.toNat, Nat.pow 10 (-d.exponent).toNat)

/-- The rank of the magnitude that a decimal reads as. -/
def readRank (d : Decimal) : Nat :=
  if d.digits = 0 then 0 else Binary64.nearestRank d.fraction.1 d.fraction.2

/-! ## Fewest digits -/

/-- The number of decimal digits of a natural. -/
def width (n : Nat) : Nat := (Nat.toDigits 10 n).length

/-- The `k` with `10 ^ (k - 1) ≤ num / den < 10 ^ k`, for positive `num` and `den`. -/
def pointPosition (num den : Nat) : Int :=
  let k : Int := (width num : Int) - (width den : Int)
  if den * Nat.pow 10 k.toNat ≤ num * Nat.pow 10 (-k).toNat then k + 1 else k

/-- The two neighbours of `num / den` on the grid of multiples of `10 ^ exponent`, the nearer first;
of two equally near ones the even comes first. -/
def neighbours (num den : Nat) (exponent : Int) : List Decimal :=
  let n := num * Nat.pow 10 (-exponent).toNat
  let d := den * Nat.pow 10 exponent.toNat
  let below := n / d
  let r := n % d
  if 2 * r < d ∨ (2 * r = d ∧ below % 2 = 0) then [⟨below, exponent⟩, ⟨below + 1, exponent⟩]
  else [⟨below + 1, exponent⟩, ⟨below, exponent⟩]

/-- Moves the zeros at the end of the digits into the exponent. The count bounds the zeros. -/
def dropZeros : Nat → Decimal → Decimal
  | 0, d => d
  | count + 1, d =>
    if d.digits % 10 = 0 ∧ d.digits ≠ 0 then dropZeros count ⟨d.digits / 10, d.exponent + 1⟩ else d

/-- The shortest decimal that reads back as a positive finite rank. Seventeen digits always do. -/
def shortest (rank : Nat) : Decimal :=
  let q := Binary64.magnitude rank
  let num := q.num.natAbs
  let point := pointPosition num q.den
  let hit (count : Nat) : Option Decimal :=
    (neighbours num q.den (point - count)).find? fun d => d.readRank == rank
  match (List.range' 1 17).findSome? hit with
  | some d => dropZeros (width d.digits) d
  | none => ⟨0, 0⟩

/-! ## Layout -/

/-- Decimal exponents that are written positionally. -/
def positional (exponent : Int) : Bool := decide (-4 ≤ exponent) && decide (exponent < 16)

def zeros (count : Nat) : String := String.ofList (List.replicate count '0')

/-- An exponent with its sign and at least two digits. -/
def exponentText (exponent : Int) : String :=
  let digits := toString exponent.natAbs
  (if exponent < 0 then "e-" else "e+") ++ (if exponent.natAbs < 10 then "0" ++ digits else digits)

/-- A positional text always shows a point; scientific text shows one if there is more than one
digit. -/
def text (d : Decimal) : String :=
  let ds := Nat.toDigits 10 d.digits
  let exponent : Int := (ds.length : Int) - 1 + d.exponent
  if positional exponent then
    if exponent < 0 then "0." ++ zeros (-exponent - 1).toNat ++ String.ofList ds
    else
      let whole := exponent.toNat + 1
      if ds.length ≤ whole then String.ofList ds ++ zeros (whole - ds.length) ++ ".0"
      else String.ofList (ds.take whole) ++ "." ++ String.ofList (ds.drop whole)
  else
    match ds with
    | [] => ""
    | [lead] => String.singleton lead ++ exponentText exponent
    | lead :: rest => String.singleton lead ++ "." ++ String.ofList rest ++ exponentText exponent

/-! ## Reading -/

/-- The natural that decimal digits stand for. -/
def natOfDigits (ds : List Char) : Nat :=
  ds.foldl (fun n c => 10 * n + (c.toNat - '0'.toNat)) 0

/-- An exponent: a sign and digits. -/
def readExponent? (cs : List Char) : Option Int :=
  let (negative, ds) : Bool × List Char := match cs with
    | '-' :: ds => (true, ds)
    | '+' :: ds => (false, ds)
    | ds => (false, ds)
  if ds.isEmpty || !ds.all Char.isDigit then none
  else some (if negative then -(natOfDigits ds : Int) else natOfDigits ds)

/-- Digits with an optional point and an optional exponent. -/
def read? (cs : List Char) : Option Decimal :=
  let whole := cs.takeWhile Char.isDigit
  let afterWhole := cs.dropWhile Char.isDigit
  let (places, rest) : List Char × List Char := match afterWhole with
    | '.' :: more => (more.takeWhile Char.isDigit, more.dropWhile Char.isDigit)
    | more => ([], more)
  if whole.isEmpty && places.isEmpty then none
  else
    let digits := natOfDigits (whole ++ places)
    match rest with
    | [] => some ⟨digits, -places.length⟩
    | e :: more =>
      if e == 'e' || e == 'E' then
        (readExponent? more).map fun exponent => ⟨digits, exponent - places.length⟩
      else none

/-- The rank that a decimal reads as. A point position beyond a thousand digits either way is past
the format, so it is settled before any power is computed. -/
def rank (d : Decimal) : Nat :=
  let point : Int := (width d.digits : Int) + d.exponent
  if d.digits = 0 ∨ point < -1000 then 0
  else if 1000 < point then Binary64.top
  else d.readRank

end Decimal

namespace Binary64

/-- The shortest text that reads back. -/
def text (x : Binary64) : String :=
  let sign := if x.negative then "-" else ""
  if x.isInfinite then sign ++ "inf"
  else if x.isZero then sign ++ "0.0"
  else sign ++ (Decimal.shortest x.rank.val).text

/-- The number that a text reads as. -/
def parse? (s : String) : Option Binary64 :=
  let (negative, body) : Bool × List Char := match s.toList with
    | '-' :: cs => (true, cs)
    | '+' :: cs => (false, cs)
    | cs => (false, cs)
  if body = "inf".toList then some (infinity negative)
  else (Decimal.read? body).map fun d => ofRank negative d.rank

end Binary64

end BagAlgebra
