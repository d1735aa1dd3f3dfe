/-
Decimal numerals for integers: blanks around, a sign, and decimal digits of any script with single
underscores between them.
-/
import BagAlgebra.Text.Blank

namespace BagAlgebra

/-- The zeros of the scripts that have decimal digits. The digits of a script follow its zero. -/
def digitZeros : List Nat :=
  [0x30, 0x660, 0x6f0, 0x7c0, 0x966, 0x9e6, 0xa66, 0xae6, 0xb66, 0xbe6, 0xc66, 0xce6, 0xd66, 0xde6,
   0xe50, 0xed0, 0xf20, 0x1040, 0x1090, 0x17e0, 0x1810, 0x1946, 0x19d0, 0x1a80, 0x1a90, 0x1b50,
   0x1bb0, 0x1c40, 0x1c50, 0xa620, 0xa8d0, 0xa900, 0xa9d0, 0xa9f0, 0xaa50, 0xabf0, 0xff10, 0x104a0,
   0x10d30, 0x11066, 0x110f0, 0x11136, 0x111d0, 0x112f0, 0x11450, 0x114d0, 0x11650, 0x116c0, 0x11730,
   0x118e0, 0x11950, 0x11c50, 0x11d50, 0x11da0, 0x16a60, 0x16ac0, 0x16b50, 0x1d7ce, 0x1d7d8, 0x1d7e2,
   0x1d7ec, 0x1d7f6, 0x1e140, 0x1e2f0, 0x1e950, 0x1fbf0]

/-- The value of a decimal digit of any script. -/
def digitValue? (c : Char) : Option Nat :=
  (digitZeros.find? fun first => first ≤ c.toNat && c.toNat < first + 10).map (c.toNat - ·)

namespace Numeral

/-- Blanks around a numeral: in a text of ASCII characters the ASCII blanks only, the separator
controls not among them; beyond ASCII every blank. -/
def isMargin (c : Char) : Bool :=
  if c.toNat < 0x80 then (0x9 ≤ c.toNat && c.toNat ≤ 0xd) || c.toNat == 0x20 else isBlank c

/-- Removes the blanks around a numeral. -/
def trim (cs : List Char) : List Char :=
  ((cs.dropWhile isMargin).reverse.dropWhile isMargin).reverse

/-- Reads digits, each underscore standing between two digits. -/
def digits? (value : Nat) : List Char → Option Nat
  | [] => some value
  | '_' :: c :: rest => do digits? (10 * value + (← digitValue? c)) rest
  | c :: rest => do digits? (10 * value + (← digitValue? c)) rest

/-- The natural that a run of digits stands for; it starts with a digit. -/
def natural? : List Char → Option Nat
  | [] => none
  | c :: rest => do digits? (← digitValue? c) rest

/-- The most digits that an integer may have in text. -/
def digitLimit : Nat := 4300

/-- Whether an integer has no more digits than text may have. -/
def fits (n : Int) : Bool := decide (n.natAbs < Nat.pow 10 digitLimit)

/-- The integer that a text stands for. -/
def parse? (s : String) : Option Int :=
  let (negative, body) : Bool × List Char := match trim s.toList with
    | '-' :: cs => (true, cs)
    | '+' :: cs => (false, cs)
    | cs => (false, cs)
  if digitLimit < (body.filter (· != '_')).length then none
  else (natural? body).map fun n => if negative then -(n : Int) else n

end Numeral

end BagAlgebra
