/-
Arithmetic progressions of integers, from a start to a bound that is left out.
-/

namespace BagAlgebra

/-- The integers from `start` in steps of `step`, as far as they lie before `stop`. -/
structure Span where
  start : Int
  stop : Int
  step : Int
deriving DecidableEq

namespace Span

/-- The number of members. -/
def length (s : Span) : Nat :=
  if 0 < s.step then ((s.stop - s.start + s.step - 1) / s.step).toNat
  else if s.step < 0 then ((s.start - s.stop - s.step - 1) / -s.step).toNat
  else 0

/-- The member at a position. -/
def nth (s : Span) (i : Nat) : Int := s.start + i * s.step

/-- The members in order. -/
def toList (s : Span) : List Int := (List.range s.length).map s.nth

@[simp] theorem length_toList (s : Span) : s.toList.length = s.length := by simp [toList]

/-- Whether two progressions have the same members in the same order. -/
def same (s t : Span) : Bool :=
  s.length == t.length && (s.length == 0 || s.start == t.start)
    && (s.length ≤ 1 || s.step == t.step)

end Span

end BagAlgebra
