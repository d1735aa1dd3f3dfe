/-
The exact values of binary numbers. From one rank to the next the magnitude grows by a unit of the first,
also where the exponent changes; so magnitudes are in the order of their ranks, and no two binary numbers have
the same value but the two zeros.
-/
import BagAlgebra.Number.Binary64
import Mathlib.Algebra.Order.Field.Power
import Mathlib.Algebra.Order.Field.Rat
import Mathlib.Tactic.Linarith
import Mathlib.Tactic.Ring

namespace BagAlgebra

namespace Binary64

theorem twoPow_eq (e : Int) : twoPow e = (2 : Rat) ^ e := by
  unfold twoPow
  split
  · rename_i h
    obtain ⟨n, rfl⟩ := Int.eq_ofNat_of_zero_le h
    simp
  · rename_i h
    obtain ⟨n, hn⟩ := Int.eq_ofNat_of_zero_le (Int.neg_nonneg_of_nonpos (not_le.1 h).le)
    rw [hn, ← neg_neg e, hn]
    simp

/-- The next rank counts one unit more; or it counts half of that, in units of twice the size. -/
theorem next_rank (rank : Nat) :
    (significand (rank + 1) = significand rank + 1 ∧ power (rank + 1) = power rank) ∨
      (2 * significand (rank + 1) = significand rank + 1 ∧ power (rank + 1) = power rank + 1) := by
  unfold significand power stride
  by_cases h : rank + 1 < 4503599627370496
  · rw [if_pos h, if_pos (by omega)]
    omega
  · rw [if_neg h]
    split <;> omega

theorem magnitude_succ (rank : Nat) : magnitude (rank + 1) = magnitude rank + 2 ^ power rank := by
  rw [magnitude, magnitude, twoPow_eq, twoPow_eq]
  rcases next_rank rank with ⟨hs, hp⟩ | ⟨hs, hp⟩
  · rw [hs, hp, Nat.cast_add_one]
    ring
  · have hcast : 2 * (significand (rank + 1) : Rat) = significand rank + 1 := by
      exact_mod_cast hs
    rw [hp, zpow_add_one₀ two_ne_zero, ← mul_assoc, mul_right_comm, mul_comm _ (2 : Rat), hcast]
    ring

theorem magnitude_strictMono : StrictMono magnitude :=
  strictMono_nat_of_lt_succ fun rank => by
    rw [magnitude_succ]
    exact lt_add_of_pos_right _ (zpow_pos two_pos _)

theorem magnitude_zero : magnitude 0 = 0 := by
  rw [magnitude, significand, if_pos (by decide), Nat.cast_zero, zero_mul]

theorem magnitude_nonneg (rank : Nat) : 0 ≤ magnitude rank := by
  rw [← magnitude_zero]
  exact magnitude_strictMono.monotone (Nat.zero_le rank)

theorem magnitude_eq_zero_iff {rank : Nat} : magnitude rank = 0 ↔ rank = 0 := by
  rw [← magnitude_zero, magnitude_strictMono.injective.eq_iff]

/-- The exact value, without any rounding. -/
theorem quantity_eq (x : Binary64) : x.quantity =
    if x.isInfinite then .infinite x.negative
    else .rational ((if x.negative then -1 else 1) * significand x.rank * 2 ^ power x.rank) := by
  rw [quantity, magnitude, twoPow_eq]
  cases x.negative <;> simp

theorem isZero_iff {x : Binary64} : x.isZero = true ↔ x.rank.val = 0 := beq_iff_eq

theorem isInfinite_iff {x : Binary64} : x.isInfinite = true ↔ x.rank.val = top := beq_iff_eq

/-- Values with signs are equal if the ranks are, and the signs too unless the rank is zero. -/
theorem signed_magnitude_inj {m n : Bool} {r s : Nat}
    (h : (if m then -magnitude r else magnitude r) = if n then -magnitude s else magnitude s) :
    r = s ∧ (m = n ∨ r = 0) := by
  have hr := magnitude_nonneg r
  have hs := magnitude_nonneg s
  have opposite : -magnitude r = magnitude s → r = s ∧ r = 0 := by
    intro h
    have hr0 : r = 0 := magnitude_eq_zero_iff.1 (by linarith)
    have hs0 : s = 0 := magnitude_eq_zero_iff.1 (by linarith)
    exact ⟨hr0.trans hs0.symm, hr0⟩
  cases m <;> cases n
  · exact ⟨magnitude_strictMono.injective h, .inl rfl⟩
  · obtain ⟨hrs, hr0⟩ := opposite (neg_eq_iff_eq_neg.2 h)
    exact ⟨hrs, .inr hr0⟩
  · obtain ⟨hrs, hr0⟩ := opposite h
    exact ⟨hrs, .inr hr0⟩
  · exact ⟨magnitude_strictMono.injective (neg_injective h), .inl rfl⟩

theorem quantity_of_isZero {x : Binary64} (h : x.isZero = true) : x.quantity = .rational 0 := by
  rw [isZero_iff] at h
  have hfinite : x.isInfinite = false := by
    rw [isInfinite, h]
    rfl
  rw [quantity, hfinite, if_neg Bool.false_ne_true, h, magnitude_zero, neg_zero, ite_self]

theorem eq_of_rank {x y : Binary64} (hs : x.negative = y.negative) (hr : x.rank.val = y.rank.val) :
    x = y := by
  cases x
  cases y
  cases hs
  cases Fin.ext hr
  rfl

/-- Only the two zeros share a value. -/
theorem quantity_eq_iff {x y : Binary64} :
    x.quantity = y.quantity ↔ x = y ∨ (x.isZero = true ∧ y.isZero = true) := by
  constructor
  · intro h
    unfold quantity at h
    cases hx : x.isInfinite <;> cases hy : y.isInfinite <;> rw [hx, hy] at h
    · obtain ⟨hrank, hsign | hzero⟩ := signed_magnitude_inj (Quantity.rational.inj h)
      · exact .inl (eq_of_rank hsign hrank)
      · exact .inr ⟨isZero_iff.2 hzero, isZero_iff.2 (hrank ▸ hzero)⟩
    · cases h
    · cases h
    · have hrank := (isInfinite_iff.1 hx).trans (isInfinite_iff.1 hy).symm
      exact .inl (eq_of_rank (Quantity.infinite.inj h) hrank)
  · rintro (rfl | ⟨hx, hy⟩)
    · rfl
    · rw [quantity_of_isZero hx, quantity_of_isZero hy]

end Binary64

end BagAlgebra
