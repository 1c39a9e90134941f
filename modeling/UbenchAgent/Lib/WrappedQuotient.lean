import Mathlib.Data.Int.Basic
import Mathlib.Tactic.Linarith

/-!
# Quotients of wrapped products

A machine with 2m integers from -m to m - 1 divides a number that has wrapped.  If the number
is not negative and the divisor is positive, the truncated quotient is the one of the
unwrapped number only if nothing was wrapped.
-/

namespace UbenchAgent.WrappedQuotient

variable {m : ℕ} {p f : ℤ}

theorem bmod_of_lt (hp : 0 ≤ p) (hlt : p < m) : p.bmod (2 * m) = p := by
  apply Int.bmod_eq_of_le_mul_two
  · omega
  · push_cast
    omega

theorem bmod_le_of_ge (hm : 0 < m) (hge : (m : ℤ) ≤ p) : p.bmod (2 * m) + 2 * m ≤ p := by
  have hlt : p.bmod (2 * m) < m := by
    have hbound : p.bmod (2 * m) < (((2 * m : ℕ) : ℤ) + 1) / 2 := Int.bmod_lt (by omega)
    omega
  have hsplit : p.bmod (2 * m) + ((2 * m : ℕ) : ℤ) * p.bdiv (2 * m) = p := Int.bmod_add_bdiv p _
  have hpos : 1 ≤ p.bdiv (2 * m) := by
    by_contra hnot
    have hle : ((2 * m : ℕ) : ℤ) * p.bdiv (2 * m) ≤ 0 :=
      mul_nonpos_of_nonneg_of_nonpos (by omega) (by omega)
    omega
  have hmul : ((2 * m : ℕ) : ℤ) * 1 ≤ ((2 * m : ℕ) : ℤ) * p.bdiv (2 * m) :=
    mul_le_mul_of_nonneg_left hpos (by omega)
  push_cast at hmul hsplit
  omega

/-- The quotient of a wrapped number is exact only if the number was in range. -/
theorem tdiv_bmod_eq_iff (hp : 0 ≤ p) (hf : 0 < f) (hfm : f < m) :
    (p.bmod (2 * m)).tdiv f = p / f ↔ p < m := by
  constructor
  · intro heq
    by_contra hge
    have hwrap := bmod_le_of_ge (by omega) (Int.not_lt.mp hge)
    rcases Int.lt_or_le (p.bmod (2 * m)) 0 with hneg | hnonneg
    · -- A negative number has no positive quotient.
      have hleft : (p.bmod (2 * m)).tdiv f ≤ 0 := by
        have hquot : 0 ≤ (-p.bmod (2 * m)).tdiv f := Int.tdiv_nonneg (by omega) hf.le
        rw [Int.neg_tdiv] at hquot
        omega
      have hright : 1 ≤ p / f := (Int.le_ediv_iff_mul_le hf).mpr (by omega)
      omega
    · -- The unwrapped number has room for one more divisor.
      have hright : (p.bmod (2 * m) + 1 * f) / f ≤ p / f := Int.ediv_le_ediv hf (by omega)
      rw [Int.add_mul_ediv_right _ _ hf.ne', ← heq, Int.tdiv_eq_ediv_of_nonneg hnonneg] at hright
      omega
  · intro hlt
    rw [bmod_of_lt hp hlt, Int.tdiv_eq_ediv_of_nonneg hp]

end UbenchAgent.WrappedQuotient
