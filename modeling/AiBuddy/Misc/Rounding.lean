import Mathlib.Algebra.Order.Ring.Int

/-!
# Rounding half to even

The integer nearest to an exact quotient, as Python's `round` has it.
-/

namespace Rounding

/-- The integer nearest to `n / d`, for a positive `d`. Of two that are equally near, the even
one. -/
def halfEven (n d : Int) : Int :=
  let quotient := n / d
  let remainder := n % d
  if 2 * remainder < d then quotient
  else if d < 2 * remainder then quotient + 1
  else quotient + quotient % 2

variable {d : Int}

theorem halfEven_mul (hd : 0 < d) (q : Int) : halfEven (d * q) d = q := by
  unfold halfEven
  rw [Int.mul_ediv_cancel_left q (by omega), Int.mul_emod_right]
  exact if_pos (by omega)

theorem halfEven_near (hd : 0 < d) (n : Int) :
    2 * n ≤ 2 * (d * halfEven n d) + d ∧ 2 * (d * halfEven n d) ≤ 2 * n + d := by
  have hn := Int.mul_ediv_add_emod n d
  have hlow := Int.emod_nonneg n (by omega : d ≠ 0)
  have hhigh := Int.emod_lt_of_pos n hd
  have hnext : d * (n / d + 1) = d * (n / d) + d := by rw [Int.mul_add, Int.mul_one]
  unfold halfEven
  dsimp only
  split
  · omega
  split
  · omega
  rcases Int.emod_two_eq_zero_or_one (n / d) with heven | hodd
  · rw [heven, Int.add_zero]
    omega
  · rw [hodd]
    omega

theorem halfEven_step (hd : 0 < d) (m i : Int) :
    m / d ≤ halfEven ((i + 1) * m) d - halfEven (i * m) d ∧
      halfEven ((i + 1) * m) d - halfEven (i * m) d ≤ m / d + 1 := by
  have hm := Int.mul_ediv_add_emod m d
  by_cases hexact : m % d = 0
  · have hmul : ∀ j, halfEven (j * m) d = j * (m / d) := fun j => by
      have hj : j * m = d * (j * (m / d)) := by
        rw [Int.mul_left_comm, ← Int.add_zero (d * _), ← hexact, hm]
      rw [hj, halfEven_mul hd]
    rw [hmul, hmul, Int.add_mul, Int.one_mul]
    omega
  · have hlow := Int.emod_nonneg m (by omega : d ≠ 0)
    have hhigh := Int.emod_lt_of_pos m hd
    have hnear := halfEven_near hd (i * m)
    have hnear' := halfEven_near hd ((i + 1) * m)
    rw [Int.add_mul, Int.one_mul] at hnear' ⊢
    generalize halfEven (i * m) d = a at *
    generalize halfEven (i * m + m) d = b at *
    constructor
    · by_contra hless
      have := Int.mul_le_mul_of_nonneg_left (by omega : b + 1 ≤ a + m / d) (by omega : 0 ≤ d)
      rw [Int.mul_add, Int.mul_add] at this
      omega
    · by_contra hmore
      have := Int.mul_le_mul_of_nonneg_left (by omega : a + (m / d + 2) ≤ b) (by omega : 0 ≤ d)
      rw [Int.mul_add, Int.mul_add] at this
      omega

end Rounding
