import Mathlib.Algebra.Ring.Nat
import Mathlib.Tactic.Ring

/-! Ratios in fixed point: `n / m` in steps of `1 / p`, rounded down, and multiplied by an index up to `m`. -/
namespace AnyKvm
namespace FixedPoint

def ratio (p n m : ℕ) : ℕ := n * p / m

variable {p n m d : ℕ}

theorem mul_ratio_le (hd : d ≤ m) : d * ratio p n m ≤ n * p :=
  calc d * ratio p n m ≤ m * ratio p n m := Nat.mul_le_mul_right _ hd
    _ ≤ n * p := Nat.mul_div_le _ _

theorem mul_ratio_div_le (hd : d ≤ m) : d * ratio p n m / p ≤ n :=
  Nat.div_le_of_le_mul ((mul_ratio_le hd).trans (Nat.mul_comm n p).le)

theorem mul_ratio_div_mono {d' : ℕ} (hdd : d ≤ d') : d * ratio p n m / p ≤ d' * ratio p n m / p :=
  Nat.div_le_div_right (Nat.mul_le_mul_right _ hdd)

theorem mul_ratio_self_div (hp : 0 < p) (hm : 0 < m) : d * ratio p m m / p = d := by
  rw [ratio,Nat.mul_div_cancel_left p hm,Nat.mul_div_cancel d hp]

/-- Rounding twice loses something, and never adds anything. -/
theorem mul_ratio_div_le_exact (hp : 0 < p) (hm : 0 < m) : d * ratio p n m / p ≤ d * n / m := by
  rw [Nat.le_div_iff_mul_le hm]
  refine Nat.le_of_mul_le_mul_right ?_ hp
  calc d * ratio p n m / p * m * p = d * ratio p n m / p * p * m := Nat.mul_right_comm _ _ _
    _ ≤ d * ratio p n m * m := Nat.mul_le_mul_right m (Nat.div_mul_le_self _ _)
    _ = d * (ratio p n m * m) := Nat.mul_assoc _ _ _
    _ ≤ d * (n * p) := Nat.mul_le_mul_left d (Nat.div_mul_le_self _ _)
    _ = d * n * p := (Nat.mul_assoc _ _ _).symm

theorem exact_le_mul_ratio_div (hm : 0 < m) (hd : d ≤ p) : d * n / m ≤ d * ratio p n m / p + 1 := by
  rcases Nat.eq_zero_or_pos p with rfl | hp
  · rw [Nat.le_zero.mp hd,Nat.zero_mul,Nat.zero_div]
    exact Nat.zero_le _
  have hlost : n * p ≤ ratio p n m * m + m := by
    have hlt := Nat.lt_div_mul_add (a := n * p) hm
    exact hlt.le
  have hexact : d * n / m * p ≤ d * ratio p n m + d := by
    refine Nat.le_of_mul_le_mul_right ?_ hm
    calc d * n / m * p * m = d * n / m * m * p := Nat.mul_right_comm _ _ _
      _ ≤ d * n * p := Nat.mul_le_mul_right p (Nat.div_mul_le_self _ _)
      _ = d * (n * p) := Nat.mul_assoc _ _ _
      _ ≤ d * (ratio p n m * m + m) := Nat.mul_le_mul_left d hlost
      _ = (d * ratio p n m + d) * m := by ring
  rw [← Nat.add_div_right _ hp,Nat.le_div_iff_mul_le hp]
  exact hexact.trans (Nat.add_le_add_left hd _)

end FixedPoint
end AnyKvm
